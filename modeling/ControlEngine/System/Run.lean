import ControlEngine.System.Threads
import ControlEngine.Support.Transition

/-!
# The system and its runs

The system is the client with all its threads, any number of callers of
`restartNetwork` among them, and the history of the events so far.  An act lets one
thread take its next step, or pushes a string to the write buffer; everything that
properties of interleavings speak of can be read from the history.

`step_cases` says once what an act can do.  Invariants are derived from it and from
what the steps of each thread have in common, never by unfolding `step`.
-/

namespace ControlEngine

/-- The client, the history and the threads. -/
structure System where
  client : Client
  history : List Event
  threads : (t : Tid) → t.Pc

/-- The next step of a thread, with what the system calls contribute, or a call of
`pushWriteBuffer`. -/
inductive Act
  | thread (t : Tid) (outcome : Outcome)
  | pushWriteBuffer (data : List Byte)
deriving DecidableEq, Repr

/-- The thread that acts. -/
def Act.tid : Act → Option Tid
  | thread t _ => some t
  | pushWriteBuffer _ => none

/-- The message that `pushWriteBuffer` pushes. -/
def pushWriteBuffer (env : Environment) (data : List Byte) : Option TcpMessage :=
  if data.length < 2 ^ 63 then (TcpMesageFromString env.alloc data).toOption else none

namespace System

/-- A new description with its threads. -/
def start : System where
  client := Client.start
  history := []
  threads := Tid.start

/-- An event has happened. -/
def record (s : System) (e : Event) (threads : (t : Tid) → t.Pc) : System where
  client := s.client.after e
  history := s.history ++ [e]
  threads := threads

/-- The event that an act causes, if it is possible. -/
def eventOf (env : Environment) (s : System) : Act → Option Event
  | .thread t outcome => (threadStep env s.client t (s.threads t) outcome).map Prod.fst
  | .pushWriteBuffer data => (pushWriteBuffer env data).map .push

/-- One act. -/
def step (env : Environment) (s : System) : Act → Option System
  | .thread t outcome =>
      (threadStep env s.client t (s.threads t) outcome).map fun r =>
        s.record r.1 (Function.update s.threads t r.2)
  | .pushWriteBuffer data =>
      (pushWriteBuffer env data).map fun m => s.record (.push m) s.threads

variable {env : Environment} {s s' : System} {act : Act}

/-- All that an act can do. -/
theorem step_cases (h : step env s act = some s') :
    (∃ t outcome e pc, act = .thread t outcome ∧
      threadStep env s.client t (s.threads t) outcome = some (e, pc) ∧
      eventOf env s act = some e ∧ s' = s.record e (Function.update s.threads t pc)) ∨
    (∃ data m, act = .pushWriteBuffer data ∧ pushWriteBuffer env data = some m ∧
      eventOf env s act = some (.push m) ∧ s' = s.record (.push m) s.threads) := by
  cases act with
  | thread t outcome =>
      obtain ⟨⟨e, pc⟩, hstep, rfl⟩ := Option.map_eq_some_iff.mp h
      exact Or.inl ⟨t, outcome, e, pc, rfl, hstep, by simp [eventOf, hstep], rfl⟩
  | pushWriteBuffer data =>
      obtain ⟨m, hm, rfl⟩ := Option.map_eq_some_iff.mp h
      exact Or.inr ⟨data, m, rfl, hm, by simp [eventOf, hm], rfl⟩

end System

/-! ## Runs for examples -/

/-- An environment for examples. -/
def Environment.plain : Environment where
  alloc := Allocator.zeroed
  order := .little
  autoReconnect := true

/-- The connection controller builds a socket and accepts a connection on it. -/
def connect (listener accepted : Fd) : List Act :=
  [.thread .controller .plain, .thread .controller (.returns listener),
    .thread .controller .plain] ++
  (List.replicate 5 [.thread .controller .plain, .thread .controller (.returns 0)]).flatten ++
  [.thread .controller .plain, .thread .controller (.returns accepted)] ++
  List.replicate 4 (.thread .controller .plain)

/-- A ping fails, and the connection controller closes the socket and goes back to
building one. -/
def loseConnection : List Act :=
  List.replicate 3 (.thread .controller .plain) ++ [.thread .controller (.returns (-1))] ++
  List.replicate 5 (.thread .controller .plain)

/-- A string of one byte is pushed, and the writer takes it up to its first `send`. -/
def beginSend : List Act :=
  .pushWriteBuffer [65] :: List.replicate 6 (.thread .writer .plain)

/-- The writer sends a message of one byte. -/
def sendOneByte : List Act :=
  connect 5 6 ++ beginSend ++
    [.thread .writer (.returns 8), .thread .writer .plain, .thread .writer (.returns 4),
      .thread .writer .plain, .thread .writer (.returns 1), .thread .writer .plain]

end ControlEngine
