import ControlEngine.System.Accounting

/-!
# The write buffer between its producers and its writer

Any number of threads call `pushWriteBuffer`: each builds its message first and then
pushes it in one step.  The writer finds out with `size`, which takes no lock, that there
is something to pop, and pops later.  In between everybody else may act: the producers
push, and the other threads of the client do with it whatever they like, except that
nobody else pops.  That is why what the writer has seen stays true until it pops.
-/

namespace ControlEngine

variable {ι : Type*} [DecidableEq ι]

/-- A client with its writer, the threads that call `pushWriteBuffer`, each of them with
the message it is about to push, and the history of the buffer. -/
structure WriteSystem (ι : Type*) where
  client : Client
  writer : WriterPc
  producers : ι → Option TcpMessage
  history : List Event

/-- A step of the writer, the first half of a call of `pushWriteBuffer` and its `push`, or
any change of the client apart from its write buffer. -/
inductive WriteAct (ι : Type*)
  | writer (outcome : Outcome)
  | call (i : ι) (data : List Byte)
  | push (i : ι)
  | others (client : Client)

namespace WriteSystem

/-- A new description, with a writer attached to it. -/
def start : WriteSystem ι where
  client := Client.start
  writer := Tid.start .writer
  producers _ := none
  history := []

/-- One act. -/
def step (env : Environment) (s : WriteSystem ι) : WriteAct ι → Option (WriteSystem ι)
  | .writer outcome =>
      (writerStep env s.client s.writer outcome).map fun r =>
        { s with
          client := s.client.after r.1
          writer := r.2
          history := s.history ++ [r.1] }
  | .call i data =>
      if s.producers i = none then
        (pushWriteBuffer env data).map fun m =>
          { s with producers := Function.update s.producers i (some m) }
      else
        none
  | .push i =>
      (s.producers i).map fun m =>
        { s with
          client := s.client.after (.push m)
          producers := Function.update s.producers i none
          history := s.history ++ [.push m] }
  | .others client => some { s with client := { client with writeBuffer := s.client.writeBuffer } }

variable {env : Environment} {s s' : WriteSystem ι} {act : WriteAct ι}

theorem step_cases (h : s.step env act = some s') :
    (∃ e, WriterMove env s.client s.writer e s'.writer ∧ s'.client = s.client.after e ∧
      s'.history = s.history ++ [e]) ∨
    (∃ m, s'.writer = s.writer ∧ s'.client = s.client.after (.push m) ∧
      s'.history = s.history ++ [.push m]) ∨
    (s'.writer = s.writer ∧ s'.client.writeBuffer = s.client.writeBuffer ∧
      s'.history = s.history) := by
  cases act with
  | writer outcome =>
      obtain ⟨⟨e, pc⟩, hwriter, rfl⟩ := Option.map_eq_some_iff.mp h
      exact Or.inl ⟨e, writerMove_of_step hwriter, rfl, rfl⟩
  | call i data =>
      obtain ⟨-, hcall⟩ := Option.ite_none_right_eq_some.mp h
      obtain ⟨m, -, rfl⟩ := Option.map_eq_some_iff.mp hcall
      exact Or.inr (Or.inr ⟨rfl, rfl, rfl⟩)
  | push i =>
      obtain ⟨m, -, rfl⟩ := Option.map_eq_some_iff.mp h
      exact Or.inr (Or.inl ⟨m, rfl, rfl, rfl⟩)
  | others client =>
      cases h
      exact Or.inr (Or.inr ⟨rfl, rfl, rfl⟩)

end WriteSystem

def Event.popped : Event → List TcpMessage
  | .pop m => [m]
  | _ => []

/-- The messages that were popped, in order. -/
def popped (history : List Event) : List TcpMessage := history.flatMap Event.popped

@[simp] theorem popped_append (history : List Event) (e : Event) :
    popped (history ++ [e]) = popped history ++ e.popped := by
  simp [popped]

/-- The buffer has lost nothing, the order is that of the pushes, and the writer pops only
when there is something to pop. -/
structure WriteSystem.Lossless (s : WriteSystem ι) : Prop where
  nonempty : s.writer = .pop → s.client.writeBuffer ≠ []
  popped_prefix : popped s.history <+: pushed s.history
  rest : pushed s.history = popped s.history ++ s.client.writeBuffer

/-! ## One step -/

variable {env : Environment} {c : Client} {e : Event} {s s' : WriteSystem ι} {act : WriteAct ι}

/-- A positive `size`, as an `int`, is not the size of an empty queue. -/
theorem ne_nil_of_queueSize_pos {queue : List TcpMessage} (h : queueSize queue > 0) :
    queue ≠ [] := by
  rintro rfl
  exact absurd h (by decide)

/-- The writer takes messages from the front, and stands before a `pop` only when it has
just seen one. -/
theorem WriterMove.takes {pc pc' : WriterPc} (h : WriterMove env c pc e pc') :
    e.pushed = [] ∧ c.writeBuffer = e.popped ++ (c.after e).writeBuffer ∧
      (pc' = .pop → (c.after e).writeBuffer ≠ []) := by
  cases h with
  | waiting hsize => exact ⟨rfl, rfl, fun _ => ne_nil_of_queueSize_pos hsize⟩
  | pop hfirst =>
      obtain ⟨rest, hrest⟩ := List.head?_eq_some_iff.mp hfirst
      refine ⟨rfl, ?_, ?_⟩
      · simp [Event.popped, Client.after, hrest]
      · intro hpop
        cases hpop
  | @send m part =>
      refine ⟨rfl, rfl, ?_⟩
      intro hpop
      cases part <;> cases hpop
  | closing hclose =>
      have hkept : e.pushed = [] ∧ c.writeBuffer = e.popped ++ (c.after e).writeBuffer := by
        cases hclose <;> exact ⟨rfl, rfl⟩
      refine ⟨hkept.1, hkept.2, ?_⟩
      intro hpop
      cases hclose <;> cases hpop
  | _ =>
      refine ⟨rfl, rfl, ?_⟩
      intro hpop
      cases hpop

theorem lossless_step (h : s.Lossless) (hstep : s.step env act = some s') : s'.Lossless := by
  have hexact : (s'.writer = .pop → s'.client.writeBuffer ≠ []) ∧
      pushed s'.history = popped s'.history ++ s'.client.writeBuffer := by
    rcases WriteSystem.step_cases hstep with
      ⟨e, hmove, hclient, hhistory⟩ | ⟨m, hwriter, hclient, hhistory⟩ | ⟨hwriter, hbuffer, hhistory⟩
    · obtain ⟨hpushed, hbuffer, hnonempty⟩ := hmove.takes
      rw [hclient, hhistory, pushed_append, popped_append, hpushed, h.rest, List.append_nil,
        List.append_assoc]
      exact ⟨hnonempty, congrArg _ hbuffer⟩
    · rw [hclient, hhistory, pushed_append, popped_append, h.rest, hwriter]
      refine ⟨fun _ => ?_, ?_⟩
      · simp [Client.after]
      · simp [Client.after, Event.pushed, Event.popped]
    · rw [hhistory, hbuffer, hwriter]
      exact ⟨h.nonempty, h.rest⟩
  exact ⟨hexact.1, ⟨_, hexact.2.symm⟩, hexact.2⟩

/-- The write buffer is a lossless first-in first-out queue for its single writer: in every
run with any number of producers, `pop` meets a queue that is not empty, and the buffer
holds exactly what was pushed behind the popped messages. -/
theorem lossless_of_reaches
    (hrun : Reaches (WriteSystem.step env) (WriteSystem.start : WriteSystem ι) s) : s.Lossless :=
  hrun.invariant ⟨nofun, ⟨[], rfl⟩, rfl⟩ fun _ _ _ h _ hstep => lossless_step h hstep

/-- Two producers push, the status changes, and the writer pops the first message. -/
def popFirst : List (WriteAct Bool) :=
  [.call true [65], .call false [66], .push false, .push true,
    .others { Client.start with connectionStatus := true },
    .writer .plain, .writer .plain, .writer .plain]

theorem lossless_of_reaches_popFirst :
    ∃ s : WriteSystem Bool, runActs (WriteSystem.step Environment.plain) (fun _ _ => True)
        WriteSystem.start popFirst = some s ∧ s.Lossless ∧ (popped s.history).length = 1 := by
  obtain ⟨s, hrun, hpopped⟩ : ∃ s : WriteSystem Bool,
      runActs (WriteSystem.step Environment.plain) (fun _ _ => True) WriteSystem.start popFirst =
        some s ∧ (popped s.history).length = 1 := ⟨_, rfl, by decide⟩
  exact ⟨s, hrun, lossless_of_reaches (guarded_of_runActs hrun), hpopped⟩

end ControlEngine
