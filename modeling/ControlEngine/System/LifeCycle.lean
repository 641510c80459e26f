import ControlEngine.System.Moves
import ControlEngine.Support.Trace

/-!
# The life cycle of a connection

A cycle of the connection controller builds a socket, tries to accept a connection until
it succeeds, and then pings it as long as it finds it there.  The trace records the
operations that the controller calls on the client and what its two tests of
`connectionStatus` see; all other threads, and any number of callers of `restartNetwork`
among them, act in between and clear the status at any moment.

The controller's program counter says how much of a cycle it has begun (`begun`), and
whether a connection was accepted in it (`accepted`); everything before is whole cycles.
-/

namespace ControlEngine

/-- The operations that the controller calls on its client. -/
inductive Operation
  | createSocket
  | buildInternalSocketAddress
  | bindSocket
  | listenSocket
  | acceptSocket (succeeds : Bool)
  | ping
deriving DecidableEq, Repr

/-- What the life cycle can be read from: the operations, and the values of
`connectionStatus` that the loop's own tests see. -/
inductive Sight
  | operation (o : Operation)
  | status (connectionStatus : Bool)
deriving DecidableEq, Repr

/-- The operation that a call of the preparation belongs to, at its first step. -/
def SetupCall.operation : SetupCall → List Operation
  | F_GETFL | F_SETFL => []
  | setsockopt => [.buildInternalSocketAddress]
  | bind => [.bindSocket]
  | listen => [.listenSocket]

/-- What is seen of a step of the controller. -/
def ControllerPc.sights (c : Client) : ControllerPc → Event → List Sight
  | .testBuild _, _ | .testStatus _, _ => [.status c.connectionStatus]
  | .socket, _ => [.operation .createSocket]
  | .setupFetch call, _ => call.operation.map .operation
  | .accept _, .acceptFailed _ => [.operation (.acceptSocket false)]
  | .accept _, _ => [.operation (.acceptSocket true)]
  | .pingTest, _ => [.operation .ping]
  | _, _ => []

/-- What is seen of an act. -/
def System.sights (env : Environment) (s : System) (act : Act) : List Sight :=
  if act.tid = some .controller then
    (s.eventOf env act).toList.flatMap (ControllerPc.sights s.client (s.threads .controller))
  else
    []

def Sight.operations : Sight → List Operation
  | operation o => [o]
  | status _ => []

/-- The operations of a trace, in order. -/
def operations (trace : List Sight) : List Operation := trace.flatMap Sight.operations

/-- A cycle: the failed attempts to accept, and the pings. -/
structure Cycle where
  failures : ℕ
  pings : ℕ

/-- The operations that every cycle begins with. -/
def preparation : List Operation :=
  [.createSocket, .buildInternalSocketAddress, .bindSocket, .listenSocket]

/-- The operations of a cycle. -/
def Cycle.word (cycle : Cycle) : List Operation :=
  preparation ++ List.replicate cycle.failures (.acceptSocket false) ++
    [.acceptSocket true] ++ List.replicate cycle.pings .ping

/-- Behind the latest successful accept, no new cycle has begun. -/
def FollowsAccept (trace : List Sight) : Prop :=
  ∃ before after, trace = before ++ .operation (.acceptSocket true) :: after ∧
    .operation .createSocket ∉ after

/-- Since the latest successful accept, the status was seen to be false. -/
def FollowsLoss (trace : List Sight) : Prop :=
  ∃ before after, trace = before ++ .operation (.acceptSocket true) :: after ∧
    .operation .createSocket ∉ after ∧ .status false ∈ after

/-- A new cycle, unless it is the first, begins only behind a loss. -/
def RebuildsAfterLoss (before : List Sight) (x : Sight) : Prop :=
  x = .operation .createSocket → .operation .createSocket ∈ before → FollowsLoss before

/-! ## How far a cycle has come -/

/-- The operations of a cycle before a call of its preparation. -/
def SetupCall.issued : SetupCall → List Operation
  | F_GETFL | F_SETFL | setsockopt => [.createSocket]
  | bind => [.createSocket, .buildInternalSocketAddress]
  | listen => [.createSocket, .buildInternalSocketAddress, .bindSocket]

/-- The operations of the cycle that has begun and has not accepted a connection yet. -/
def ControllerPc.begun (failures : ℕ) : ControllerPc → List Operation
  | .storeSocket _ => [.createSocket]
  | .setupFetch call => call.issued
  | .setup call _ => call.issued ++ call.operation
  | .acceptFetch | .accept _ | .testStatus .TO_CONNECT | .testBuild .TO_CONNECT =>
      preparation ++ List.replicate failures (.acceptSocket false)
  | _ => []

/-- A connection was accepted, and no new cycle is due. -/
def ControllerPc.accepted : ControllerPc → Bool
  | .closeListenerFetch _ | .closeListener _ _ | .storeAccepted _ | .setStatus
  | .testStatus .CONNECTED | .testStatus .DISCONNECTED
  | .testBuild .CONNECTED | .testBuild .DISCONNECTED
  | .pingTest | .pingFetch | .pingSend _ | .pingFailing _ => true
  | _ => false

/-- Whole cycles, and then the one that has begun. -/
def Cycles (env : Environment) (pc : ControllerPc) (done : List Operation) : Prop :=
  ∃ (cycles : List Cycle) (failures : ℕ),
    done = cycles.flatMap Cycle.word ++ pc.begun failures ∧
      (pc.accepted = true → cycles ≠ []) ∧
      (env.autoReconnect = false → cycles.length ≤ if pc.accepted then 1 else 0)

@[simp] theorem operations_append (trace more : List Sight) :
    operations (trace ++ more) = operations trace ++ operations more := by
  simp [operations]

@[simp] theorem operations_map (ops : List Operation) :
    operations (ops.map .operation) = ops := by
  simp [operations, Sight.operations, List.flatMap_map]

variable {env : Environment} {c : Client} {e : Event} {s s' : System} {act : Act}
  {pc pc' : ControllerPc} {done more : List Operation} {trace : List Sight}

/-- A step that does what its change of `begun` says. -/
theorem Cycles.keep (h : Cycles env pc done)
    (hbegun : ∀ failures, pc'.begun failures = pc.begun failures ++ more)
    (haccepted : pc'.accepted = pc.accepted) : Cycles env pc' (done ++ more) := by
  obtain ⟨cycles, failures, rfl, hnonempty, hlength⟩ := h
  refine ⟨cycles, failures, ?_, ?_, ?_⟩
  · rw [hbegun, List.append_assoc]
  · rwa [haccepted]
  · rwa [haccepted]

/-- A step without an operation, inside the same part of the cycle. -/
theorem Cycles.quiet (h : Cycles env pc done)
    (hbegun : ∀ failures, pc'.begun failures = pc.begun failures)
    (haccepted : pc'.accepted = pc.accepted) : Cycles env pc' (done ++ []) :=
  h.keep (fun failures => by rw [hbegun, List.append_nil]) haccepted

/-- The end of the loop's body begins no cycle; without the flag, it makes none due. -/
theorem cycles_reconnect {state : NetworkConnectionControllerState}
    (h : Cycles env (.testBuild state) done) :
    Cycles env (.testBuild (reconnect env state)) done := by
  rw [reconnect]
  split
  · rename_i hdue
    obtain ⟨hon, rfl⟩ := hdue
    obtain ⟨cycles, failures, rfl, -, -⟩ := h
    exact ⟨cycles, failures, rfl, nofun, by simp [hon]⟩
  · exact h

theorem Cycles.ping (h : Cycles env pc done) (haccepted : pc.accepted = true)
    (hbegun : ∀ failures, pc.begun failures = []) (haccepted' : pc'.accepted = true)
    (hbegun' : ∀ failures, pc'.begun failures = []) : Cycles env pc' (done ++ [.ping]) := by
  obtain ⟨cycles, failures, rfl, hnonempty, hlength⟩ := h
  rw [haccepted] at hlength
  obtain ⟨earlier, last, rfl⟩ := List.eq_nil_or_concat cycles |>.resolve_left (hnonempty haccepted)
  refine ⟨earlier ++ [⟨last.failures, last.pings + 1⟩], 0, ?_, ?_, ?_⟩
  · simp [Cycle.word, List.replicate_succ', hbegun, hbegun']
  · simp
  · rw [haccepted']
    simpa using hlength

theorem cycles_step {outcome : Outcome} (h : Cycles env pc done)
    (hstep : controllerStep env c pc outcome = some (e, pc')) :
    Cycles env pc' (done ++ operations (pc.sights c e)) := by
  cases controllerMove_of_step hstep with
  | skip hstate =>
      rename_i state
      cases state with
      | TO_CONNECT => exact absurd rfl hstate
      | _ => exact h.quiet (fun _ => rfl) rfl
  | socketFailed => exact h.keep (fun _ => rfl) rfl
  | socket => exact h.keep (fun _ => rfl) rfl
  | storeSocket =>
      have hcall := controllerStep_storeSocket hstep
      rw [hcall]
      refine h.quiet (fun _ => ?_) rfl
      split <;> rfl
  | @setupFetch call =>
      rw [ControllerPc.sights, operations_map]
      exact h.keep (fun _ => rfl) rfl
  | @setup call _ fd n =>
      rw [controllerStep_setup hstep]
      cases call with
      | listen =>
          obtain ⟨cycles, failures, rfl, hnonempty, hlength⟩ := h
          refine ⟨cycles, 0, ?_, ?_, hlength⟩
          · simp [ControllerPc.begun, ControllerPc.sights, operations, SetupCall.next,
              SetupCall.issued, SetupCall.operation, preparation]
          · intro haccepted
            cases haccepted
      | _ => exact h.keep (fun _ => rfl) rfl
  | @prepared call fd n =>
      have hcall := controllerStep_setup hstep
      cases call with
      | listen =>
          obtain ⟨cycles, failures, rfl, hnonempty, hlength⟩ := h
          refine ⟨cycles, 0, ?_, ?_, hlength⟩
          · simp [ControllerPc.begun, ControllerPc.sights, operations, SetupCall.issued,
              SetupCall.operation, preparation]
          · intro haccepted
            cases haccepted
      | _ => cases hcall
  | acceptFailed =>
      obtain ⟨cycles, failures, rfl, -, hlength⟩ := h
      refine ⟨cycles, failures + 1, ?_, ?_, hlength⟩
      · simp [ControllerPc.begun, ControllerPc.sights, operations, Sight.operations,
          List.replicate_succ']
      · intro haccepted
        cases haccepted
  | accept =>
      obtain ⟨cycles, failures, rfl, -, hlength⟩ := h
      refine ⟨cycles ++ [⟨failures, 0⟩], 0, ?_, ?_, ?_⟩
      · simp [ControllerPc.begun, ControllerPc.sights, operations, Sight.operations, Cycle.word]
      · simp
      · intro hoff
        have hnone := hlength hoff
        simp only [ControllerPc.accepted, if_false, if_true, List.length_append,
          List.length_singleton, Bool.false_eq_true] at hnone ⊢
        omega
  | lost =>
      have hlost : Cycles env (.testBuild .DISCONNECTED) (done ++ []) :=
        h.quiet (fun _ => rfl) rfl
      exact cycles_reconnect hlost
  | @next state hstate =>
      have hnext : Cycles env (.testBuild state) (done ++ []) := by
        cases state with
        | CONNECTED => exact absurd rfl hstate
        | _ => exact h.quiet (fun _ => rfl) rfl
      exact cycles_reconnect hnext
  | pingTest => exact h.ping rfl (fun _ => rfl) rfl (fun _ => rfl)
  | pingRefused => exact h.ping rfl (fun _ => rfl) rfl (fun _ => rfl)
  | closing hclose => cases hclose <;> exact h.quiet (fun _ => rfl) rfl
  | _ => exact h.quiet (fun _ => rfl) rfl

/-! ## Behind the loss of a connection -/

/-- What the trace says where the controller stands: outside the cycles the latest one has
accepted, and before `createSocket` its connection was seen to be lost. -/
def ControllerPc.Behind (trace : List Sight) : ControllerPc → Prop
  | .socket => .operation .createSocket ∈ trace → FollowsLoss trace
  | .storeSocket _ | .setupFetch _ | .setup _ _ | .acceptFetch | .accept _
  | .testStatus .TO_CONNECT | .testBuild .TO_CONNECT => True
  | _ => .operation .createSocket ∈ trace → FollowsAccept trace

theorem FollowsAccept.append {seen : List Sight} (h : FollowsAccept trace)
    (hnone : .operation .createSocket ∉ seen) : FollowsAccept (trace ++ seen) := by
  obtain ⟨before, after, rfl, hafter⟩ := h
  refine ⟨before, after ++ seen, by simp, ?_⟩
  rw [List.mem_append]
  exact not_or.mpr ⟨hafter, hnone⟩

theorem FollowsAccept.lost (h : FollowsAccept trace) :
    FollowsLoss (trace ++ [.status false]) := by
  obtain ⟨before, after, rfl, hafter⟩ := h
  refine ⟨before, after ++ [.status false], by simp, ?_, by simp⟩
  simpa using hafter

theorem followsAccept_accept (trace : List Sight) :
    FollowsAccept (trace ++ [.operation (.acceptSocket true)]) :=
  ⟨trace, [], rfl, by simp⟩

/-- Outside the cycles a step that does not create a socket keeps what the trace says. -/
theorem followsAccept_append_of_mem {seen : List Sight}
    (h : .operation .createSocket ∈ trace → FollowsAccept trace)
    (hnone : .operation .createSocket ∉ seen) :
    .operation .createSocket ∈ trace ++ seen → FollowsAccept (trace ++ seen) := by
  intro hmem
  rcases List.mem_append.mp hmem with hold | hnew
  · exact (h hold).append hnone
  · exact absurd hnew hnone

theorem ControllerPc.behind_reconnect {state : NetworkConnectionControllerState}
    (h : (ControllerPc.testBuild state).Behind trace) :
    (ControllerPc.testBuild (reconnect env state)).Behind trace := by
  rw [reconnect]
  split
  · rename_i hdue
    obtain ⟨-, rfl⟩ := hdue
    exact h
  · exact h

theorem ControllerMove.behind (h : ControllerMove env c pc e pc') (hpc : pc.Behind trace) :
    pc'.Behind (trace ++ pc.sights c e) := by
  cases h with
  | build hnot =>
      rw [ControllerPc.sights, hnot]
      intro hmem
      exact (hpc (by simpa using hmem)).lost
  | skip hstate =>
      rename_i state
      cases state with
      | TO_CONNECT => exact absurd rfl hstate
      | _ => exact followsAccept_append_of_mem hpc (by simp [ControllerPc.sights])
  | setup => trivial
  | accept => exact fun _ => followsAccept_accept trace
  | lost =>
      have hlost : (ControllerPc.testBuild .DISCONNECTED).Behind
          (trace ++ (ControllerPc.testStatus .CONNECTED).sights c .look) :=
        followsAccept_append_of_mem hpc (by simp [ControllerPc.sights])
      exact ControllerPc.behind_reconnect hlost
  | @next state hstate =>
      have hnext : (ControllerPc.testBuild state).Behind
          (trace ++ (ControllerPc.testStatus state).sights c .look) := by
        cases state with
        | TO_CONNECT => trivial
        | _ => exact followsAccept_append_of_mem hpc (by simp [ControllerPc.sights])
      exact ControllerPc.behind_reconnect hnext
  | closing hclose =>
      cases hclose <;> exact followsAccept_append_of_mem hpc (by simp [ControllerPc.sights])
  | _ =>
      first
        | trivial
        | exact followsAccept_append_of_mem hpc (by simp [ControllerPc.sights])

/-- A step sees at most one thing, and `createSocket` only where it is due. -/
theorem ControllerPc.sights_lawful (hpc : pc.Behind trace)
    (h : Lawful RebuildsAfterLoss trace) :
    Lawful RebuildsAfterLoss (trace ++ pc.sights c e) := by
  have hone : ∀ x : Sight, (x = .operation .createSocket → pc = .socket) →
      Lawful RebuildsAfterLoss (trace ++ [x]) := by
    intro x hx
    refine lawful_append_singleton.mpr ⟨h, ?_⟩
    intro hcreate hmem
    rw [hx hcreate] at hpc
    exact hpc hmem
  have hnone : Lawful RebuildsAfterLoss (trace ++ []) := by
    rwa [List.append_nil]
  cases pc with
  | testBuild => exact hone _ nofun
  | testStatus => exact hone _ nofun
  | socket => exact hone _ fun _ => rfl
  | setupFetch call =>
      cases call with
      | F_GETFL => exact hnone
      | F_SETFL => exact hnone
      | _ => exact hone _ nofun
  | accept fd => cases e <;> exact hone _ nofun
  | pingTest => exact hone _ nofun
  | _ => exact hnone

/-! ## Runs -/

/-- The two laws of the trace, with what carries them. -/
structure System.InCycle (env : Environment) (s : System × List Sight) : Prop where
  cycles : Cycles env (s.1.threads .controller) (operations s.2)
  behind : ControllerPc.Behind s.2 (s.1.threads .controller)
  lawful : Lawful RebuildsAfterLoss s.2

theorem inCycle_step {s s' : System × List Sight} (h : System.InCycle env s)
    (hstep : observed (System.step env) (System.sights env) s act = some s') :
    System.InCycle env s' := by
  obtain ⟨hsystem, htrace⟩ := observed_cases hstep
  obtain ⟨e, hevent, -, -, hown | hother⟩ := System.focus .controller hsystem
  · obtain ⟨htid, outcome, hthread⟩ := hown
    have hsights : s.1.sights env act =
        ControllerPc.sights s.1.client (s.1.threads .controller) e := by
      simp [System.sights, htid, hevent]
    have hmove : ControllerMove env s.1.client (s.1.threads .controller) e
        (s'.1.threads .controller) := controllerMove_of_step hthread
    rw [hsights] at htrace
    refine ⟨?_, ?_, ?_⟩
    · rw [htrace, operations_append]
      exact cycles_step h.cycles hthread
    · rw [htrace]
      exact hmove.behind h.behind
    · rw [htrace]
      exact ControllerPc.sights_lawful h.behind h.lawful
  · obtain ⟨htid, -, hsame⟩ := hother
    have hsights : s.1.sights env act = [] := by
      simp [System.sights, htid]
    rw [hsights, List.append_nil] at htrace
    refine ⟨?_, ?_, ?_⟩
    · rw [hsame, htrace]
      exact h.cycles
    · rw [hsame, htrace]
      exact h.behind
    · rw [htrace]
      exact h.lawful

theorem SetupCall.issued_prefix (call : SetupCall) :
    call.issued ++ call.operation <+: preparation := by
  cases call <;> decide

/-- What has begun is the beginning of a cycle that has accepted nothing yet. -/
theorem ControllerPc.begun_prefix (pc : ControllerPc) (failures : ℕ) :
    pc.begun failures = [] ∨
      (pc.accepted = false ∧ pc.begun failures <+: (Cycle.mk failures 0).word) := by
  have hpreparation : preparation <+: (Cycle.mk failures 0).word := by
    simp [Cycle.word]
  cases pc with
  | storeSocket => exact Or.inr ⟨rfl, (SetupCall.issued_prefix .F_GETFL).trans hpreparation⟩
  | setupFetch call =>
      have hissued : call.issued <+: call.issued ++ call.operation := List.prefix_append _ _
      exact Or.inr ⟨rfl, (hissued.trans call.issued_prefix).trans hpreparation⟩
  | setup call fd => exact Or.inr ⟨rfl, call.issued_prefix.trans hpreparation⟩
  | acceptFetch => exact Or.inr ⟨rfl, by simp [ControllerPc.begun, Cycle.word]⟩
  | accept => exact Or.inr ⟨rfl, by simp [ControllerPc.begun, Cycle.word]⟩
  | testBuild state =>
      cases state with
      | TO_CONNECT => exact Or.inr ⟨rfl, by simp [ControllerPc.begun, Cycle.word]⟩
      | _ => exact Or.inl rfl
  | testStatus state =>
      cases state with
      | TO_CONNECT => exact Or.inr ⟨rfl, by simp [ControllerPc.begun, Cycle.word]⟩
      | _ => exact Or.inl rfl
  | _ => exact Or.inl rfl

/-- Whole cycles and one that has begun are the beginning of whole cycles. -/
theorem Cycles.exists_prefix (h : Cycles env pc done) :
    ∃ cycles : List Cycle, done <+: cycles.flatMap Cycle.word ∧
      (env.autoReconnect = false → cycles.length ≤ 1) := by
  obtain ⟨cycles, failures, rfl, -, hlength⟩ := h
  rcases pc.begun_prefix failures with hnone | ⟨hnot, hprefix⟩
  · refine ⟨cycles, by simp [hnone], ?_⟩
    intro hoff
    exact (hlength hoff).trans (by split <;> decide)
  · refine ⟨cycles ++ [⟨failures, 0⟩], ?_, ?_⟩
    · rw [List.flatMap_append, List.flatMap_singleton, List.prefix_append_right_inj]
      exact hprefix
    · intro hoff
      simpa [hnot] using hlength hoff

/-- The life cycle of a connection: in every run the operations are the beginning of a word
of whole cycles, with `Auto-Reconnect` off of one cycle at most, and every cycle but the
first begins after the status was seen to be false behind the successful accept of the one
before. -/
theorem lifeCycle_of_reaches {trace : List Sight}
    (hrun : Reaches (observed (System.step env) (System.sights env)) (System.start, []) (s, trace)) :
    (∃ cycles : List Cycle, operations trace <+: cycles.flatMap Cycle.word ∧
        (env.autoReconnect = false → cycles.length ≤ 1)) ∧
      Lawful RebuildsAfterLoss trace := by
  have hstart : System.InCycle env (System.start, []) := by
    refine ⟨⟨[], 0, rfl, nofun, by simp⟩, ?_, lawful_nil _⟩
    intro hmem
    cases hmem
  have hcycle := hrun.invariant hstart fun _ _ _ h _ hstep => inCycle_step h hstep
  exact ⟨hcycle.cycles.exists_prefix, hcycle.lawful⟩

theorem lifeCycle_of_reaches_reconnect :
    ∃ (s : System) (trace : List Sight),
      runActs (observed (System.step Environment.plain) (System.sights Environment.plain))
          (fun _ _ => True) (System.start, []) (connect 5 6 ++ loseConnection ++ connect 7 8) =
        some (s, trace) ∧
      (operations trace).length = 11 ∧
      (∃ cycles : List Cycle, operations trace <+: cycles.flatMap Cycle.word ∧
        (Environment.plain.autoReconnect = false → cycles.length ≤ 1)) ∧
      Lawful RebuildsAfterLoss trace := by
  obtain ⟨s, trace, hrun, hlength⟩ : ∃ (s : System) (trace : List Sight),
      runActs (observed (System.step Environment.plain) (System.sights Environment.plain))
          (fun _ _ => True) (System.start, []) (connect 5 6 ++ loseConnection ++ connect 7 8) =
        some (s, trace) ∧ (operations trace).length = 11 := ⟨_, _, rfl, by decide⟩
  exact ⟨s, trace, hrun, hlength, lifeCycle_of_reaches (guarded_of_runActs hrun)⟩

end ControlEngine
