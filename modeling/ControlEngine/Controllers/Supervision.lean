import ControlEngine.Support.Trace
import Mathlib.Data.Int.Notation

/-!
# The supervision of the controllers

`ThreadOrchestrator` starts a thread for each of its containers and then scans their
statuses for ever.  A container's `statusCode` is written by its controller's thread when
the controller ends, by `startThread` around the creation of a thread, and by the
orchestrator, which marks a container dead that it does not restart.

Reads and writes of `statusCode` are single steps here, and so is the end of a thread
behind its last write.  The trace of a run holds the calls of `startThread`, all writes of
the statuses, and the reads of positive ones.  The record of one container is a chain in
which each entry allows few next ones; what one act does is first said from the side of
one container (`ContainerMove`), so that the laws are proved for a container alone.
-/

namespace ControlEngine

/-! ## Containers -/

/-- A thread of `threadRuntime`: in the controller's `startThread`, behind the assignment
of the status, or at its end. -/
inductive RuntimePc
  | startThread
  | leaving
  | ended
deriving DecidableEq, Repr

/-- How a controller's `startThread` ends: it returns, or a `std::exception` leaves it. -/
inductive ControllerExit
  | returns (code : ℤ)
  | throws
deriving DecidableEq, Repr

/-- What `threadRuntime` makes of it. -/
def ControllerExit.statusCode : ControllerExit → ℤ
  | returns code => code
  | throws => 1

/-- `ThreadContainer`, with all the threads it ever created.  `controllerThread` is the
number of the thread that it has not joined yet. -/
structure ThreadContainer where
  statusCode : ℤ
  controllerThread : Option ℕ
  threads : List RuntimePc
deriving DecidableEq, Repr

namespace ThreadContainer

/-- The constructor. -/
def new : ThreadContainer where
  statusCode := 0
  controllerThread := none
  threads := []

/-- A thread that has not ended. -/
def Live (c : ThreadContainer) (k : ℕ) : Prop :=
  ∃ pc, c.threads[k]? = some pc ∧ pc ≠ .ended

/-- `join`, if the thread is joinable; it waits for the end of the thread. -/
def join (c : ThreadContainer) : Option ThreadContainer :=
  match c.controllerThread with
  | none => some c
  | some k =>
      if c.threads[k]? = some .ended then some { c with controllerThread := none } else none

def setStatusCode (c : ThreadContainer) (code : ℤ) : ThreadContainer :=
  { c with statusCode := code }

/-- The creation of a thread. -/
def spawn (c : ThreadContainer) : ThreadContainer :=
  { c with
    controllerThread := some c.threads.length
    threads := c.threads ++ [.startThread] }

/-- The controller of a thread ends, and the status is assigned. -/
def exit (c : ThreadContainer) (k : ℕ) (how : ControllerExit) : Option ThreadContainer :=
  if c.threads[k]? = some .startThread then
    some { c with statusCode := how.statusCode, threads := c.threads.set k .leaving }
  else none

/-- A thread ends. -/
def finish (c : ThreadContainer) (k : ℕ) : Option ThreadContainer :=
  if c.threads[k]? = some .leaving then some { c with threads := c.threads.set k .ended } else none

/-- `setDeadThreadStatusCode`. -/
def setDeadThreadStatusCode (c : ThreadContainer) : ThreadContainer := c.setStatusCode (-1)

end ThreadContainer

/-! ## The orchestrator -/

/-- The steps of a call of `ThreadContainer::startThread`. -/
inductive StartCall
  | join
  | reset
  | create
  | result
deriving DecidableEq, Repr

/-- Where `ThreadOrchestrator::startThread` stands.  `restart` tells the calls of
`startThread` in the scans from those of the first loop. -/
inductive OrchestratorPc (n : ℕ)
  | startLoop (i : ℕ)
  | scanLoop (i : ℕ)
  | getStatusCode (i : Fin n)
  | exited (i : Fin n)
  | startThread (i : Fin n) (restart : Bool) (call : StartCall)
deriving DecidableEq, Repr

/-- The orchestrator and its containers. -/
structure Supervision (n : ℕ) where
  pc : OrchestratorPc n
  threadContainerPool : Fin n → ThreadContainer

/-- A step of the orchestrator, in which the creation of a thread may fail, and the two
last steps of a thread of some container. -/
inductive SupervisionAct (n : ℕ)
  | orchestrator (spawns : Bool)
  | exit (i : Fin n) (k : ℕ) (how : ControllerExit)
  | finish (i : Fin n) (k : ℕ)
deriving DecidableEq, Repr

/-- What is recorded of a container. -/
inductive SupervisionEvent
  | attempt
  | reset
  | stored (code : ℤ)
  | report (code : ℤ)
  | dead
deriving DecidableEq, Repr

namespace Supervision

variable {n : ℕ}

/-- The orchestrator when it is started. -/
def start (n : ℕ) : Supervision n where
  pc := .startLoop 0
  threadContainerPool _ := ThreadContainer.new

def setContainer (s : Supervision n) (i : Fin n) (c : ThreadContainer) : Supervision n :=
  { s with threadContainerPool := Function.update s.threadContainerPool i c }

def goTo (s : Supervision n) (pc : OrchestratorPc n) : Supervision n := { s with pc }

/-- One step of a call of `startThread`.  A creation that fails is caught, and the status
becomes 1. -/
def startThreadStep (s : Supervision n) (i : Fin n) (restart spawns : Bool) :
    StartCall → Option (Supervision n)
  | .join =>
      (s.threadContainerPool i).join.map fun c =>
        (s.setContainer i c).goTo (.startThread i restart .reset)
  | .reset =>
      some ((s.setContainer i ((s.threadContainerPool i).setStatusCode 0)).goTo
        (.startThread i restart .create))
  | .create =>
      let c := s.threadContainerPool i
      some ((s.setContainer i (if spawns then c.spawn else c.setStatusCode 1)).goTo
        (.startThread i restart .result))
  | .result => some (s.goTo (if restart then .scanLoop (i + 1) else .startLoop (i + 1)))

/-- One step of `ThreadOrchestrator::startThread`. -/
def orchestratorStep (autoRestart : Fin n → Bool) (s : Supervision n) (spawns : Bool) :
    Option (Supervision n) :=
  match s.pc with
  | .startLoop i =>
      some (s.goTo (if h : i < n then .startThread ⟨i, h⟩ false .join else .scanLoop 0))
  | .scanLoop i => some (s.goTo (if h : i < n then .getStatusCode ⟨i, h⟩ else .scanLoop 0))
  | .getStatusCode i =>
      some (s.goTo
        (if (s.threadContainerPool i).statusCode > 0 then .exited i else .scanLoop (i + 1)))
  | .exited i =>
      if autoRestart i then
        some (s.goTo (.startThread i true .join))
      else
        some ((s.setContainer i (s.threadContainerPool i).setDeadThreadStatusCode).goTo
          (.scanLoop (i + 1)))
  | .startThread i restart call => s.startThreadStep i restart spawns call

/-- One act. -/
def step (autoRestart : Fin n → Bool) (s : Supervision n) :
    SupervisionAct n → Option (Supervision n)
  | .orchestrator spawns => s.orchestratorStep autoRestart spawns
  | .exit i k how => ((s.threadContainerPool i).exit k how).map (s.setContainer i)
  | .finish i k => ((s.threadContainerPool i).finish k).map (s.setContainer i)

/-- What is recorded of an act. -/
def events (autoRestart : Fin n → Bool) (s : Supervision n) :
    SupervisionAct n → List (Fin n × SupervisionEvent)
  | .orchestrator spawns =>
      match s.pc with
      | .startLoop i => if h : i < n then [(⟨i, h⟩, .attempt)] else []
      | .scanLoop _ => []
      | .getStatusCode i =>
          if (s.threadContainerPool i).statusCode > 0 then
            [(i, .report (s.threadContainerPool i).statusCode)]
          else []
      | .exited i => [(i, if autoRestart i then .attempt else .dead)]
      | .startThread i _ .reset => [(i, .reset)]
      | .startThread i _ .create => if spawns then [] else [(i, .stored 1)]
      | .startThread _ _ _ => []
  | .exit i _ how => [(i, .stored how.statusCode)]
  | .finish _ _ => []

section Updates

variable (s : Supervision n) (i : Fin n) (c : ThreadContainer) (pc : OrchestratorPc n)

@[simp] theorem setContainer_pc : (s.setContainer i c).pc = s.pc := rfl

@[simp] theorem setContainer_self : (s.setContainer i c).threadContainerPool i = c :=
  Function.update_self ..

theorem setContainer_of_ne {i j : Fin n} (h : j ≠ i) :
    (s.setContainer j c).threadContainerPool i = s.threadContainerPool i :=
  Function.update_of_ne (Ne.symm h) ..

@[simp] theorem goTo_pc : (s.goTo pc).pc = pc := rfl

@[simp] theorem goTo_threadContainerPool :
    (s.goTo pc).threadContainerPool = s.threadContainerPool := rfl

end Updates

/-- The record of one container. -/
def eventsOf (i : Fin n) (trace : List (Fin n × SupervisionEvent)) : List SupervisionEvent :=
  (trace.filter fun e => e.1 = i).map Prod.snd

@[simp] theorem eventsOf_nil (i : Fin n) : eventsOf i [] = [] := rfl

@[simp] theorem eventsOf_append (i : Fin n) (trace more : List (Fin n × SupervisionEvent)) :
    eventsOf i (trace ++ more) = eventsOf i trace ++ eventsOf i more := by
  simp [eventsOf]

@[simp] theorem eventsOf_self (i : Fin n) (e : SupervisionEvent) : eventsOf i [(i, e)] = [e] := by
  simp [eventsOf]

theorem eventsOf_of_ne {i j : Fin n} (e : SupervisionEvent) (h : j ≠ i) :
    eventsOf i [(j, e)] = [] := by
  simp [eventsOf, h]

end Supervision

/-! ## One act, from the side of one container -/

/-- What the orchestrator is doing with a container. -/
inductive Attention
  | notYet
  | elsewhere
  | reading
  | exited
  | starting (call : StartCall)
deriving DecidableEq, Repr

/-- The attention that a container gets. -/
def OrchestratorPc.attention {n : ℕ} (i : Fin n) : OrchestratorPc n → Attention
  | .startLoop j => if j ≤ i then .notYet else .elsewhere
  | .scanLoop _ => .elsewhere
  | .getStatusCode j => if j = i then .reading else .elsewhere
  | .exited j => if j = i then .exited else .elsewhere
  | .startThread j restart call =>
      if j = i then .starting call
      else if restart = false ∧ j < i then .notYet else .elsewhere

/-- What one act can do to a container, and what is recorded of it. -/
inductive ContainerMove (autoRestart : Bool) :
    Attention → ThreadContainer → Attention → ThreadContainer → List SupervisionEvent → Prop
  | still {a : Attention} {c : ThreadContainer} : ContainerMove autoRestart a c a c []
  | firstAttempt {c : ThreadContainer} :
      ContainerMove autoRestart .notYet c (.starting .join) c [.attempt]
  | join {c c' : ThreadContainer} (h : c.join = some c') :
      ContainerMove autoRestart (.starting .join) c (.starting .reset) c' []
  | reset {c : ThreadContainer} :
      ContainerMove autoRestart (.starting .reset) c (.starting .create) (c.setStatusCode 0)
        [.reset]
  | spawn {c : ThreadContainer} :
      ContainerMove autoRestart (.starting .create) c (.starting .result) c.spawn []
  | spawnFails {c : ThreadContainer} :
      ContainerMove autoRestart (.starting .create) c (.starting .result) (c.setStatusCode 1)
        [.stored 1]
  | leave {c : ThreadContainer} : ContainerMove autoRestart (.starting .result) c .elsewhere c []
  | visit {c : ThreadContainer} : ContainerMove autoRestart .elsewhere c .reading c []
  | readOther {c : ThreadContainer} (h : c.statusCode ≤ 0) :
      ContainerMove autoRestart .reading c .elsewhere c []
  | readExit {c : ThreadContainer} (h : 0 < c.statusCode) :
      ContainerMove autoRestart .reading c .exited c [.report c.statusCode]
  | restart {c : ThreadContainer} (h : autoRestart = true) :
      ContainerMove autoRestart .exited c (.starting .join) c [.attempt]
  | setDead {c : ThreadContainer} (h : autoRestart = false) :
      ContainerMove autoRestart .exited c .elsewhere c.setDeadThreadStatusCode [.dead]
  | exit {a : Attention} {c c' : ThreadContainer} {k : ℕ} {how : ControllerExit}
      (h : c.exit k how = some c') :
      ContainerMove autoRestart a c a c' [.stored how.statusCode]
  | finish {a : Attention} {c c' : ThreadContainer} {k : ℕ} (h : c.finish k = some c') :
      ContainerMove autoRestart a c a c' []

namespace Supervision

variable {n : ℕ} {autoRestart : Fin n → Bool} {s t : Supervision n}

/-- The containers that the orchestrator is not dealing with keep still. -/
theorem attention_startThread_of_ne {i j : Fin n} (hne : j ≠ i) (restart : Bool)
    (call : StartCall) :
    (OrchestratorPc.startThread j restart call).attention i =
      if restart then .elsewhere else (OrchestratorPc.startLoop (j + 1)).attention i := by
  refine (if_neg hne).trans ?_
  cases restart with
  | true => rfl
  | false =>
      have hlt : (false = false ∧ j < i) ↔ (j : ℕ) + 1 ≤ i := and_iff_right rfl
      exact (if_congr hlt rfl rfl).trans (if_neg Bool.false_ne_true).symm

/-- A step of a call of `startThread`, from the side of a container. -/
theorem move_startThreadStep {j : Fin n} {restart spawns : Bool} {call : StartCall}
    (hpc : s.pc = .startThread j restart call)
    (h : s.startThreadStep j restart spawns call = some t) (i : Fin n) :
    ContainerMove (autoRestart i) (s.pc.attention i) (s.threadContainerPool i)
      (t.pc.attention i) (t.threadContainerPool i)
      (eventsOf i (s.events autoRestart (.orchestrator spawns))) := by
  by_cases hji : j = i
  · subst hji
    have hattention : ∀ call, (OrchestratorPc.startThread j restart call).attention j =
        .starting call := fun call => if_pos rfl
    rw [hpc, hattention]
    cases call with
    | join =>
        obtain ⟨c, hc, rfl⟩ := Option.map_eq_some_iff.mp h
        simpa [events, hpc, hattention] using ContainerMove.join hc
    | reset =>
        cases h
        simpa [events, hpc, hattention] using ContainerMove.reset
    | create =>
        cases h
        cases spawns with
        | true => simpa [events, hpc, hattention] using ContainerMove.spawn
        | false =>
            simpa [events, hpc, hattention] using ContainerMove.spawnFails
    | result =>
        cases h
        have helsewhere : (if restart then OrchestratorPc.scanLoop (j + 1)
            else .startLoop (j + 1) : OrchestratorPc n).attention j = .elsewhere := by
          cases restart <;> simp [OrchestratorPc.attention]
        simpa [events, hpc, helsewhere] using ContainerMove.leave
  · rw [hpc, attention_startThread_of_ne hji]
    cases call with
    | join =>
        obtain ⟨c, hc, rfl⟩ := Option.map_eq_some_iff.mp h
        simpa [events, hpc, attention_startThread_of_ne hji,
          setContainer_of_ne _ _ hji] using ContainerMove.still
    | reset =>
        cases h
        simpa [events, hpc, attention_startThread_of_ne hji,
          setContainer_of_ne _ _ hji, eventsOf_of_ne _ hji] using ContainerMove.still
    | create =>
        cases h
        have hnone : eventsOf i (s.events autoRestart (.orchestrator spawns)) = [] := by
          cases spawns <;> simp [events, hpc, eventsOf_of_ne _ hji]
        simpa [hnone, attention_startThread_of_ne hji,
          setContainer_of_ne _ _ hji] using ContainerMove.still
    | result =>
        cases h
        cases restart with
        | true => simpa [events, hpc, OrchestratorPc.attention] using ContainerMove.still
        | false => simpa [events, hpc] using ContainerMove.still

theorem move_orchestratorStep {spawns : Bool}
    (h : s.orchestratorStep autoRestart spawns = some t) (i : Fin n) :
    ContainerMove (autoRestart i) (s.pc.attention i) (s.threadContainerPool i)
      (t.pc.attention i) (t.threadContainerPool i)
      (eventsOf i (s.events autoRestart (.orchestrator spawns))) := by
  cases hpc : s.pc with
  | startLoop j =>
      simp only [orchestratorStep, hpc, Option.some.injEq] at h
      subst h
      by_cases hj : j < n
      · by_cases hji : ⟨j, hj⟩ = i
        · subst hji
          simpa [events, hpc, hj, OrchestratorPc.attention] using ContainerMove.firstAttempt
        · have hle : j + 1 ≤ i ↔ j ≤ i := by
            have hne : j ≠ i := fun heq => hji (Fin.ext heq)
            omega
          have hnext : (OrchestratorPc.startThread ⟨j, hj⟩ false .join).attention i =
              (OrchestratorPc.startLoop j).attention i := by
            rw [attention_startThread_of_ne hji]
            simp [OrchestratorPc.attention, hle]
          simpa [events, hpc, hj, hnext, eventsOf_of_ne _ hji] using ContainerMove.still
      · have hnot : ¬ j ≤ i := by omega
        simpa [events, hpc, hj, OrchestratorPc.attention, hnot] using ContainerMove.still
  | scanLoop j =>
      simp only [orchestratorStep, hpc, Option.some.injEq] at h
      subst h
      by_cases hj : j < n
      · by_cases hji : ⟨j, hj⟩ = i
        · simpa [events, hpc, hj, OrchestratorPc.attention, hji] using ContainerMove.visit
        · simpa [events, hpc, hj, OrchestratorPc.attention, hji] using ContainerMove.still
      · simpa [events, hpc, hj, OrchestratorPc.attention] using ContainerMove.still
  | getStatusCode j =>
      simp only [orchestratorStep, hpc, Option.some.injEq] at h
      subst h
      by_cases hexit : (s.threadContainerPool j).statusCode > 0
      · by_cases hji : j = i
        · subst hji
          simpa [events, hpc, hexit, OrchestratorPc.attention] using
            ContainerMove.readExit hexit
        · simpa [events, hpc, hexit, OrchestratorPc.attention, hji, eventsOf_of_ne _ hji]
            using ContainerMove.still
      · by_cases hji : j = i
        · subst hji
          simpa [events, hpc, hexit, OrchestratorPc.attention] using
            ContainerMove.readOther (Int.not_lt.mp hexit)
        · simpa [events, hpc, hexit, OrchestratorPc.attention, hji] using
            ContainerMove.still
  | exited j =>
      simp only [orchestratorStep, hpc] at h
      cases hauto : autoRestart j with
      | true =>
          rw [if_pos hauto] at h
          cases h
          by_cases hji : j = i
          · subst hji
            simpa [events, hpc, hauto, OrchestratorPc.attention] using
              ContainerMove.restart hauto
          · simpa [events, hpc, hauto, OrchestratorPc.attention, hji,
              eventsOf_of_ne _ hji] using ContainerMove.still
      | false =>
          rw [if_neg (by simp [hauto])] at h
          cases h
          by_cases hji : j = i
          · subst hji
            simpa [events, hpc, hauto, OrchestratorPc.attention] using
              ContainerMove.setDead hauto
          · simpa [events, hpc, hauto, OrchestratorPc.attention, hji,
              setContainer_of_ne _ _ hji, eventsOf_of_ne _ hji] using
              ContainerMove.still
  | startThread j restart call =>
      rw [orchestratorStep, hpc] at h
      rw [← hpc]
      exact move_startThreadStep hpc h i

theorem move_step {act : SupervisionAct n} (h : s.step autoRestart act = some t) (i : Fin n) :
    ContainerMove (autoRestart i) (s.pc.attention i) (s.threadContainerPool i)
      (t.pc.attention i) (t.threadContainerPool i) (eventsOf i (s.events autoRestart act)) := by
  cases act with
  | orchestrator spawns => exact move_orchestratorStep h i
  | exit j k how =>
      obtain ⟨c, hc, rfl⟩ := Option.map_eq_some_iff.mp h
      by_cases hji : j = i
      · subst hji
        simpa [events] using ContainerMove.exit hc
      · simpa [events, setContainer_of_ne _ _ hji, eventsOf_of_ne _ hji]
          using ContainerMove.still
  | finish j k =>
      obtain ⟨c, hc, rfl⟩ := Option.map_eq_some_iff.mp h
      by_cases hji : j = i
      · subst hji
        simpa [events] using ContainerMove.finish hc
      · simpa [events, setContainer_of_ne _ _ hji] using
          ContainerMove.still

end Supervision

end ControlEngine
