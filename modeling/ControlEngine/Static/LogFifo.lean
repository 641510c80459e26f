import ControlEngine.Static.LogQueue
import ControlEngine.Support.Fifo

/-!
# The log queue in one thread

Every operation of `LogQueue` locks and unlocks by hand.  `front` returns before the line
that unlocks, so it keeps `popLock` for good, and the next operation that wants this lock
waits for its own thread.
-/

namespace ControlEngine

namespace OneThread

/-- The fields of `LogQueue`; a mutex is held or not. -/
structure LogQueue where
  mQueue : List LogEntry
  popLock : Bool
  pushLock : Bool

/-- Why an operation does not return: it waits for a mutex that its own thread holds, or it
takes an element of an empty queue. -/
inductive Stuck
  | blocked
  | undefinedBehaviour
deriving DecidableEq, Repr

/-- The operations of `LogQueue`. -/
inductive Operation
  | front
  | pop
  | empty
  | push (value : LogEntry)
  | pushStrings (s1 s2 s3 s4 : List Byte)
deriving DecidableEq

namespace LogQueue

/-- The constructor of `LogQueue`. -/
def fresh : LogQueue where
  mQueue := []
  popLock := false
  pushLock := false

/-- `popLock.lock()`. -/
def lockPop (q : LogQueue) : Except Stuck LogQueue :=
  if q.popLock then .error .blocked else .ok { q with popLock := true }

/-- `pushLock.lock()`. -/
def lockPush (q : LogQueue) : Except Stuck LogQueue :=
  if q.pushLock then .error .blocked else .ok { q with pushLock := true }

/-- `mQueue.front()`. -/
def queueFront (q : LogQueue) : Except Stuck LogEntry :=
  match q.mQueue with
  | [] => .error .undefinedBehaviour
  | value :: _ => .ok value

/-- `LogQueue::front`; its last line is never reached. -/
def front (q : LogQueue) : Except Stuck (FifoAnswer LogEntry × LogQueue) := do
  let q ← q.lockPop
  let value ← q.queueFront
  return (.item value, q)

/-- `LogQueue::pop`. -/
def pop (q : LogQueue) : Except Stuck (FifoAnswer LogEntry × LogQueue) := do
  let q ← q.lockPop
  let popped ← q.queueFront
  return (.item popped, { q with mQueue := q.mQueue.tail, popLock := false })

/-- `LogQueue::empty`. -/
def empty (q : LogQueue) : Except Stuck (FifoAnswer LogEntry × LogQueue) := do
  let q ← q.lockPop
  return (.test q.mQueue.isEmpty, { q with popLock := false })

/-- `LogQueue::push`. -/
def push (value : LogEntry) (q : LogQueue) : Except Stuck (FifoAnswer LogEntry × LogQueue) := do
  let q ← q.lockPush
  return (.done, { q with mQueue := q.mQueue ++ [value], pushLock := false })

/-- `LogQueue::push` of up to four strings. -/
def pushStrings (s1 s2 s3 s4 : List Byte) (q : LogQueue) :
    Except Stuck (FifoAnswer LogEntry × LogQueue) := do
  let q ← q.lockPush
  return (.done, { q with mQueue := q.mQueue ++ [⟨s1, s2, s3, s4⟩], pushLock := false })

/-- A call of an operation. -/
def call (q : LogQueue) : Operation → Except Stuck (FifoAnswer LogEntry × LogQueue)
  | .front => q.front
  | .pop => q.pop
  | .empty => q.empty
  | .push value => q.push value
  | .pushStrings s1 s2 s3 s4 => q.pushStrings s1 s2 s3 s4

/-- Calls one after the other, with what they return. -/
def calls : LogQueue → List Operation → Except Stuck (List (FifoAnswer LogEntry))
  | _, [] => .ok []
  | q, op :: ops => do
      let (answer, q) ← q.call op
      let later ← q.calls ops
      return answer :: later

end LogQueue

namespace Operation

/-- What an operation means for a queue. -/
def meaning : Operation → FifoOp LogEntry
  | front => .front
  | pop => .pop
  | empty => .empty
  | push value => .push value
  | pushStrings s1 s2 s3 s4 => .push ⟨s1, s2, s3, s4⟩

/-- Whether an operation is a `push`. -/
def isPush : Operation → Bool
  | push _ | pushStrings _ _ _ _ => true
  | front | pop | empty => false

end Operation

/-- What a queue returns, where no item is asked of an empty one. -/
def fifoAnswers (ops : List Operation) : Option (List (FifoAnswer LogEntry)) :=
  Fifo.fresh.answers (ops.map Operation.meaning)

/-- The calls return what a queue returns. -/
def RefinesFifo (ops : List Operation) : Prop :=
  ∀ answers, fifoAnswers ops = some answers → LogQueue.fresh.calls ops = .ok answers

/-- All that comes after a `front` is pushed. -/
def OnlyPushesAfterFront (ops : List Operation) : Prop :=
  ops.Pairwise fun op later => op = .front → later.isPush = true

instance decidableOnlyPushesAfterFront (ops : List Operation) :
    Decidable (OnlyPushesAfterFront ops) :=
  inferInstanceAs (Decidable (List.Pairwise _ ops))

/-! ## One call -/

theorem ok_bind {α β : Type} (a : α) (next : α → Except Stuck β) :
    (Except.ok a >>= next) = next a := rfl

/-- The stored items are those that wait, and `pushLock` is free. -/
structure Stores (q : LogQueue) (f : Fifo LogEntry) : Prop where
  mQueue : q.mQueue = f.waiting
  pushLock : q.pushLock = false

theorem stores_fresh : Stores LogQueue.fresh Fifo.fresh where
  mQueue := rfl
  pushLock := rfl

variable {q : LogQueue} {f f' : Fifo LogEntry} {answer : FifoAnswer LogEntry} {op : Operation}

theorem call_blocked (hheld : q.popLock = true) (hpush : op.isPush = false) :
    q.call op = .error .blocked := by
  have hlock : q.lockPop = .error .blocked := if_pos hheld
  cases op with
  | push value => cases hpush
  | pushStrings s1 s2 s3 s4 => cases hpush
  | front =>
      rw [LogQueue.call, LogQueue.front, hlock]
      rfl
  | pop =>
      rw [LogQueue.call, LogQueue.pop, hlock]
      rfl
  | empty =>
      rw [LogQueue.call, LogQueue.empty, hlock]
      rfl

theorem Stores.queueFront {x : LogEntry} (h : Stores q f) (hfirst : f.waiting.head? = some x)
    (popLock : Bool) : { q with popLock := popLock }.queueFront = .ok x := by
  obtain ⟨rest, hrest⟩ := List.head?_eq_some_iff.mp hfirst
  simp only [LogQueue.queueFront, h.mQueue, hrest]

/-- A call that is not blocked returns what the queue returns.  Only a `front` leaves `popLock`
held. -/
theorem Stores.call (h : Stores q f) (hfree : q.popLock = true → op.isPush = true)
    (hstep : f.step op.meaning = some (answer, f')) :
    ∃ q', q.call op = .ok (answer, q') ∧ Stores q' f' ∧
      (q'.popLock = true ↔ q.popLock = true ∨ op = .front) := by
  have hlockPop : op.isPush = false → q.lockPop = .ok { q with popLock := true } := by
    intro hother
    refine if_neg fun hheld => ?_
    rw [hfree hheld] at hother
    cases hother
  have hpopLock : op.isPush = false → q.popLock = false := by
    intro hother
    rw [← Bool.not_eq_true]
    intro hheld
    rw [hfree hheld] at hother
    cases hother
  have hlockPush : q.lockPush = .ok { q with pushLock := true } :=
    if_neg (by simp [h.pushLock])
  cases op with
  | front =>
      obtain ⟨x, rfl, rfl, hfirst⟩ := Fifo.step_front hstep
      refine ⟨{ q with popLock := true }, ?_, ⟨h.mQueue, h.pushLock⟩, by simp⟩
      rw [LogQueue.call, LogQueue.front, hlockPop rfl, ok_bind, h.queueFront hfirst]
      rfl
  | pop =>
      obtain ⟨x, rfl, hwaiting⟩ := Fifo.step_pop hstep
      have hfirst : f.waiting.head? = some x := by rw [hwaiting, List.head?_cons]
      refine ⟨{ q with mQueue := q.mQueue.tail, popLock := false }, ?_, ⟨?_, h.pushLock⟩, ?_⟩
      · rw [LogQueue.call, LogQueue.pop, hlockPop rfl, ok_bind, h.queueFront hfirst]
        rfl
      · rw [h.mQueue, hwaiting, List.tail_cons]
      · simp [hpopLock rfl]
  | empty =>
      obtain ⟨rfl, rfl⟩ := Fifo.step_empty hstep
      refine ⟨{ q with popLock := false }, ?_, ⟨h.mQueue, h.pushLock⟩, by simp [hpopLock rfl]⟩
      rw [LogQueue.call, LogQueue.empty, hlockPop rfl, ← h.mQueue]
      rfl
  | push value =>
      obtain ⟨rfl, hwaiting⟩ := Fifo.step_push hstep
      refine ⟨{ q with mQueue := q.mQueue ++ [value], pushLock := false }, ?_, ⟨?_, rfl⟩, by simp⟩
      · rw [LogQueue.call, LogQueue.push, hlockPush]
        rfl
      · rw [hwaiting, ← h.mQueue]
  | pushStrings s1 s2 s3 s4 =>
      obtain ⟨rfl, hwaiting⟩ := Fifo.step_push hstep
      refine ⟨{ q with mQueue := q.mQueue ++ [⟨s1, s2, s3, s4⟩], pushLock := false }, ?_,
        ⟨?_, rfl⟩, by simp⟩
      · rw [LogQueue.call, LogQueue.pushStrings, hlockPush]
        rfl
      · rw [hwaiting, ← h.mQueue]

/-! ## Sequences of calls -/

theorem calls_cons_iff {q' : LogQueue} {ops : List Operation}
    {later : List (FifoAnswer LogEntry)} (hcall : q.call op = .ok (answer, q')) :
    q.calls (op :: ops) = .ok (answer :: later) ↔ q'.calls ops = .ok later := by
  have hcalls : q.calls (op :: ops) = (q'.calls ops).map fun later => answer :: later := by
    simp only [LogQueue.calls, hcall, ok_bind]
    cases q'.calls ops with
    | error stuck => rfl
    | ok later => rfl
  rw [hcalls]
  cases q'.calls ops with
  | error stuck => simp [Except.map]
  | ok later => simp [Except.map]

/-- From a state that stores the items of the queue, the calls return what it returns exactly
if no lock that is held is wanted. -/
theorem Stores.calls_iff {ops : List Operation} {answers : List (FifoAnswer LogEntry)}
    (h : Stores q f) (hanswers : f.answers (ops.map Operation.meaning) = some answers) :
    q.calls ops = .ok answers ↔
      (q.popLock = true → ∀ op ∈ ops, op.isPush = true) ∧ OnlyPushesAfterFront ops := by
  induction ops generalizing q f answers with
  | nil =>
      cases hanswers
      exact iff_of_true rfl ⟨by simp, List.Pairwise.nil⟩
  | cons op ops ih =>
      obtain ⟨⟨answer, f'⟩, hstep, hmap⟩ := Option.bind_eq_some_iff.mp hanswers
      obtain ⟨later, hlater, rfl⟩ := Option.map_eq_some_iff.mp hmap
      by_cases hfree : q.popLock = true → op.isPush = true
      · obtain ⟨q', hcall, hstores, hheld⟩ := h.call hfree hstep
        rw [calls_cons_iff hcall, ih hstores hlater, hheld]
        simp only [OnlyPushesAfterFront, List.pairwise_cons, List.forall_mem_cons]
        constructor
        · rintro ⟨hpush, hrest⟩
          exact ⟨fun hlock => ⟨hfree hlock, hpush (Or.inl hlock)⟩,
            fun later hlater hfront => hpush (Or.inr hfront) later hlater, hrest⟩
        · rintro ⟨hlock, hfront, hrest⟩
          refine ⟨?_, hrest⟩
          rintro (hnow | hop) later hlater
          · exact (hlock hnow).2 later hlater
          · exact hfront later hlater hop
      · -- The call waits for the lock.
        rw [Classical.not_imp, Bool.not_eq_true] at hfree
        refine iff_of_false ?_ ?_
        · rw [LogQueue.calls, call_blocked hfree.1 hfree.2]
          intro hok
          cases hok
        · intro hall
          have hpush := hall.1 hfree.1 op List.mem_cons_self
          rw [hfree.2] at hpush
          cases hpush

/-- A sequence of operations that asks for no item of an empty queue returns what a queue
returns exactly if all that comes after a `front` is pushed. -/
theorem refinesFifo_iff {ops : List Operation} (hdefined : (fifoAnswers ops).isSome) :
    RefinesFifo ops ↔ OnlyPushesAfterFront ops := by
  obtain ⟨answers, hanswers⟩ := Option.isSome_iff_exists.mp hdefined
  have hiff := stores_fresh.calls_iff hanswers
  have hfresh : LogQueue.fresh.popLock = true ↔ False := by simp [LogQueue.fresh]
  rw [hfresh, false_implies, true_and] at hiff
  rw [← hiff]
  constructor
  · intro hrefines
    exact hrefines answers hanswers
  · intro hcalls answers' hanswers'
    rw [hanswers] at hanswers'
    cases hanswers'
    exact hcalls

/-- A record, pushed and popped. -/
theorem refinesFifo_pushPop : RefinesFifo [.push ⟨[], [], [], []⟩, .pop] :=
  (refinesFifo_iff (by decide)).mpr (by decide)

/-- A record is looked at before it is popped. -/
theorem not_refinesFifo_frontPop :
    LogQueue.fresh.calls [.push ⟨[], [], [], []⟩, .front, .pop] = .error .blocked ∧
      ¬ RefinesFifo [.push ⟨[], [], [], []⟩, .front, .pop] := by
  have hcalls : LogQueue.fresh.calls [.push ⟨[], [], [], []⟩, .front, .pop] = .error .blocked :=
    rfl
  refine ⟨hcalls, ?_⟩
  intro hrefines
  have hok := hrefines [.done, .item ⟨[], [], [], []⟩, .item ⟨[], [], [], []⟩] rfl
  rw [hcalls] at hok
  cases hok

end OneThread

end ControlEngine
