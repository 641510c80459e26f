import Mathlib.Data.List.Basic

/-!
# First in, first out

A queue is all that has ever been pushed, together with the number of items popped.  The
oldest item that is not yet popped is the one with this number.  What an implementation
stores are the items that wait.
-/

namespace ControlEngine

/-- All that has been pushed, and how much of it has been popped. -/
structure Fifo (α : Type*) where
  pushed : List α
  popped : ℕ
  le : popped ≤ pushed.length

/-- The operations of a queue. -/
inductive FifoOp (α : Type*)
  | push (x : α)
  | pop
  | front
  | empty

/-- What they return. -/
inductive FifoAnswer (α : Type*)
  | done
  | item (x : α)
  | test (isEmpty : Bool)
deriving DecidableEq, Repr

namespace Fifo

variable {α : Type*}

/-- Nothing has been pushed. -/
def fresh : Fifo α where
  pushed := []
  popped := 0
  le := Nat.le_refl 0

/-- An operation; there is no oldest item if all have been popped. -/
def step (f : Fifo α) : FifoOp α → Option (FifoAnswer α × Fifo α)
  | .push x => some (.done, ⟨f.pushed ++ [x], f.popped, by
      rw [List.length_append]
      exact Nat.le_add_right_of_le f.le⟩)
  | .pop =>
      if h : f.popped < f.pushed.length then
        some (.item f.pushed[f.popped], ⟨f.pushed, f.popped + 1, h⟩)
      else none
  | .front => if h : f.popped < f.pushed.length then some (.item f.pushed[f.popped], f) else none
  | .empty => some (.test (f.popped == f.pushed.length), f)

/-- What a sequence of operations returns, if no item is asked for where there is none. -/
def answers : Fifo α → List (FifoOp α) → Option (List (FifoAnswer α))
  | _, [] => some []
  | f, op :: ops =>
      (f.step op).bind fun (answer, f') => (f'.answers ops).map fun later => answer :: later

/-- The items that are not yet popped, the oldest first. -/
def waiting (f : Fifo α) : List α := f.pushed.drop f.popped

variable {f f' : Fifo α} {answer : FifoAnswer α}

theorem waiting_eq_cons (h : f.popped < f.pushed.length) :
    f.waiting = f.pushed[f.popped] :: f.pushed.drop (f.popped + 1) :=
  List.drop_eq_getElem_cons h

theorem step_push {x : α} (h : f.step (.push x) = some (answer, f')) :
    answer = .done ∧ f'.waiting = f.waiting ++ [x] := by
  cases h
  exact ⟨rfl, List.drop_append_of_le_length f.le⟩

theorem step_pop (h : f.step .pop = some (answer, f')) :
    ∃ x, answer = .item x ∧ f.waiting = x :: f'.waiting := by
  rw [step] at h
  split at h
  · rename_i hless
    cases h
    exact ⟨_, rfl, waiting_eq_cons hless⟩
  · cases h

theorem step_front (h : f.step .front = some (answer, f')) :
    ∃ x, answer = .item x ∧ f' = f ∧ f.waiting.head? = some x := by
  rw [step] at h
  split at h
  · rename_i hless
    cases h
    refine ⟨_, rfl, rfl, ?_⟩
    rw [waiting_eq_cons hless]
    rfl
  · cases h

theorem step_empty (h : f.step .empty = some (answer, f')) :
    answer = .test f.waiting.isEmpty ∧ f' = f := by
  cases h
  refine ⟨congrArg FifoAnswer.test ?_, rfl⟩
  have hle := f.le
  rw [Bool.eq_iff_iff, beq_iff_eq, waiting, List.isEmpty_iff, List.drop_eq_nil_iff]
  omega

end Fifo

end ControlEngine
