import ControlEngine.Support.Linearizable
import Mathlib.Data.Nat.Notation
import Mathlib.Data.List.Basic

/-!
# The queue of the write buffer

`_Queue::Queue` wraps a `std::queue`.  `push`, `pop` and `front` take `frontLock`, all three.
`pop` reads the front first and removes it in another step, and returns the copy that it has read
after it has released the lock.  Here these steps are taken one by one, by any number of threads.
Wherever properties of the write buffer take a `push` or a `pop` for one step, they rely on
`linearized_of_reaches`.

`size` is not among the operations here.  It takes no lock, and what it reads of the `std::queue`
is more than one word, so nothing is said about a `size` during a `push` or a `pop`.
-/

namespace ControlEngine

/-- The operations of `Queue` that take its lock. -/
inductive QueueCall (α : Type*)
  | push (x : α)
  | pop
  | front
deriving DecidableEq, Repr

/-- What they return; also the local variable `x`. -/
inductive QueueAnswer (α : Type*)
  | done
  | item (x : α)
deriving DecidableEq, Repr

namespace Queue

variable {α ι : Type*}

/-- `safeQueue.front()`, which is not defined on an empty queue. -/
def readFront (safeQueue : List α) (_ : QueueAnswer α) : Option (QueueAnswer α) :=
  safeQueue.head?.map .item

/-- `safeQueue.pop()`, which is not defined on an empty queue. -/
def removeFront (safeQueue : List α) (x : QueueAnswer α) : Option (List α × QueueAnswer α) :=
  match safeQueue with
  | [] => none
  | _ :: rest => some (rest, x)

/-- The accesses of the operations. -/
def criticalSection : QueueCall α → CriticalSection (List α) (QueueAnswer α)
  | .push x => ⟨.done, [], fun safeQueue answer => some (safeQueue ++ [x], answer)⟩
  | .pop => ⟨.done, [readFront], removeFront⟩
  | .front => ⟨.done, [readFront], fun safeQueue x => some (safeQueue, x)⟩

/-- The queue with the threads that call its operations. -/
abbrev Threads (ι α : Type*) := Monitor ι (QueueCall α) (List α) (QueueAnswer α)

/-- A step of one of the calls. -/
def step [DecidableEq ι] : Threads ι α → MonitorAct ι (QueueCall α) → Option (Threads ι α) :=
  Monitor.step criticalSection

/-- What the calls have pushed. -/
def pushedItems (calls : List (QueueCall α × QueueAnswer α)) : List α :=
  calls.flatMap fun c =>
    match c with
    | (.push x, _) => [x]
    | _ => []

/-- What the calls have popped. -/
def poppedItems (calls : List (QueueCall α × QueueAnswer α)) : List α :=
  calls.flatMap fun c =>
    match c with
    | (.pop, .item x) => [x]
    | _ => []

/-- Taken one after the other, the calls pop what was pushed, in its order. -/
theorem pushedItems_eq {calls : List (QueueCall α × QueueAnswer α)} {safeQueue : List α}
    (h : Replays criticalSection [] calls safeQueue) :
    pushedItems calls = poppedItems calls ++ safeQueue := by
  induction h with
  | nothing => rfl
  | @more log data data' call answer hlog hcall ih =>
      rw [pushedItems, poppedItems, List.flatMap_append, List.flatMap_append, ← pushedItems,
        ← poppedItems, ih]
      cases call with
      | push x =>
          cases hcall
          simp
      | pop =>
          cases data with
          | nil => cases hcall
          | cons x rest =>
              cases hcall
              simp
      | front =>
          cases data with
          | nil => cases hcall
          | cons x rest =>
              cases hcall
              simp

variable [DecidableEq ι]

/-- The queue is linearizable: in every interleaving of the steps of any number of threads, the
calls have taken effect one after the other, each at once and between its beginning and its
return, and have returned what they return there; and so what was popped, and what is still
there behind it, is what was pushed, in the same order. -/
theorem linearized_of_reaches {s : Threads ι α} (hrun : Reaches step (Monitor.start []) s) :
    s.Linearized criticalSection [] ∧
      pushedItems (committed s.history) = poppedItems (committed s.history) ++ s.data := by
  have hlinearized := Monitor.linearizes_of_reaches hrun
  exact ⟨hlinearized, pushedItems_eq hlinearized.replays⟩

/-- One thread pushes, then another one looks at the front while the first one waits to pop. -/
def pushAndPop : List (MonitorAct Bool (QueueCall ℕ)) :=
  [.call true (.push 7), .call false .front, .acquire true, .access true, .release true,
    .acquire false, .access false, .leave true, .call true .pop, .access false, .release false,
    .acquire true, .access true, .access true, .leave false, .release true, .leave true]

theorem linearized_of_reaches_pushAndPop :
    ∃ s : Threads Bool ℕ, Reaches step (Monitor.start []) s ∧
      s.Linearized criticalSection [] ∧
      pushedItems (committed s.history) = poppedItems (committed s.history) ++ s.data ∧
      committed s.history = [(.push 7, .done), (.front, .item 7), (.pop, .item 7)] := by
  obtain ⟨s, hrun, hcommitted⟩ : ∃ s : Threads Bool ℕ,
      runActs step (fun _ _ => True) (Monitor.start []) pushAndPop = some s ∧
      committed s.history = [(.push 7, .done), (.front, .item 7), (.pop, .item 7)] :=
    ⟨_, rfl, by decide⟩
  have hreaches := guarded_of_runActs hrun
  exact ⟨s, hreaches, (linearized_of_reaches hreaches).1, (linearized_of_reaches hreaches).2,
    hcommitted⟩

end Queue

end ControlEngine
