import ControlEngine.Support.Lock
import ControlEngine.Support.ByteOrder

/-!
# The locks of the log queue

`LogQueue` wraps a `std::queue` and guards it with two locks: `pop` and `empty` take
`popLock`, both overloads of `push` take `pushLock`.  Each lock keeps its own operations
apart, but a push and a pop or a test can be at the queue at the same time.  So the
operations exclude each other in all interleavings only where nobody pushes while another
thread may pop or test, and the logger pops while every thread logs.
-/

namespace ControlEngine

/-- A record of the queue, a `std::array` of four strings. -/
structure LogEntry where
  s1 : List Byte
  s2 : List Byte
  s3 : List Byte
  s4 : List Byte
deriving DecidableEq, Repr

/-- The mutexes of `LogQueue`. -/
inductive LogLock
  | popLock
  | pushLock
deriving DecidableEq, Repr

/-- The operations of `LogQueue` that are called, with both overloads of `push`. -/
inductive LogCall
  | pop
  | empty
  | push (value : LogEntry)
  | pushStrings (s1 s2 s3 s4 : List Byte)
deriving DecidableEq, Repr

namespace LogCall

/-- The mutex that an operation locks. -/
def lock : LogCall → LogLock
  | pop | empty => .popLock
  | push _ | pushStrings _ _ _ _ => .pushLock

/-- Whether an operation modifies `mQueue`. -/
def modifies : LogCall → Bool
  | empty => false
  | pop | push _ | pushStrings _ _ _ _ => true

/-- Whether an operation is one of the overloads of `push`, and not a `pop` or a test. -/
def pushes : LogCall → Bool
  | push _ | pushStrings _ _ _ _ => true
  | pop | empty => false

/-- What an operation does to `mQueue`; a `pop` of an empty queue is not defined. -/
def access : LogCall → List LogEntry → List LogEntry
  | pop, mQueue => mQueue.tail
  | empty, mQueue => mQueue
  | push value, mQueue => mQueue ++ [value]
  | pushStrings s1 s2 s3 s4, mQueue => mQueue ++ [⟨s1, s2, s3, s4⟩]

end LogCall

/-- Two operations must not overlap if one of them modifies the queue. -/
def Conflicts (call call' : LogCall) : Prop := call.modifies = true ∨ call'.modifies = true

section

variable {ι : Type*}

/-- No thread pushes to a queue that another thread pops or tests. -/
def PushersApart (calls : ι → Set LogCall) : Prop :=
  ∀ i j, i ≠ j → ∀ call ∈ calls i, ∀ call' ∈ calls j, ¬ (call.pushes = true ∧ call'.pushes = false)

theorem conflicts_of_lock_ne (call call' : LogCall) (h : call.lock ≠ call'.lock) :
    Conflicts call call' := by
  cases call with
  | push => exact Or.inl rfl
  | pushStrings => exact Or.inl rfl
  | pop => exact Or.inl rfl
  | empty =>
      cases call' with
      | push => exact Or.inr rfl
      | pushStrings => exact Or.inr rfl
      | pop => exact absurd rfl h
      | empty => exact absurd rfl h

theorem LogCall.lock_eq_iff (call call' : LogCall) :
    call.lock = call'.lock ↔ call.pushes = call'.pushes := by
  cases call <;> cases call' <;> simp [LogCall.lock, LogCall.pushes]

theorem pushersApart_iff (calls : ι → Set LogCall) :
    PushersApart calls ↔
      ∀ i j, i ≠ j → ∀ call ∈ calls i, ∀ call' ∈ calls j, call.lock = call'.lock := by
  constructor
  · intro hapart i j hij call hcall call' hcall'
    have hnot := hapart i j hij call hcall call' hcall'
    have hnot' := hapart j i hij.symm call' hcall' call hcall
    rw [LogCall.lock_eq_iff]
    cases hpush : call.pushes with
    | true => simpa [hpush] using hnot
    | false => simpa [hpush] using hnot'
  · rintro hsame i j hij call hcall call' hcall' ⟨hpush, hpush'⟩
    have hlock := (LogCall.lock_eq_iff call call').mp (hsame i j hij call hcall call' hcall')
    rw [hpush, hpush'] at hlock
    cases hlock

variable [DecidableEq ι]

/-- The singleton, with threads that call its operations. -/
abbrev LogQueue (ι : Type*) := Locked ι LogCall LogLock (List LogEntry)

/-- A step of an operation: its lock is acquired, `mQueue` is accessed, or the lock is
released. -/
def LogQueue.step : LogQueue ι → LockAct ι LogCall → Option (LogQueue ι) :=
  lockStep LogCall.lock LogCall.access

/-- No two threads are between their acquire and their release at the same time while one of
them modifies the queue. -/
def LogQueue.Exclusive (s : LogQueue ι) : Prop := s.Apart Conflicts

/-- The operations on the log queue exclude each other in all interleavings of the threads
exactly if no thread pushes to the queue while another one pops or tests it. -/
theorem exclusive_iff_pushersApart (calls : ι → Set LogCall) (mQueue : List LogEntry) :
    (∀ s : LogQueue ι, Guarded LogQueue.step (fun _ act => act.MadeOf calls) (Locked.start mQueue) s →
      s.Exclusive) ↔ PushersApart calls := by
  rw [pushersApart_iff]
  exact apart_iff_sameLock conflicts_of_lock_ne mQueue calls

end

/-- A thread logs while the logger pops: both are at the queue. -/
theorem not_exclusive_pushDuringPop :
    ∃ s : LogQueue Bool, Reaches LogQueue.step (Locked.start [⟨[], [], [], []⟩]) s ∧
      ¬ s.Exclusive := by
  obtain ⟨s, hrun, hpush, hpop⟩ : ∃ s : LogQueue Bool,
      runActs LogQueue.step (fun _ _ => True) (Locked.start [⟨[], [], [], []⟩])
          [.acquire true (.pushStrings [] [] [] []), .acquire false .pop] = some s ∧
        s.inside true = some (.pushStrings [] [] [] [], false) ∧
        s.inside false = some (.pop, false) := ⟨_, rfl, by decide, by decide⟩
  refine ⟨s, guarded_of_runActs hrun, ?_⟩
  intro hexclusive
  exact hexclusive true false _ _ _ _ (by decide) hpush hpop (Or.inl rfl)

end ControlEngine
