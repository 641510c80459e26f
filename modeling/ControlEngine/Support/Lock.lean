import ControlEngine.Support.Transition
import Mathlib.Logic.Function.Basic

/-!
# Calls under locks

Any number of threads call operations on shared data.  A call takes the lock of its
operation, accesses the data, and releases the lock, each in a step of its own.  Two calls
under one lock never overlap.  Where calls under different locks conflict, it depends on who
calls what: conflicting calls stay apart in all interleavings exactly if any two threads make
their calls under one lock.
-/

namespace ControlEngine

variable {ι κ δ L : Type*}

/-- The calls that the threads are inside, with whether they have accessed the data, the
owners of the locks, and the data. -/
structure Locked (ι κ L δ : Type*) where
  inside : ι → Option (κ × Bool)
  owner : L → Option ι
  data : δ

/-- The steps of a call. -/
inductive LockAct (ι κ : Type*)
  | acquire (i : ι) (call : κ)
  | access (i : ι)
  | release (i : ι)
deriving DecidableEq, Repr

/-- Nobody is inside a call. -/
def Locked.start (data : δ) : Locked ι κ L δ where
  inside _ := none
  owner _ := none
  data := data

/-- No two threads are inside conflicting calls at the same time. -/
def Locked.Apart (conflicts : κ → κ → Prop) (s : Locked ι κ L δ) : Prop :=
  ∀ i j call call' accessed accessed', i ≠ j → s.inside i = some (call, accessed) →
    s.inside j = some (call', accessed') → ¬ conflicts call call'

/-- Each thread makes only the calls it is given. -/
def LockAct.MadeOf (calls : ι → Set κ) : LockAct ι κ → Prop
  | .acquire i call => call ∈ calls i
  | .access _ | .release _ => True

/-- The locks of the calls that the threads are inside. -/
def locksHeld (lockOf : κ → L) (inside : ι → Option (κ × Bool)) (i : ι) : Option L :=
  (inside i).map fun call => lockOf call.1

/-- The owners of the locks are the threads that hold them. -/
def Matching (owner : L → Option ι) (holds : ι → Option L) : Prop :=
  ∀ lock i, owner lock = some i ↔ holds i = some lock

theorem Matching.eq_of_holds {owner : L → Option ι} {holds : ι → Option L} {i j : ι} {lock : L}
    (h : Matching owner holds) (hi : holds i = some lock) (hj : holds j = some lock) : i = j :=
  Option.some.inj (((h lock i).mpr hi).symm.trans ((h lock j).mpr hj))

/-- The locks belong to the threads that are inside, each in a call of its own. -/
structure Locked.Guards (lockOf : κ → L) (calls : ι → Set κ) (s : Locked ι κ L δ) : Prop where
  matching : Matching s.owner (locksHeld lockOf s.inside)
  made : ∀ i call accessed, s.inside i = some (call, accessed) → call ∈ calls i

theorem Locked.Guards.eq_of_inside {lockOf : κ → L} {calls : ι → Set κ} {s : Locked ι κ L δ}
    {i j : ι} {call call' : κ} {accessed accessed' : Bool} (h : s.Guards lockOf calls)
    (hi : s.inside i = some (call, accessed)) (hj : s.inside j = some (call', accessed'))
    (hlock : lockOf call = lockOf call') : i = j := by
  have hheld : locksHeld lockOf s.inside i = some (lockOf call) := by
    rw [locksHeld, hi]
    rfl
  have hheld' : locksHeld lockOf s.inside j = some (lockOf call) := by
    rw [locksHeld, hj, hlock]
    rfl
  exact h.matching.eq_of_holds hheld hheld'

variable [DecidableEq ι]

theorem locksHeld_update (lockOf : κ → L) (inside : ι → Option (κ × Bool)) (i : ι)
    (call : Option (κ × Bool)) :
    locksHeld lockOf (Function.update inside i call) =
      Function.update (locksHeld lockOf inside) i (call.map fun c => lockOf c.1) := by
  funext j
  by_cases hj : j = i
  · subst hj
    simp [locksHeld]
  · simp [locksHeld, hj]

theorem Locked.Guards.made_update {lockOf : κ → L} {calls : ι → Set κ} {s : Locked ι κ L δ}
    (h : s.Guards lockOf calls) {i : ι} {next : Option (κ × Bool)}
    (hnext : ∀ call accessed, next = some (call, accessed) → call ∈ calls i)
    (j : ι) (call : κ) (accessed : Bool)
    (hj : Function.update s.inside i next j = some (call, accessed)) : call ∈ calls j := by
  by_cases hij : j = i
  · subst hij
    rw [Function.update_self] at hj
    exact hnext call accessed hj
  · rw [Function.update_of_ne hij] at hj
    exact h.made j call accessed hj

variable [DecidableEq L]

/-- One step of a call. -/
def lockStep (lockOf : κ → L) (effect : κ → δ → δ) (s : Locked ι κ L δ) :
    LockAct ι κ → Option (Locked ι κ L δ)
  | .acquire i call =>
      if (s.inside i).isNone ∧ (s.owner (lockOf call)).isNone then
        some { s with
          inside := Function.update s.inside i (some (call, false))
          owner := Function.update s.owner (lockOf call) (some i) }
      else
        none
  | .access i =>
      match s.inside i with
      | some (call, false) =>
          some { s with
            inside := Function.update s.inside i (some (call, true))
            data := effect call s.data }
      | _ => none
  | .release i =>
      match s.inside i with
      | some (call, true) =>
          some { s with
            inside := Function.update s.inside i none
            owner := Function.update s.owner (lockOf call) none }
      | _ => none

variable {lockOf : κ → L} {effect : κ → δ → δ} {s s' : Locked ι κ L δ} {act : LockAct ι κ}

theorem lockStep_cases (h : lockStep lockOf effect s act = some s') :
    (∃ i call, act = .acquire i call ∧ s.inside i = none ∧ s.owner (lockOf call) = none ∧
      s' = { s with
        inside := Function.update s.inside i (some (call, false))
        owner := Function.update s.owner (lockOf call) (some i) }) ∨
    (∃ i call, act = .access i ∧ s.inside i = some (call, false) ∧
      s' = { s with
        inside := Function.update s.inside i (some (call, true))
        data := effect call s.data }) ∨
    (∃ i call, act = .release i ∧ s.inside i = some (call, true) ∧
      s' = { s with
        inside := Function.update s.inside i none
        owner := Function.update s.owner (lockOf call) none }) := by
  cases act with
  | acquire i call =>
      obtain ⟨⟨hinside, howner⟩, hstep⟩ := Option.ite_none_right_eq_some.mp h
      cases hstep
      exact Or.inl ⟨i, call, rfl, Option.isNone_iff_eq_none.mp hinside,
        Option.isNone_iff_eq_none.mp howner, rfl⟩
  | access i =>
      simp only [lockStep] at h
      split at h
      · rename_i call hinside
        cases h
        exact Or.inr (Or.inl ⟨i, call, rfl, hinside, rfl⟩)
      · cases h
  | release i =>
      simp only [lockStep] at h
      split at h
      · rename_i call hinside
        cases h
        exact Or.inr (Or.inr ⟨i, call, rfl, hinside, rfl⟩)
      · cases h

/-- A free lock is taken by a thread that holds none. -/
theorem Matching.take {owner : L → Option ι} {holds : ι → Option L} {i : ι} {lock : L}
    (h : Matching owner holds) (hfree : owner lock = none) (hnone : holds i = none) :
    Matching (Function.update owner lock (some i)) (Function.update holds i (some lock)) := by
  intro lock' j
  have hold := h lock' j
  by_cases hj : j = i
  · subst hj
    by_cases hlock : lock' = lock
    · simp [hlock]
    · rw [hnone] at hold
      simp [hlock, Ne.symm hlock, hold]
  · by_cases hlock : lock' = lock
    · subst hlock
      rw [hfree] at hold
      simp [hj, Ne.symm hj, ← hold]
    · simpa [hj, hlock] using hold

/-- A lock is given back. -/
theorem Matching.giveBack {owner : L → Option ι} {holds : ι → Option L} {i : ι} {lock : L}
    (h : Matching owner holds) (hheld : holds i = some lock) :
    Matching (Function.update owner lock none) (Function.update holds i none) := by
  intro lock' j
  have hold := h lock' j
  by_cases hj : j = i
  · subst hj
    by_cases hlock : lock' = lock
    · simp [hlock]
    · rw [hheld] at hold
      simp [hlock, Ne.symm hlock, hold]
  · by_cases hlock : lock' = lock
    · subst hlock
      have hother : holds j ≠ some lock' := fun hj' => hj (h.eq_of_holds hj' hheld)
      simp [hj, hother]
    · simpa [hj, hlock] using hold

theorem guards_step {calls : ι → Set κ} (h : s.Guards lockOf calls) (hmade : act.MadeOf calls)
    (hstep : lockStep lockOf effect s act = some s') : s'.Guards lockOf calls := by
  rcases lockStep_cases hstep with
    ⟨i, call, rfl, hinside, howner, rfl⟩ | ⟨i, call, -, hinside, rfl⟩ | ⟨i, call, -, hinside, rfl⟩
  · refine ⟨?_, h.made_update ?_⟩
    · rw [locksHeld_update]
      exact h.matching.take howner (by rw [locksHeld, hinside]; rfl)
    · intro call' accessed hcall
      cases hcall
      exact hmade
  · refine ⟨?_, h.made_update ?_⟩
    · have hsame : Function.update (locksHeld lockOf s.inside) i (some (lockOf call)) =
          locksHeld lockOf s.inside := by
        rw [Function.update_eq_self_iff, locksHeld, hinside]
        rfl
      rw [locksHeld_update]
      simpa [hsame] using h.matching
    · intro call' accessed hcall
      cases hcall
      exact h.made i call false hinside
  · refine ⟨?_, h.made_update ?_⟩
    · rw [locksHeld_update]
      exact h.matching.giveBack (by rw [locksHeld, hinside]; rfl)
    · intro call' accessed hcall
      cases hcall

theorem guards_of_guarded {calls : ι → Set κ} {data : δ}
    (hrun : Guarded (lockStep lockOf effect) (fun _ act => act.MadeOf calls) (Locked.start data) s) :
    s.Guards lockOf calls := by
  refine hrun.invariant ?_ fun s act s' h hmade hstep => guards_step h hmade hstep
  refine ⟨?_, ?_⟩
  · intro lock i
    simp [Locked.start, locksHeld]
  · intro i call accessed hinside
    cases hinside

theorem exists_lockStep_acquire {i : ι} {call : κ} (hinside : s.inside i = none)
    (howner : s.owner (lockOf call) = none) (effect : κ → δ → δ) :
    ∃ s', lockStep lockOf effect s (.acquire i call) = some s' ∧
      s'.inside = Function.update s.inside i (some (call, false)) ∧
      s'.owner = Function.update s.owner (lockOf call) (some i) := by
  refine ⟨_, if_pos ⟨?_, ?_⟩, rfl, rfl⟩
  · rw [hinside, Option.isNone_none]
  · rw [howner, Option.isNone_none]

/-- Two threads can be inside calls under different locks at the same time. -/
theorem exists_both_inside {calls : ι → Set κ} {i j : ι} {call call' : κ} (hij : i ≠ j)
    (hi : call ∈ calls i) (hj : call' ∈ calls j) (hlock : lockOf call ≠ lockOf call')
    (effect : κ → δ → δ) (data : δ) :
    ∃ s, Guarded (lockStep lockOf effect) (fun _ act => act.MadeOf calls) (Locked.start data) s ∧
      s.inside i = some (call, false) ∧ s.inside j = some (call', false) := by
  have hnobody : (Locked.start data : Locked ι κ L δ).inside i = none := rfl
  have hnoOwner : (Locked.start data : Locked ι κ L δ).owner (lockOf call) = none := rfl
  obtain ⟨s, hfirst, hinside, howner⟩ := exists_lockStep_acquire hnobody hnoOwner effect
  have hout : s.inside j = none := by
    rw [hinside, Function.update_of_ne hij.symm]
    rfl
  have hfree : s.owner (lockOf call') = none := by
    rw [howner, Function.update_of_ne hlock.symm]
    rfl
  obtain ⟨s', hsecond, hinside', -⟩ := exists_lockStep_acquire hout hfree effect
  refine ⟨s', ?_, ?_, ?_⟩
  · have hrun : Guarded (lockStep lockOf effect) (fun _ act => act.MadeOf calls)
        (Locked.start data) s := Relation.ReflTransGen.single ⟨.acquire i call, hi, hfirst⟩
    exact hrun.trans (Relation.ReflTransGen.single ⟨.acquire j call', hj, hsecond⟩)
  · rw [hinside', Function.update_of_ne hij, hinside, Function.update_self]
  · rw [hinside', Function.update_self]

/-- If calls under different locks conflict, then conflicting calls stay apart in all
interleavings exactly if any two threads make their calls under one lock. -/
theorem apart_iff_sameLock {conflicts : κ → κ → Prop}
    (hacross : ∀ call call', lockOf call ≠ lockOf call' → conflicts call call') (data : δ)
    (calls : ι → Set κ) :
    (∀ s, Guarded (lockStep lockOf effect) (fun _ act => act.MadeOf calls) (Locked.start data) s →
      s.Apart conflicts) ↔
    ∀ i j, i ≠ j → ∀ call ∈ calls i, ∀ call' ∈ calls j, lockOf call = lockOf call' := by
  constructor
  · intro hapart i j hij call hcall call' hcall'
    by_contra hlock
    obtain ⟨s, hrun, hi, hj⟩ := exists_both_inside hij hcall hcall' hlock effect data
    exact hapart s hrun i j call call' false false hij hi hj (hacross call call' hlock)
  · intro hsame s hrun i j call call' accessed accessed' hij hi hj _
    have hguards := guards_of_guarded hrun
    have hcall := hguards.made i call accessed hi
    have hcall' := hguards.made j call' accessed' hj
    exact hij (hguards.eq_of_inside hi hj (hsame i j hij call hcall call' hcall'))

end ControlEngine
