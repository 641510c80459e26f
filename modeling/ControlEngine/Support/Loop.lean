import Mathlib.Data.Nat.Notation

/-!
# Loops that need not end

The body of a loop maps a state to the next one, or to nothing when the condition of the
loop does not hold.  The loop is run for a number of turns; it ends if some number is
enough.  It does when every turn makes a number smaller, and it does not when some property
of the state keeps it going.
-/

namespace ControlEngine

variable {σ : Type*}

/-- The state in which a loop stops, if it stops within some turns. -/
def whileLoop (body : σ → Option σ) : ℕ → σ → Option σ
  | 0, s => if (body s).isSome then none else some s
  | turns + 1, s =>
      match body s with
      | none => some s
      | some t => whileLoop body turns t

variable {body : σ → Option σ} {s t : σ} {turns : ℕ}

theorem whileLoop_of_stop (hstop : body s = none) : whileLoop body turns s = some s := by
  cases turns with
  | zero => simp [whileLoop, hstop]
  | succ turns => simp [whileLoop, hstop]

theorem whileLoop_succ (hturn : body s = some t) :
    whileLoop body (turns + 1) s = whileLoop body turns t := by
  simp [whileLoop, hturn]

/-- What every turn preserves holds where the loop stops, and the condition does not. -/
theorem whileLoop_invariant {P : σ → Prop} (hstart : P s)
    (hturn : ∀ s t, P s → body s = some t → P t) (hrun : whileLoop body turns s = some t) :
    P t ∧ body t = none := by
  induction turns generalizing s with
  | zero =>
      cases hbody : body s with
      | none =>
          rw [whileLoop_of_stop hbody] at hrun
          cases hrun
          exact ⟨hstart, hbody⟩
      | some next => simp [whileLoop, hbody] at hrun
  | succ turns ih =>
      cases hbody : body s with
      | none =>
          rw [whileLoop_of_stop hbody] at hrun
          cases hrun
          exact ⟨hstart, hbody⟩
      | some next =>
          rw [whileLoop_succ hbody] at hrun
          exact ih (hturn s next hstart hbody) hrun

theorem whileLoop_add (more : ℕ) (hrun : whileLoop body turns s = some t) :
    whileLoop body (turns + more) s = some t := by
  induction turns generalizing s with
  | zero =>
      cases hbody : body s with
      | none =>
          rw [whileLoop_of_stop hbody] at hrun ⊢
          exact hrun
      | some next => simp [whileLoop, hbody] at hrun
  | succ turns ih =>
      cases hbody : body s with
      | none =>
          rw [whileLoop_of_stop hbody] at hrun ⊢
          exact hrun
      | some next =>
          rw [Nat.succ_add, whileLoop_succ hbody]
          rw [whileLoop_succ hbody] at hrun
          exact ih hrun

theorem whileLoop_unique {more : ℕ} {t' : σ} (hrun : whileLoop body turns s = some t)
    (hrun' : whileLoop body more s = some t') : t = t' := by
  have hmore := whileLoop_add more hrun
  have hturns := whileLoop_add turns hrun'
  rw [Nat.add_comm, hmore] at hturns
  exact Option.some.inj hturns

/-- A loop that makes a number smaller ends after as many turns. -/
theorem exists_whileLoop_of_measure (measure : σ → ℕ)
    (hless : ∀ s t, body s = some t → measure t < measure s) {bound : ℕ}
    (hbound : measure s ≤ bound) : ∃ t, whileLoop body bound s = some t := by
  induction bound generalizing s with
  | zero =>
      cases hbody : body s with
      | none => exact ⟨s, whileLoop_of_stop hbody⟩
      | some next =>
          have hnext := hless s next hbody
          omega
  | succ bound ih =>
      cases hbody : body s with
      | none => exact ⟨s, whileLoop_of_stop hbody⟩
      | some next =>
          have hnext := hless s next hbody
          obtain ⟨t, hrun⟩ := ih (s := next) (by omega)
          exact ⟨t, (whileLoop_succ hbody).trans hrun⟩

/-- A loop in which some property keeps the condition, and is kept, never ends. -/
theorem whileLoop_eq_none {P : σ → Prop} (hstart : P s)
    (hgoes : ∀ s, P s → ∃ t, body s = some t ∧ P t) (turns : ℕ) :
    whileLoop body turns s = none := by
  induction turns generalizing s with
  | zero =>
      obtain ⟨next, hbody, _⟩ := hgoes s hstart
      simp [whileLoop, hbody]
  | succ turns ih =>
      obtain ⟨next, hbody, hnext⟩ := hgoes s hstart
      rw [whileLoop_succ hbody]
      exact ih hnext

end ControlEngine
