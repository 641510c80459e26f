import ControlEngine.Support.Transition

/-!
# Systems of components

Each component of a system sees a part of the state, or its own picture of it.  If an act of a
component is a step of a system of its own on what it sees, and changes nothing that the others
see, then what each component sees of a run is a run of that system.  The laws of a component on
its own then hold inside the whole, and they may be used to show that its acts are of this kind.
-/

namespace ControlEngine

variable {σ τ κ α : Type*} {step : σ → κ × α → Option σ} {view : σ → κ → τ}
variable {own : τ → α → Option τ} {guard : τ → α → Prop} {s t : σ} {act : κ × α}

/-- A step of a component on what it sees, which changes nothing that the others see. -/
structure LocalStep (own : τ → α → Option τ) (view : σ → κ → τ) (s t : σ) (act : κ × α) : Prop where
  steps : own (view s act.1) act.2 = some (view t act.1)
  others : ∀ i, i ≠ act.1 → view t i = view s i

/-- What holds of every component holds of them after the step, if it holds of the one that has
taken it. -/
theorem LocalStep.forall_view {P : κ → τ → Prop} (h : LocalStep own view s t act)
    (hall : ∀ i, P i (view s i)) (hown : P act.1 (view t act.1)) (i : κ) : P i (view t i) := by
  by_cases hi : i = act.1
  · subst hi
    exact hown
  · rw [h.others i hi]
    exact hall i

/-- If the acts are local as long as every component sees its invariant, then in every run
whose acts the components allow on their own, each of them sees a run of its own. -/
theorem Guarded.components {inv : τ → Prop}
    (hrun : Guarded step (fun s act => guard (view s act.1) act.2) s t)
    (hstart : ∀ i, inv (view s i))
    (hinv : ∀ v a v', inv v → guard v a → own v a = some v' → inv v')
    (hlocal : ∀ s act t, (∀ i, inv (view s i)) → guard (view s act.1) act.2 →
      step s act = some t → LocalStep own view s t act) :
    ∀ i, inv (view t i) ∧ Guarded own guard (view s i) (view t i) := by
  induction hrun with
  | refl => exact fun i => ⟨hstart i, Guarded.refl _⟩
  | tail _ hlast ih =>
      obtain ⟨act, hguard, hstep⟩ := hlast
      have hact := hlocal _ act _ (fun i => (ih i).1) hguard hstep
      obtain ⟨hkept, hown⟩ := ih act.1
      exact hact.forall_view (P := fun i v => inv v ∧ Guarded own guard (view s i) v) ih
        ⟨hinv _ act.2 _ hkept hguard hact.steps, hown.tail hguard hact.steps⟩

end ControlEngine
