import ControlEngine.Support.Trace

/-!
# Bounded response

Some of the acts of a system are watched.  If a potential falls with each of them and rises with
no other act, then it is used up after as many of them as it was high, wherever the other acts
come in between.
-/

namespace ControlEngine

variable {σ α ω : Type*} {step : σ → α → Option σ} {observe : σ → α → List ω}
variable {guard : σ → α → Prop} {s t : σ} {trace : List ω}

/-- A run, and what was watched of it. -/
def Watched (step : σ → α → Option σ) (observe : σ → α → List ω) (guard : σ → α → Prop)
    (s t : σ) (trace : List ω) : Prop :=
  Guarded (observed step observe) (fun s act => guard s.1 act) (s, []) (t, trace)

theorem Watched.guarded (h : Watched step observe guard s t trace) : Guarded step guard s t := by
  have hboth : ∀ {p q : σ × List ω}, Guarded (observed step observe)
      (fun s act => guard s.1 act) p q → Guarded step guard p.1 q.1 := by
    intro p q hrun
    induction hrun with
    | refl => exact Guarded.refl _
    | tail _ hlast ih =>
        obtain ⟨act, hguard, hstep⟩ := hlast
        exact ih.tail hguard (observed_cases hstep).1
  exact hboth h

theorem Watched.tail {u : σ} {act : α} (h : Watched step observe guard s t trace)
    (hguard : guard t act) (hstep : step t act = some u) :
    Watched step observe guard s u (trace ++ observe t act) := by
  apply Guarded.tail h hguard
  rw [observed, hstep]
  rfl

/-- What was watched has used up the potential. -/
theorem Watched.potential_le {inv : σ → Prop} {potential : σ → ℕ}
    (h : Watched step observe guard s t trace) (hstart : inv s)
    (hstep : ∀ s act t, inv s → guard s act → step s act = some t →
      inv t ∧ potential t ≤ potential s - (observe s act).length) :
    inv t ∧ potential t ≤ potential s - trace.length := by
  let used : σ × List ω → Prop := fun p => inv p.1 ∧ potential p.1 ≤ potential s - p.2.length
  have hused : used (t, trace) := by
    apply Guarded.invariant h
    · exact ⟨hstart, Nat.le_refl _⟩
    · rintro p act q ⟨hinv, hpotential⟩ hguard hobserved
      obtain ⟨htaken, htrace⟩ := observed_cases hobserved
      obtain ⟨hkept, hfalls⟩ := hstep p.1 act q.1 hinv hguard htaken
      refine ⟨hkept, Nat.le_trans hfalls ?_⟩
      rw [htrace, List.length_append, ← Nat.sub_sub]
      exact Nat.sub_le_sub_right hpotential _
  exact hused

/-- If the potential pays for all that is watched, no more is watched than it was high. -/
theorem Watched.length_le {potential : σ → ℕ} (h : Watched step observe guard s t trace)
    (hstep : ∀ s act t, guard s act → step s act = some t →
      potential t + (observe s act).length ≤ potential s) :
    trace.length ≤ potential s := by
  let paid : σ × List ω → Prop := fun p => potential p.1 + p.2.length ≤ potential s
  have hpaid : paid (t, trace) := by
    apply Guarded.invariant h
    · exact Nat.le_refl _
    · intro p act q hpotential hguard hobserved
      obtain ⟨htaken, htrace⟩ := observed_cases hobserved
      have hfalls := hstep p.1 act q.1 hguard htaken
      simp only [paid] at hpotential ⊢
      rw [htrace, List.length_append]
      omega
  exact Nat.le_trans (Nat.le_add_left _ _) hpaid

end ControlEngine
