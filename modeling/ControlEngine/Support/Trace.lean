import ControlEngine.Support.Transition
import Mathlib.Data.List.Induction

/-!
# Observed runs

What matters about a run is often not a property of its states but of what was seen on
the way.  `observed` records it beside the state, and leaves the runs as they are.
`Lawful` is the shape of a law on such records: each entry is allowed by the entries
before it.
-/

namespace ControlEngine

variable {σ α ω : Type*}

/-- A system together with what has been seen of its acts so far. -/
def observed (step : σ → α → Option σ) (observe : σ → α → List ω) (s : σ × List ω) (act : α) :
    Option (σ × List ω) :=
  (step s.1 act).map fun t => (t, s.2 ++ observe s.1 act)

/-- Each entry of a trace is allowed by those before it. -/
def Lawful (allows : List ω → ω → Prop) (trace : List ω) : Prop :=
  ∀ before x, before ++ [x] <+: trace → allows before x

variable {step : σ → α → Option σ} {observe : σ → α → List ω}

theorem observed_cases {s t : σ × List ω} {act : α}
    (h : observed step observe s act = some t) :
    step s.1 act = some t.1 ∧ t.2 = s.2 ++ observe s.1 act := by
  obtain ⟨next, hnext, rfl⟩ := Option.map_eq_some_iff.mp h
  exact ⟨hnext, rfl⟩

theorem lawful_nil (allows : List ω → ω → Prop) : Lawful allows [] := by
  intro before x hprefix
  simp at hprefix

theorem lawful_append_singleton {allows : List ω → ω → Prop} {trace : List ω} {x : ω} :
    Lawful allows (trace ++ [x]) ↔ Lawful allows trace ∧ allows trace x := by
  constructor
  · intro h
    exact ⟨fun before y hy => h before y (hy.trans (List.prefix_append _ _)),
      h trace x (List.prefix_refl _)⟩
  · rintro ⟨htrace, hx⟩ before y hprefix
    rcases List.prefix_concat_iff.mp hprefix with hall | hearlier
    · obtain ⟨rfl, hy⟩ := List.append_inj' hall rfl
      rwa [List.singleton_inj.mp hy]
    · exact htrace before y hearlier

/-- Entries that are allowed anywhere can be added. -/
theorem Lawful.append_of_forall {allows : List ω → ω → Prop} {trace more : List ω}
    (h : Lawful allows trace) (hmore : ∀ x ∈ more, ∀ before, allows before x) :
    Lawful allows (trace ++ more) := by
  induction more using List.reverseRecOn with
  | nil => rwa [List.append_nil]
  | append_singleton more x ih =>
      rw [← List.append_assoc, lawful_append_singleton]
      have hearlier : Lawful allows (trace ++ more) :=
        ih fun y hy => hmore y (List.mem_append_left _ hy)
      exact ⟨hearlier, hmore x (by simp) _⟩

end ControlEngine
