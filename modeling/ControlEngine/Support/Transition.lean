import Mathlib.Logic.Relation

/-!
# Runs of a labelled transition system

A system is a partial step function: in a state, an act either is impossible or
leads to one next state.  `Guarded` restricts the acts that may be taken in a
state, so that a law which the system only keeps under a condition is a
statement about guarded runs, and the unrestricted system is the case of the
guard that allows everything.
-/

namespace ControlEngine

variable {σ α : Type*}

/-- One act from `s` to `t` that the guard allows. -/
def GuardedStep (step : σ → α → Option σ) (guard : σ → α → Prop) (s t : σ) : Prop :=
  ∃ act, guard s act ∧ step s act = some t

/-- `t` is reached from `s` by acts each of which the guard allows in the state
in which it is taken. -/
def Guarded (step : σ → α → Option σ) (guard : σ → α → Prop) : σ → σ → Prop :=
  Relation.ReflTransGen (GuardedStep step guard)

/-- `t` is reached from `s` by any acts. -/
def Reaches (step : σ → α → Option σ) : σ → σ → Prop :=
  Guarded step fun _ _ => True

/-- Take the acts of a list one after the other, if the guard allows them. -/
def runActs (step : σ → α → Option σ) (guard : σ → α → Prop)
    [∀ s act, Decidable (guard s act)] (s : σ) : List α → Option σ
  | [] => some s
  | act :: acts =>
      if guard s act then (step s act).bind fun t => runActs step guard t acts else none

variable {step : σ → α → Option σ} {guard : σ → α → Prop}

theorem Guarded.refl (s : σ) : Guarded step guard s s :=
  Relation.ReflTransGen.refl

theorem Guarded.tail {s t u : σ} {act : α} (hrun : Guarded step guard s t)
    (hguard : guard t act) (hstep : step t act = some u) :
    Guarded step guard s u :=
  Relation.ReflTransGen.tail hrun ⟨act, hguard, hstep⟩

/-- A property of the start that every allowed act preserves holds of every
state of every guarded run. -/
theorem Guarded.invariant {inv : σ → Prop} {s t : σ}
    (hrun : Guarded step guard s t) (hstart : inv s)
    (hstep : ∀ s act t, inv s → guard s act → step s act = some t → inv t) :
    inv t := by
  induction hrun with
  | refl => exact hstart
  | tail _ hlast ih =>
      obtain ⟨act, hguard, htaken⟩ := hlast
      exact hstep _ act _ ih hguard htaken

theorem Guarded.mono {guard' : σ → α → Prop} {s t : σ}
    (hrun : Guarded step guard s t)
    (hweaker : ∀ s act, guard s act → guard' s act) :
    Guarded step guard' s t := by
  refine Relation.ReflTransGen.mono ?_ s t hrun
  rintro a b ⟨act, hguard, htaken⟩
  exact ⟨act, hweaker a act hguard, htaken⟩

theorem Guarded.reaches {s t : σ} (hrun : Guarded step guard s t) :
    Reaches step s t :=
  hrun.mono fun _ _ _ => trivial

theorem guarded_of_runActs [∀ s act, Decidable (guard s act)] {s t : σ} {acts : List α}
    (hrun : runActs step guard s acts = some t) : Guarded step guard s t := by
  induction acts generalizing s with
  | nil =>
      cases hrun
      exact Guarded.refl _
  | cons act acts ih =>
      obtain ⟨hguard, hrest⟩ := Option.ite_none_right_eq_some.mp hrun
      obtain ⟨middle, hfirst, hlast⟩ := Option.bind_eq_some_iff.mp hrest
      exact Relation.ReflTransGen.head ⟨act, hguard, hfirst⟩ (ih hlast)

theorem guarded_of_forall_mem {P : α → Prop} {s t : σ} {acts : List α}
    (hacts : ∀ act ∈ acts, P act) (hrun : runActs step (fun _ _ => True) s acts = some t) :
    Guarded step (fun _ act => P act) s t := by
  induction acts generalizing s with
  | nil =>
      cases hrun
      exact Guarded.refl _
  | cons act acts ih =>
      obtain ⟨-, hrest⟩ := Option.ite_none_right_eq_some.mp hrun
      obtain ⟨middle, hfirst, hlast⟩ := Option.bind_eq_some_iff.mp hrest
      have htail := ih (fun later hlater => hacts later (List.mem_cons_of_mem _ hlater)) hlast
      exact Relation.ReflTransGen.head ⟨act, hacts act List.mem_cons_self, hfirst⟩ htail

/-! ## Laws that hold exactly under a condition -/

/-- A property of every state on the way. -/
def Along (step : σ → α → Option σ) (P : σ → Prop) : σ → List α → Prop
  | s, [] => P s
  | s, act :: acts => P s ∧ ∀ t, step s act = some t → Along step P t acts

/-- A condition on every act that is taken on the way. -/
def Permitted (step : σ → α → Option σ) (guard : σ → α → Prop) : σ → List α → Prop
  | _, [] => True
  | s, act :: acts => ∀ t, step s act = some t → guard s act ∧ Permitted step guard t acts

theorem Along.head {P : σ → Prop} {s : σ} {acts : List α} (h : Along step P s acts) : P s := by
  cases acts with
  | nil => exact h
  | cons act acts => exact h.1

/-- If the allowed acts keep an invariant that implies the property, and the others break
the property at once, then the property holds all along a run exactly if every act of it is
allowed. -/
theorem along_iff_permitted {P inv : σ → Prop} {s : σ} (acts : List α) (hstart : inv s)
    (hinv : ∀ s, inv s → P s)
    (hkeeps : ∀ s act t, inv s → guard s act → step s act = some t → inv t)
    (hneeds : ∀ s act t, inv s → step s act = some t → P t → guard s act) :
    Along step P s acts ↔ Permitted step guard s acts := by
  induction acts generalizing s with
  | nil => exact iff_of_true (hinv s hstart) trivial
  | cons act acts ih =>
      constructor
      · rintro ⟨-, hrest⟩ t ht
        have hguard := hneeds s act t hstart ht (hrest t ht).head
        exact ⟨hguard, (ih (hkeeps s act t hstart hguard ht)).mp (hrest t ht)⟩
      · intro hall
        refine ⟨hinv s hstart, ?_⟩
        intro t ht
        obtain ⟨hguard, hrest⟩ := hall t ht
        exact (ih (hkeeps s act t hstart hguard ht)).mpr hrest

end ControlEngine
