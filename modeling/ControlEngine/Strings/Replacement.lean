import ControlEngine.Strings.Escaping
import ControlEngine.Support.Rewriting

/-!
# Replacing a text

`stringReplace` looks for the text from the start again after each replacement, so it also
finds what it has put in itself, alone or with its neighbours.  It keeps the position in an
`int`.
-/

namespace ControlEngine

/-- A position that is kept in an `int` and used as a position again. -/
def throughInt (pos : ℕ) : ℕ := ((BitVec.ofNat 32 pos).signExtend 64).toNat

/-- A turn of the loop of `stringReplace`; an exception leaves the loop. -/
def replaceTurn (s1 s2 : List Byte) :
    Except Thrown (List Byte) → Option (Except Thrown (List Byte))
  | .error _ => none
  | .ok s0 =>
      match firstOccurrence s1 s0 with
      | none => none
      | some s1Loc => some (replaceAt s0 (throughInt s1Loc) s1.length s2)

/-- `stringReplace`, if its loop ends within some turns. -/
def stringReplace (turns : ℕ) (s0 s1 s2 : List Byte) : Option (Except Thrown (List Byte)) :=
  whileLoop (replaceTurn s1 s2) turns (.ok s0)

/-- The loop ends with a string in which the text does not occur. -/
def ReplacedAll (s0 s1 s2 : List Byte) : Prop :=
  ∃ turns result, stringReplace turns s0 s1 s2 = some (.ok result) ∧ ¬ s1 <:+: result

/-- Replacing the occurrences from the left, each one behind what was put in for the last
one, never makes a new occurrence.  The first of the two strings has been passed. -/
inductive SinglePass (s1 s2 : List Byte) : List Byte → List Byte → Prop
  | last {passed rest : List Byte} : ¬ s1 <:+: passed ++ rest → SinglePass s1 s2 passed rest
  | replace {passed skipped rest : List Byte} :
      ¬ s1 <:+: passed ++ skipped ++ s1.dropLast →
      (passed ++ skipped).length < 2 ^ 31 →
      SinglePass s1 s2 (passed ++ skipped ++ s2) rest →
      SinglePass s1 s2 passed (skipped ++ s1 ++ rest)

/-- In the single pass the loop finds the text at a place that begins in what has been passed,
so that it reads again what was put in, or at a position that is no `int`. -/
inductive Rescans (s1 s2 : List Byte) : List Byte → List Byte → Prop
  | here {passed rest : List Byte} {s1Loc : ℕ} :
      firstOccurrence s1 (passed ++ rest) = some s1Loc →
      s1Loc < passed.length ∨ 2 ^ 31 ≤ s1Loc → Rescans s1 s2 passed rest
  | later {passed skipped rest : List Byte} :
      ¬ s1 <:+: passed ++ skipped ++ s1.dropLast →
      (passed ++ skipped).length < 2 ^ 31 →
      Rescans s1 s2 (passed ++ skipped ++ s2) rest →
      Rescans s1 s2 passed (skipped ++ s1 ++ rest)

/-- The strings do not outgrow an `int`, if no more replacements are made than there are
characters. -/
def FitsInt (s0 s1 s2 : List Byte) : Prop :=
  s0.length + s0.length * (s2.length - s1.length) < 2 ^ 31 + s1.length

/-! ## A turn -/

variable {s0 s1 s2 : List Byte}

theorem throughInt_of_lt {pos : ℕ} (h : pos < 2 ^ 31) : throughInt pos = pos := by
  have hmsb : (BitVec.ofNat 32 pos).msb = false := by
    rw [BitVec.msb_eq_false_iff_two_mul_lt, BitVec.toNat_ofNat, Nat.mod_eq_of_lt (by omega)]
    omega
  rw [throughInt, BitVec.signExtend_eq_setWidth_of_msb_false hmsb, BitVec.toNat_setWidth,
    BitVec.toNat_ofNat, Nat.mod_eq_of_lt (by omega), Nat.mod_eq_of_lt (by omega)]

theorem replaceTurn_ok {s1Loc : ℕ} (hfound : firstOccurrence s1 s0 = some s1Loc)
    (hsmall : s1Loc < 2 ^ 31) :
    replaceTurn s1 s2 (.ok s0) =
      some (.ok (s0.take s1Loc ++ s2 ++ s0.drop (s1Loc + s1.length))) := by
  simp only [replaceTurn, hfound, throughInt_of_lt hsmall]
  rw [replaceAt_of_firstOccurrence hfound]

theorem replaceTurn_eq_none (h : ¬ s1 <:+: s0) : replaceTurn s1 s2 (.ok s0) = none := by
  simp only [replaceTurn, firstOccurrence_eq_none_iff.mpr h]

/-! ## Strings for which the loop ends -/

/-- The loop makes as many turns as rewriting can have steps. -/
theorem stringReplace_of_endsWithin {n : ℕ} (hends : EndsWithin (Rewrites s1 s2) n s0)
    (hfits : s0.length + n * (s2.length - s1.length) < 2 ^ 31 + s1.length) :
    ∃ result, stringReplace n s0 s1 s2 = some (.ok result) ∧ ¬ s1 <:+: result := by
  induction n generalizing s0 with
  | zero =>
      have hnone : ¬ s1 <:+: s0 := by
        rintro ⟨x, y, rfl⟩
        exact hends _ ⟨x, y, rfl, rfl⟩
      exact ⟨s0, whileLoop_of_stop (replaceTurn_eq_none hnone), hnone⟩
  | succ n ih =>
      by_cases hoccurs : s1 <:+: s0
      · obtain ⟨s1Loc, hfound⟩ := exists_firstOccurrence hoccurs
        obtain ⟨hsplit, htake⟩ := split_of_firstOccurrence hfound
        have hrewrites : Rewrites s1 s2 s0 (s0.take s1Loc ++ s2 ++ s0.drop (s1Loc + s1.length)) :=
          ⟨_, _, hsplit, rfl⟩
        have hsplitLength := congrArg List.length hsplit
        have hlength := hrewrites.length
        simp only [List.length_append, htake] at hsplitLength
        rw [Nat.succ_mul] at hfits
        obtain ⟨result, hrun, hnone⟩ := ih (hends _ hrewrites) (by omega)
        refine ⟨result, ?_, hnone⟩
        rw [stringReplace, whileLoop_succ (replaceTurn_ok hfound (by omega))]
        exact hrun
      · exact ⟨s0, whileLoop_of_stop (replaceTurn_eq_none hoccurs), hoccurs⟩

instance finite_byte : Finite Byte :=
  Finite.of_injective UInt8.toFin fun _ _ h => UInt8.toFin_inj.mp h

theorem replacedAll_of_progress (hprogress : Progress s1 s2) (hfits : FitsInt s0 s1 s2) :
    ReplacedAll s0 s1 s2 := by
  obtain ⟨n, hends, hn⟩ := hprogress.exists_endsWithin s0
  rw [FitsInt] at hfits
  obtain ⟨result, hrun, hnone⟩ := stringReplace_of_endsWithin hends (by omega)
  exact ⟨n, result, hrun, hnone⟩

/-- Where the single pass makes no new occurrence, the loop is the single pass. -/
theorem SinglePass.replacedAll {passed rest : List Byte} (h : SinglePass s1 s2 passed rest) :
    ReplacedAll (passed ++ rest) s1 s2 := by
  induction h with
  | @last passed rest hnone =>
      exact ⟨0, passed ++ rest, whileLoop_of_stop (replaceTurn_eq_none hnone), hnone⟩
  | @replace passed skipped rest hfirst hsmall _ ih =>
      obtain ⟨turns, result, hrun, hnone⟩ := ih
      have hfound : firstOccurrence s1 (passed ++ (skipped ++ s1 ++ rest)) =
          some (passed ++ skipped).length := by
        rw [← List.append_assoc, ← List.append_assoc]
        exact firstOccurrence_append hfirst
      have hturn : replaceTurn s1 s2 (.ok (passed ++ (skipped ++ s1 ++ rest))) = _ :=
        replaceTurn_ok hfound hsmall
      have htake : (passed ++ (skipped ++ s1 ++ rest)).take (passed ++ skipped).length =
          passed ++ skipped := by
        rw [List.append_assoc skipped, ← List.append_assoc passed, List.take_left]
      have hdrop : (passed ++ (skipped ++ s1 ++ rest)).drop
          ((passed ++ skipped).length + s1.length) = rest := by
        rw [← List.append_assoc, ← List.append_assoc, ← List.length_append, List.drop_left]
      rw [htake, hdrop] at hturn
      refine ⟨turns + 1, result, ?_, hnone⟩
      rw [stringReplace, whileLoop_succ hturn]
      exact hrun

theorem split_behind {passed rest : List Byte} {s1Loc : ℕ} (hne : s1 ≠ [])
    (hfound : firstOccurrence s1 (passed ++ rest) = some s1Loc) (hbehind : passed.length ≤ s1Loc) :
    ∃ skipped later, rest = skipped ++ s1 ++ later ∧ (passed ++ skipped).length = s1Loc ∧
      ¬ s1 <:+: passed ++ skipped ++ s1.dropLast := by
  obtain ⟨hsplit, htake⟩ := split_of_firstOccurrence hfound
  have hfirst := not_infix_of_firstOccurrence hne hfound
  have hpassed : (passed ++ rest).take s1Loc = passed ++ rest.take (s1Loc - passed.length) := by
    rw [List.take_append, List.take_of_length_le hbehind]
  rw [hpassed] at hsplit htake
  have hrest : rest = rest.take (s1Loc - passed.length) ++ s1 ++
      (passed ++ rest).drop (s1Loc + s1.length) := by
    rw [List.append_assoc, List.append_assoc] at hsplit
    rw [List.append_assoc]
    exact List.append_cancel_left hsplit
  refine ⟨_, _, hrest, htake, ?_⟩
  intro hoccurs
  have hpos := List.length_pos_of_ne_nil hne
  have hfront : passed ++ rest.take (s1Loc - passed.length) ++ s1.dropLast <+: passed ++ rest := by
    rw [hsplit, List.append_assoc _ s1, List.prefix_append_right_inj]
    exact (List.dropLast_prefix s1).trans (List.prefix_append _ _)
  have hshort : (passed ++ rest.take (s1Loc - passed.length) ++ s1.dropLast).length ≤
      s1Loc + s1.length - 1 := by
    rw [List.length_append, htake, List.length_dropLast]
    omega
  exact hfirst (hoccurs.trans (List.prefix_take_iff.mpr ⟨hfront, hshort⟩).isInfix)

/-- What is not a single pass reads again what was put in, or reaches a position that is no
`int`. -/
theorem singlePass_or_rescans (hne : s1 ≠ []) (passed rest : List Byte) :
    SinglePass s1 s2 passed rest ∨ Rescans s1 s2 passed rest := by
  induction hlength : rest.length using Nat.strong_induction_on generalizing passed rest with
  | _ n ih =>
      cases hfound : firstOccurrence s1 (passed ++ rest) with
      | none => exact Or.inl (SinglePass.last (firstOccurrence_eq_none_iff.mp hfound))
      | some s1Loc =>
          by_cases hhere : s1Loc < passed.length ∨ 2 ^ 31 ≤ s1Loc
          · exact Or.inr (Rescans.here hfound hhere)
          · rw [not_or, not_lt, not_le] at hhere
            obtain ⟨skipped, later, rfl, hloc, hfirst⟩ := split_behind hne hfound hhere.1
            have hsmall : (passed ++ skipped).length < 2 ^ 31 := hloc ▸ hhere.2
            have hpos := List.length_pos_of_ne_nil hne
            simp only [List.length_append] at hlength
            rcases ih later.length (by omega) (passed ++ skipped ++ s2) later rfl with
              hpass | hrescans
            · exact Or.inl (SinglePass.replace hfirst hsmall hpass)
            · exact Or.inr (Rescans.later hfirst hsmall hrescans)

/-! ## Strings for which it does not -/

/-- A text that is put in again with each replacement is never gone. -/
theorem not_replacedAll (hoccurs : s1 <:+: s0) (hinside : s1 <:+: s2) :
    ¬ ReplacedAll s0 s1 s2 := by
  rintro ⟨turns, result, hrun, hnone⟩
  have hkept : ∀ result', (Except.ok result : Except Thrown (List Byte)) = .ok result' →
      s1 <:+: result' := by
    refine (whileLoop_invariant (P := fun state : Except Thrown (List Byte) =>
      ∀ result', state = .ok result' → s1 <:+: result') ?_ ?_ hrun).1
    · rintro result' hstart
      cases hstart
      exact hoccurs
    · rintro state next - hturn result' rfl
      cases state with
      | error thrown => cases hturn
      | ok s =>
          cases hfound : firstOccurrence s1 s with
          | none =>
              simp only [replaceTurn, hfound] at hturn
              cases hturn
          | some s1Loc =>
              simp only [replaceTurn, hfound, replaceAt] at hturn
              split at hturn
              · cases hturn
              · cases hturn
                exact hinside.trans ⟨_, _, rfl⟩
  exact hnone (hkept result rfl)

/-- The loop ends without the text if the single pass makes no new occurrence, or if
rewriting makes progress; it does not where the text is part of what is put in. -/
theorem replacedAll_of_singlePass_or_progress (s0 s1 s2 : List Byte) :
    (SinglePass s1 s2 [] s0 ∨ (Progress s1 s2 ∧ FitsInt s0 s1 s2) → ReplacedAll s0 s1 s2) ∧
      (s1 <:+: s0 → s1 <:+: s2 → ¬ ReplacedAll s0 s1 s2) := by
  refine ⟨?_, not_replacedAll⟩
  rintro (hpass | ⟨hprogress, hfits⟩)
  · exact hpass.replacedAll
  · exact replacedAll_of_progress hprogress hfits

/-- "ab" by "bba" in "xab" in a single pass, "ab" by "ba" in "aab" by progress, and "a" by "aa"
without an end. -/
theorem replacedAll_of_singlePass_or_progress_ab :
    ReplacedAll [120, 97, 98] [97, 98] [98, 98, 97] ∧ ReplacedAll [97, 97, 98] [97, 98] [98, 97] ∧
      ¬ ReplacedAll [97] [97] [97, 97] := by
  refine ⟨?_, ?_, ?_⟩
  · apply (replacedAll_of_singlePass_or_progress [120, 97, 98] [97, 98] [98, 98, 97]).1
    have hpass : SinglePass [97, 98] [98, 98, 97] [] ([120] ++ [97, 98] ++ []) :=
      .replace (by decide) (by decide) (.last (by decide))
    exact Or.inl hpass
  · apply (replacedAll_of_singlePass_or_progress [97, 97, 98] [97, 98] [98, 97]).1
    have hfits : FitsInt [97, 97, 98] [97, 98] [98, 97] := by simp [FitsInt]
    exact Or.inr ⟨.sameLength rfl (by decide), hfits⟩
  · exact (replacedAll_of_singlePass_or_progress [97] [97] [97, 97]).2 (List.infix_refl _)
      (by decide)

/-- "ab" by "bba" in "aab": each occurrence but the first is made of text that was put in,
and the loop ends all the same. -/
example : stringReplace 3 [97, 97, 98] [97, 98] [98, 98, 97] =
    some (.ok [98, 98, 98, 98, 97, 97]) := by decide

/-- "a", to be replaced by itself. -/
theorem not_replacedAll_itself :
    (∀ turns, stringReplace turns [97] [97] [97] = none) ∧ ¬ ReplacedAll [97] [97] [97] := by
  constructor
  · intro turns
    refine whileLoop_eq_none (P := fun state => state = .ok [97]) rfl ?_ turns
    rintro state rfl
    exact ⟨_, rfl, rfl⟩
  · exact not_replacedAll (List.infix_refl _) (List.infix_refl _)

end ControlEngine
