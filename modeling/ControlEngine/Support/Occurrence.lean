import Mathlib.Data.List.Infix

/-!
# The first occurrence of a word

Strings are lists of letters.  `firstOccurrence` is the position at which a word occurs
first; what stands before it, the word, and what stands behind it make up the list, and
the word does not occur any further to the left, not even overlapping itself.
-/

namespace ControlEngine

variable {α : Type*} [DecidableEq α]

/-- The least position at which the word occurs in the list. -/
def firstOccurrence (word list : List α) : Option ℕ :=
  list.tails.findIdx? fun rest => word.isPrefixOf rest

variable {word list : List α} {i : ℕ}

theorem firstOccurrence_eq_none_iff : firstOccurrence word list = none ↔ ¬ word <:+: list := by
  rw [firstOccurrence, List.findIdx?_eq_none_iff, List.infix_iff_prefix_suffix]
  simp only [List.mem_tails, not_exists, not_and]
  constructor
  · intro hnone rest hword hrest
    have hfalse := hnone rest hrest
    rw [List.isPrefixOf_iff_prefix.mpr hword] at hfalse
    cases hfalse
  · intro hnone rest hrest
    rw [Bool.eq_false_iff]
    intro hword
    exact hnone rest (List.isPrefixOf_iff_prefix.mp hword) hrest

theorem exists_firstOccurrence (h : word <:+: list) : ∃ i, firstOccurrence word list = some i := by
  cases hfind : firstOccurrence word list with
  | none => exact absurd h (firstOccurrence_eq_none_iff.mp hfind)
  | some i => exact ⟨i, rfl⟩

theorem firstOccurrence_eq_some_iff :
    firstOccurrence word list = some i ↔
      i ≤ list.length ∧ word <+: list.drop i ∧ ∀ j < i, ¬ word <+: list.drop j := by
  rw [firstOccurrence, List.findIdx?_eq_some_iff_getElem]
  simp only [List.length_tails, List.getElem_tails, List.isPrefixOf_iff_prefix]
  constructor
  · rintro ⟨hi, hword, hleast⟩
    refine ⟨by omega, hword, ?_⟩
    intro j hj hearlier
    exact hleast j hj hearlier
  · rintro ⟨hi, hword, hleast⟩
    exact ⟨by omega, hword, fun j hj => hleast j hj⟩

theorem split_of_firstOccurrence (h : firstOccurrence word list = some i) :
    list = list.take i ++ word ++ list.drop (i + word.length) ∧ (list.take i).length = i := by
  obtain ⟨hi, ⟨rest, hrest⟩, _⟩ := firstOccurrence_eq_some_iff.mp h
  have hbehind : list.drop (i + word.length) = rest := by
    rw [← List.drop_drop, ← hrest, List.drop_left]
  refine ⟨?_, List.length_take_of_le hi⟩
  rw [hbehind, List.append_assoc, hrest, List.take_append_drop]

/-- What stands before the first occurrence, with all of the word but its last letter, does
not contain the word. -/
theorem not_infix_of_firstOccurrence (hne : word ≠ [])
    (h : firstOccurrence word list = some i) : ¬ word <:+: list.take (i + word.length - 1) := by
  obtain ⟨hi, _, hleast⟩ := firstOccurrence_eq_some_iff.mp h
  rintro ⟨earlier, later, hsplit⟩
  have hpos := List.length_pos_of_ne_nil hne
  have hlength := congrArg List.length hsplit
  rw [List.length_append, List.length_append, List.length_take] at hlength
  apply hleast earlier.length (by omega)
  have hlist : list = earlier ++ (word ++ (later ++ list.drop (i + word.length - 1))) := by
    rw [← List.append_assoc word, ← List.append_assoc earlier, ← List.append_assoc earlier, hsplit,
      List.take_append_drop]
  rw [hlist, List.drop_left]
  exact List.prefix_append _ _

/-- Where the list falls apart as it does around the first occurrence. -/
theorem firstOccurrence_append {before behind : List α}
    (hbefore : ¬ word <:+: before ++ word.dropLast) :
    firstOccurrence word (before ++ word ++ behind) = some before.length := by
  rw [firstOccurrence_eq_some_iff]
  refine ⟨by simp, ?_, ?_⟩
  · rw [List.append_assoc, List.drop_left]
    exact List.prefix_append _ _
  · intro j hj hearlier
    -- An earlier occurrence would end before the last letter of this one.
    obtain ⟨rest, hrest⟩ := hearlier
    have hfound : (before ++ word ++ behind).take j ++ word <+: before ++ word ++ behind := by
      refine ⟨rest, ?_⟩
      rw [List.append_assoc, hrest, List.take_append_drop]
    have hshort : before ++ word.dropLast <+: before ++ word ++ behind := by
      rw [List.append_assoc, List.prefix_append_right_inj]
      exact (List.dropLast_prefix word).trans (List.prefix_append _ _)
    have hlength : ((before ++ word ++ behind).take j ++ word).length ≤
        (before ++ word.dropLast).length := by
      simp only [List.length_append, List.length_take, List.length_dropLast]
      omega
    have hinside := List.prefix_of_prefix_length_le hfound hshort hlength
    exact hbefore ((List.suffix_append _ word).isInfix.trans hinside.isInfix)

end ControlEngine
