import Mathlib.Data.List.Infix
import Mathlib.Data.Set.Basic

/-!
# Codes that mark their own end

A code is self-delimiting on a set of values if a reader who knows where a code
word begins also knows its value, whatever follows it.  Concatenations of such
words can be read in one way only: the words of the shorter of two
concatenations, one of which begins the other, are the first words of the longer
one.
-/

namespace ControlEngine

variable {α β : Type*}

/-- No word of the code is empty, and a stream begins with the word of at most one
value. -/
structure SelfDelimiting (encode : α → List β) (values : Set α) : Prop where
  nonempty : ∀ a ∈ values, encode a ≠ []
  first : ∀ a ∈ values, ∀ b ∈ values, ∀ rest rest',
    encode a ++ rest = encode b ++ rest' → a = b

variable {encode : α → List β} {values : Set α} {as bs : List α}

/-- If one concatenation begins another, its values are the first of the other's. -/
theorem SelfDelimiting.prefix_of_prefix (h : SelfDelimiting encode values)
    (has : ∀ a ∈ as, a ∈ values) (hbs : ∀ b ∈ bs, b ∈ values)
    (hbegins : as.flatMap encode <+: bs.flatMap encode) : as <+: bs := by
  induction as generalizing bs with
  | nil => exact List.nil_prefix
  | cons a as ih =>
      have ha := has a List.mem_cons_self
      obtain ⟨rest, hrest⟩ := hbegins
      rw [List.flatMap_cons, List.append_assoc] at hrest
      cases bs with
      | nil =>
          have hempty := List.append_eq_nil_iff.mp hrest
          exact absurd hempty.1 (h.nonempty a ha)
      | cons b bs =>
          rw [List.flatMap_cons] at hrest
          obtain rfl := h.first a ha b (hbs b List.mem_cons_self) _ _ hrest
          rw [List.cons_prefix_cons]
          refine ⟨rfl, ih ?_ ?_ ⟨rest, List.append_cancel_left hrest⟩⟩
          · intro a' ha'
            exact has a' (List.mem_cons_of_mem _ ha')
          · intro b' hb'
            exact hbs b' (List.mem_cons_of_mem _ hb')

theorem SelfDelimiting.eq_of_eq (h : SelfDelimiting encode values)
    (has : ∀ a ∈ as, a ∈ values) (hbs : ∀ b ∈ bs, b ∈ values)
    (heq : as.flatMap encode = bs.flatMap encode) : as = bs := by
  have hforward := h.prefix_of_prefix has hbs (heq ▸ List.prefix_rfl)
  have hbackward := h.prefix_of_prefix hbs has (heq ▸ List.prefix_rfl)
  exact hforward.eq_of_length_le hbackward.length_le

end ControlEngine
