import Mathlib.Data.List.Infix
import Mathlib.Data.List.DropRight

/-!
# Text in columns

A line holds cells that are padded to the width of their column, each followed by a
separator, and a text is a sequence of lines, each ended by a mark.  A cell that does not
end in the filler is read back from its column, whatever follows, and lines that do not
contain the mark are read back from the text.
-/

namespace ControlEngine

variable {α : Type*}

/-! ## Cells -/

/-- A cell, filled up to the width of its column. -/
def pad (filler : α) (width : ℕ) (cell : List α) : List α :=
  cell ++ List.replicate (width - cell.length) filler

theorem length_pad (filler : α) {width : ℕ} {cell : List α} (hfits : cell.length ≤ width) :
    (pad filler width cell).length = width := by
  rw [pad, List.length_append, List.length_replicate]
  omega

section Cells

variable [DecidableEq α]

/-- A cell without the filler behind it. -/
def unpad (filler : α) (cell : List α) : List α := cell.rdropWhile (· = filler)

/-- A cell that fits its column and does not end in the filler. -/
structure FitsColumn (filler : α) (width : ℕ) (cell : List α) : Prop where
  length_le : cell.length ≤ width
  last_ne : cell.getLast? ≠ some filler

instance (filler : α) (width : ℕ) (cell : List α) : Decidable (FitsColumn filler width cell) :=
  decidable_of_iff (cell.length ≤ width ∧ cell.getLast? ≠ some filler)
    ⟨fun h => ⟨h.1, h.2⟩, fun h => ⟨h.1, h.2⟩⟩

theorem unpad_pad {filler : α} {width : ℕ} {cell : List α} (h : FitsColumn filler width cell) :
    unpad filler (pad filler width cell) = cell := by
  have hcell : unpad filler cell = cell := by
    rw [unpad, List.rdropWhile_eq_self_iff]
    intro hne
    simpa [List.getLast?_eq_some_getLast hne] using h.last_ne
  have hfilled : ∀ n, unpad filler (cell ++ List.replicate n filler) = cell := by
    intro n
    induction n with
    | zero => rw [List.replicate_zero, List.append_nil, hcell]
    | succ n ih =>
        rw [List.replicate_succ', ← List.append_assoc, unpad,
          List.rdropWhile_concat_pos _ _ _ (by simp), ← unpad, ih]
  exact hfilled _

/-- Read a column: the cell as it stands, and what follows the separator. -/
def readColumn (separator : List α) (width : ℕ) (text : List α) :
    Option (List α × List α) :=
  ((text.drop width).dropPrefix? separator).map fun rest => (text.take width, rest)

theorem readColumn_append (separator : List α) {width : ℕ} {cell : List α}
    (hwidth : cell.length = width) (rest : List α) :
    readColumn separator width (cell ++ (separator ++ rest)) = some (cell, rest) := by
  subst hwidth
  rw [readColumn, List.drop_left, List.take_left,
    List.dropPrefix?_append_of_beq rest (beq_self_eq_true separator), Option.map_some]

end Cells

/-! ## Lines -/

/-- A text of lines. -/
def ofLines (mark : α) (lines : List (List α)) : List α := lines.flatMap (· ++ [mark])

variable [DecidableEq α]

/-- The lines of a text. -/
def toLines (mark : α) (text : List α) : List (List α) := (text.splitOn mark).dropLast

theorem toLines_ofLines {mark : α} {lines : List (List α)} (h : ∀ line ∈ lines, mark ∉ line) :
    toLines mark (ofLines mark lines) = lines := by
  induction lines with
  | nil => rfl
  | cons line lines ih =>
      have hline : ∀ x ∈ line, (x == mark) = false := by
        intro x hx
        apply beq_false_of_ne
        rintro rfl
        exact h line List.mem_cons_self hx
      have hsplit : (ofLines mark (line :: lines)).splitOn mark =
          line :: (ofLines mark lines).splitOn mark := by
        rw [ofLines, List.flatMap_cons, List.append_assoc, List.singleton_append, ← ofLines,
          List.splitOn_eq_splitOnP,
          List.splitOnP_append_cons_of_forall_mem hline mark (beq_self_eq_true mark)]
        rfl
      rw [toLines, hsplit, List.dropLast_cons_of_ne_nil (List.splitOn_ne_nil _ _), ← toLines,
        ih fun line' hline' => h line' (List.mem_cons_of_mem _ hline')]

end ControlEngine
