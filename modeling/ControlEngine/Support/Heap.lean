import ControlEngine.Support.Block
import Mathlib.Logic.Function.Basic

/-!
# A heap of blocks

Blocks are numbered in the order in which they are allocated, and a number is never used
again.  A pointer is the number of a block or null.  An operation on one block leaves the
others as they are.
-/

namespace ControlEngine

/-- The cells of the blocks in use, and the number of the next block. -/
structure Heap (α : Type*) where
  cells : ℕ → Option (List α)
  next : ℕ
  unused : ∀ n, next ≤ n → cells n = none

namespace Heap

variable {α : Type*}

/-- No block is in use. -/
def empty : Heap α where
  cells _ := none
  next := 0
  unused _ _ := rfl

/-- The heap with a new block, which has the number `next`. -/
def alloc (h : Heap α) (block : List α) : Heap α where
  cells := Function.update h.cells h.next (some block)
  next := h.next + 1
  unused n hn := by
    rw [Function.update_of_ne (by omega)]
    exact h.unused n (by omega)

/-- The heap without a block. -/
def free (h : Heap α) (n : ℕ) : Heap α where
  cells := Function.update h.cells n none
  next := h.next
  unused m hm := by
    by_cases hmn : m = n
    · rw [hmn, Function.update_self]
    · rw [Function.update_of_ne hmn]
      exact h.unused m hm

/-- The heap with other cells in a block. -/
def modify (h : Heap α) (n : ℕ) (f : List α → List α) : Heap α where
  cells := Function.update h.cells n ((h.cells n).map f)
  next := h.next
  unused m hm := by
    by_cases hmn : m = n
    · rw [hmn, Function.update_self, h.unused n (hmn ▸ hm), Option.map_none]
    · rw [Function.update_of_ne hmn]
      exact h.unused m hm

/-- The cells that a pointer points to, of which null has none. -/
def block (h : Heap α) (ptr : Option ℕ) : List α := (ptr.bind h.cells).getD []

/-- `memcpy`, which is not defined for cells outside a block, nor within one block. -/
def memcpy (h : Heap α) (dest source : Option ℕ) (count : ℕ) : Option (Heap α) :=
  if count = 0 then some h
  else
    match dest with
    | none => none
    | some d =>
        if dest ≠ source ∧ count ≤ (h.block dest).length ∧ count ≤ (h.block source).length then
          some (h.modify d fun cells => store cells 0 ((h.block source).take count))
        else none

variable {h h' : Heap α} {n m : ℕ}

theorem cells_alloc_self (h : Heap α) (block : List α) :
    (h.alloc block).cells h.next = some block :=
  Function.update_self _ _ _

theorem cells_alloc_of_isSome (block : List α) (hn : (h.cells n).isSome) :
    (h.alloc block).cells n = h.cells n := by
  refine Function.update_of_ne ?_ _ _
  rintro rfl
  rw [h.unused h.next (Nat.le_refl _)] at hn
  cases hn

theorem cells_free_of_ne (h : Heap α) (hne : m ≠ n) : (h.free n).cells m = h.cells m :=
  Function.update_of_ne hne _ _

theorem cells_modify_self (h : Heap α) (n : ℕ) (f : List α → List α) :
    (h.modify n f).cells n = (h.cells n).map f :=
  Function.update_self _ _ _

theorem cells_modify_of_ne (h : Heap α) (f : List α → List α) (hne : m ≠ n) :
    (h.modify n f).cells m = h.cells m :=
  Function.update_of_ne hne _ _

theorem isSome_modify (h : Heap α) (n m : ℕ) (f : List α → List α) :
    ((h.modify n f).cells m).isSome = (h.cells m).isSome := by
  by_cases hne : m = n
  · rw [hne, cells_modify_self, Option.isSome_map]
  · rw [cells_modify_of_ne h f hne]

theorem block_modify_self {cells : List α} {f : List α → List α} (hn : h.cells n = some cells) :
    (h.modify n f).block (some n) = f (h.block (some n)) := by
  simp only [block, Option.bind_some, cells_modify_self, hn, Option.map_some, Option.getD_some]

/-- What is not at a block does not see that it changes. -/
theorem block_eq_of_cells {ptr : Option ℕ} (heq : ∀ n, ptr = some n → h'.cells n = h.cells n) :
    h'.block ptr = h.block ptr := by
  cases ptr with
  | none => rfl
  | some n => rw [block, block, Option.bind_some, Option.bind_some, heq n rfl]

theorem length_block_modify (f : List α → List α)
    (hlength : ∀ cells, (f cells).length = cells.length) (ptr : Option ℕ) :
    ((h.modify n f).block ptr).length = (h.block ptr).length := by
  cases ptr with
  | none => rfl
  | some m =>
      by_cases hne : m = n
      · subst hne
        simp only [block, Option.bind_some, cells_modify_self]
        cases h.cells m with
        | none => rfl
        | some cells => exact hlength cells
      · rw [block_eq_of_cells]
        rintro _ ⟨⟩
        exact cells_modify_of_ne h f hne

theorem memcpy_cases {dest source : Option ℕ} {count : ℕ}
    (hcopy : h.memcpy dest source count = some h') :
    h' = h ∧ count = 0 ∨
      ∃ d, dest = some d ∧ dest ≠ source ∧ count ≤ (h.block dest).length ∧
        count ≤ (h.block source).length ∧
        h' = h.modify d fun cells => store cells 0 ((h.block source).take count) := by
  unfold memcpy at hcopy
  split at hcopy
  · rename_i hzero
    cases hcopy
    exact Or.inl ⟨rfl, hzero⟩
  · cases dest with
    | none => cases hcopy
    | some d =>
        obtain ⟨⟨hne, hdest, hsource⟩, hok⟩ := Option.ite_none_right_eq_some.mp hcopy
        cases hok
        exact Or.inr ⟨d, rfl, hne, hdest, hsource, rfl⟩

theorem exists_memcpy {dest source : Option ℕ} {count : ℕ}
    (hne : ∀ d, dest = some d → source ≠ some d) (hdest : count ≤ (h.block dest).length)
    (hsource : count ≤ (h.block source).length) : ∃ h', h.memcpy dest source count = some h' := by
  by_cases hzero : count = 0
  · exact ⟨h, if_pos hzero⟩
  · cases dest with
    | none =>
        have hnone : (h.block none).length = 0 := rfl
        omega
    | some d =>
        refine ⟨h.modify d fun cells => store cells 0 ((h.block source).take count), ?_⟩
        rw [memcpy, if_neg hzero]
        exact if_pos ⟨(hne d rfl).symm, hdest, hsource⟩

theorem isSome_memcpy_iff {dest source : Option ℕ} {count : ℕ} :
    (h.memcpy dest source count).isSome ↔
      count = 0 ∨ dest ≠ source ∧ count ≤ (h.block dest).length ∧
        count ≤ (h.block source).length := by
  constructor
  · intro hcopy
    obtain ⟨h', hcopy⟩ := Option.isSome_iff_exists.mp hcopy
    rcases memcpy_cases hcopy with ⟨-, hzero⟩ | ⟨d, -, hne, hdest, hsource, -⟩
    · exact Or.inl hzero
    · exact Or.inr ⟨hne, hdest, hsource⟩
  · rintro (rfl | ⟨hne, hdest, hsource⟩)
    · rfl
    · obtain ⟨h', hcopy⟩ := exists_memcpy (fun d hd hd' => hne (hd.trans hd'.symm)) hdest hsource
      rw [hcopy, Option.isSome_some]

theorem take_block_memcpy {dest source : Option ℕ} {count : ℕ}
    (hcopy : h.memcpy dest source count = some h')
    (hlive : ∀ d, dest = some d → (h.cells d).isSome) :
    (h'.block dest).take count = (h.block source).take count ∧
      h'.block source = h.block source := by
  rcases memcpy_cases hcopy with ⟨rfl, rfl⟩ | ⟨d, rfl, hne, hdest, hsource, rfl⟩
  · exact ⟨by rw [List.take_zero, List.take_zero], rfl⟩
  · obtain ⟨cells, hcells⟩ := Option.isSome_iff_exists.mp (hlive d rfl)
    constructor
    · have hlength : ((h.block source).take count).length = count := List.length_take_of_le hsource
      rw [block_modify_self hcells, store_eq_of_fits (by omega), List.take_zero, List.nil_append,
        List.take_append_of_le_length (by omega), List.take_take, Nat.min_self]
    · apply block_eq_of_cells
      rintro s rfl
      apply cells_modify_of_ne
      rintro rfl
      exact hne rfl

end Heap

end ControlEngine
