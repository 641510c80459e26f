import Mathlib.Data.List.Basic

/-!
# Writing into a block

A block of memory is the list of its cells.  `store` puts a run of cells at an
offset, one after the other, as a copying loop does; what falls behind the end
of the block is not part of it and leaves it unchanged.
-/

namespace ControlEngine

variable {α : Type*}

/-- Put `cells` into `block` one after the other, the first one at `offset`. -/
def store (block : List α) (offset : ℕ) : List α → List α
  | [] => block
  | cell :: cells => store (block.set offset cell) (offset + 1) cells

@[simp] theorem store_nil (block : List α) (offset : ℕ) :
    store block offset [] = block := rfl

@[simp] theorem length_store (block cells : List α) (offset : ℕ) :
    (store block offset cells).length = block.length := by
  induction cells generalizing block offset with
  | nil => rfl
  | cons cell cells ih => rw [store, ih, List.length_set]

/-- A run that fits replaces exactly the cells it covers. -/
theorem store_eq_of_fits {block cells : List α} {offset : ℕ}
    (hfits : offset + cells.length ≤ block.length) :
    store block offset cells =
      block.take offset ++ cells ++ block.drop (offset + cells.length) := by
  induction cells generalizing block offset with
  | nil => simp
  | cons cell cells ih =>
      rw [List.length_cons] at hfits
      have hoffset : offset < block.length := by omega
      rw [store, ih (by rw [List.length_set]; omega)]
      have htake : (block.set offset cell).take (offset + 1) =
          block.take offset ++ [cell] := by
        rw [List.take_succ_eq_append_getElem (by simpa using hoffset)]
        simp [List.take_set_of_le]
      have hdrop : (block.set offset cell).drop (offset + 1 + cells.length) =
          block.drop (offset + (cells.length + 1)) := by
        rw [List.drop_set_of_lt (by omega)]
        congr 1
        omega
      rw [htake, hdrop]
      simp

theorem getElem?_store_of_le {block cells : List α} {offset i : ℕ}
    (hi : offset + cells.length ≤ i) :
    (store block offset cells)[i]? = block[i]? := by
  induction cells generalizing block offset with
  | nil => rfl
  | cons cell cells ih =>
      rw [List.length_cons] at hi
      rw [store, ih (by omega), List.getElem?_set_ne (by omega)]

theorem store_zero_of_length_eq {block cells : List α}
    (hlength : cells.length = block.length) : store block 0 cells = cells := by
  rw [store_eq_of_fits (by omega)]
  simp [hlength]

end ControlEngine
