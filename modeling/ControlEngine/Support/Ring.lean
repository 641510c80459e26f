import Mathlib.Data.List.Induction
import Mathlib.Data.Nat.ModEq
import Mathlib.Order.Bounds.Basic

/-!
# Writing round a block

`ringStore` writes a run of cells round the first `cap` cells of a block: the
write with number `k` goes to offset `k % cap`, whatever was there before.  A
later write to an offset hides the earlier ones, so in the end an offset holds
the cell of the last write that is congruent to it.
-/

namespace ControlEngine

variable {α : Type*}

/-- Write `cells` round the first `cap` cells of `block`; the first of them is
the write with number `start`. -/
def ringStore (cap : ℕ) (block : List α) (start : ℕ) : List α → List α
  | [] => block
  | cell :: cells => ringStore cap (block.set (start % cap) cell) (start + 1) cells

@[simp] theorem ringStore_nil (cap : ℕ) (block : List α) (start : ℕ) :
    ringStore cap block start [] = block := rfl

theorem ringStore_append (cap : ℕ) (block : List α) (start : ℕ) (first second : List α) :
    ringStore cap block start (first ++ second) =
      ringStore cap (ringStore cap block start first) (start + first.length) second := by
  induction first generalizing block start with
  | nil => rfl
  | cons cell first ih =>
      rw [List.cons_append, ringStore, ih, ringStore, List.length_cons]
      congr 1
      omega

/-- The last write of a run comes on top of the writes before it. -/
theorem ringStore_append_singleton (cap : ℕ) (block : List α) (start : ℕ) (cells : List α)
    (cell : α) :
    ringStore cap block start (cells ++ [cell]) =
      (ringStore cap block start cells).set ((start + cells.length) % cap) cell := by
  rw [ringStore_append]
  rfl

@[simp] theorem length_ringStore (cap : ℕ) (block : List α) (start : ℕ) (cells : List α) :
    (ringStore cap block start cells).length = block.length := by
  induction cells generalizing block start with
  | nil => rfl
  | cons cell cells ih => rw [ringStore, ih, List.length_set]

theorem getElem?_ringStore_of_le {cap : ℕ} (hcap : 0 < cap) (block : List α) (start : ℕ)
    (cells : List α) {j : ℕ} (hj : cap ≤ j) :
    (ringStore cap block start cells)[j]? = block[j]? := by
  induction cells generalizing block start with
  | nil => rfl
  | cons cell cells ih =>
      have hbelow : start % cap < cap := Nat.mod_lt _ hcap
      rw [ringStore, ih, List.getElem?_set_ne (by omega)]

/-- Counting on round a ring: one more, or back to zero. -/
theorem succ_mod_eq_ite {cap : ℕ} (hcap : 0 < cap) (n : ℕ) :
    (n + 1) % cap = if n % cap + 1 = cap then 0 else n % cap + 1 := by
  have hbelow : n % cap < cap := Nat.mod_lt _ hcap
  rw [← Nat.mod_add_mod]
  by_cases hlast : n % cap + 1 = cap
  · rw [if_pos hlast, hlast, Nat.mod_self]
  · rw [if_neg hlast, Nat.mod_eq_of_lt (by omega)]

/-- The numbers of the writes, among the first `count`, that go to offset `j`. -/
def writesTo (cap count j : ℕ) : Set ℕ := {k | k < count ∧ k ≡ j [MOD cap]}

theorem mem_writesTo {cap count j k : ℕ} (hj : j < cap) :
    k ∈ writesTo cap count j ↔ k < count ∧ k % cap = j := by
  simp only [writesTo, Set.mem_ofPred_eq, Nat.ModEq, Nat.mod_eq_of_lt hj]

theorem getElem?_ringStore_of_forall_not_mem {cap : ℕ} (block cells : List α) {j : ℕ}
    (hj : j < cap) (hnone : ∀ k, k ∉ writesTo cap cells.length j) :
    (ringStore cap block 0 cells)[j]? = block[j]? := by
  induction cells using List.reverseRecOn with
  | nil => rfl
  | append_singleton cells cell ih =>
      have hlast : (0 + cells.length) % cap ≠ j := by
        intro hmod
        apply hnone cells.length
        rw [mem_writesTo hj, List.length_append]
        rw [zero_add] at hmod
        exact ⟨by simp, hmod⟩
      rw [ringStore_append_singleton, List.getElem?_set_ne hlast]
      apply ih
      intro k hk
      apply hnone k
      rw [mem_writesTo hj] at hk ⊢
      rw [List.length_append]
      exact ⟨by omega, hk.2⟩

/-- An offset holds the cell of the last write that went to it. -/
theorem getElem?_ringStore_of_isGreatest {cap : ℕ} {block cells : List α} {j k : ℕ}
    (hj : j < cap) (hfits : cap ≤ block.length)
    (hk : IsGreatest (writesTo cap cells.length j) k) :
    (ringStore cap block 0 cells)[j]? = cells[k]? := by
  induction cells using List.reverseRecOn with
  | nil => exact absurd hk.1.1 (Nat.not_lt_zero k)
  | append_singleton cells cell ih =>
      obtain ⟨hmem, hupper⟩ := hk
      rw [mem_writesTo hj, List.length_append, List.length_singleton] at hmem
      rw [ringStore_append_singleton, zero_add]
      by_cases hlast : cells.length % cap = j
      · -- The last write goes to `j`, so it is the greatest one.
        have hle : cells.length ≤ k := by
          apply hupper
          rw [mem_writesTo hj, List.length_append, List.length_singleton]
          exact ⟨by omega, hlast⟩
        have hk : k = cells.length := by omega
        subst hk
        rw [hlast, List.getElem?_set_self (by rw [length_ringStore]; omega)]
        simp
      · have hlt : k < cells.length := by
          rcases Nat.lt_succ_iff_lt_or_eq.mp hmem.1 with hlt | heq
          · exact hlt
          · rw [heq] at hmem
            exact absurd hmem.2 hlast
        rw [List.getElem?_set_ne hlast, List.getElem?_append_left hlt]
        apply ih
        refine ⟨(mem_writesTo hj).mpr ⟨hlt, hmem.2⟩, ?_⟩
        intro i hi
        apply hupper
        rw [mem_writesTo hj] at hi ⊢
        rw [List.length_append]
        exact ⟨by omega, hi.2⟩

end ControlEngine
