import Mathlib.Data.List.Basic

/-!
# Slots handed out in order

The slots of a list are handed out by a scan for the first one that is free, which is
marked as taken.  If the taken slots are those below a number, the scan finds the slot of
that number, and afterwards the taken ones are those below the next.
-/

namespace ControlEngine

variable {α : Type*} {taken : α → Bool} {slots : List α} {k : ℕ}

/-- Exactly the first `k` slots are taken. -/
def TakenBelow (taken : α → Bool) (slots : List α) (k : ℕ) : Prop :=
  ∀ i x, slots[i]? = some x → (taken x = true ↔ i < k)

theorem takenBelow_zero (h : ∀ x ∈ slots, taken x = false) : TakenBelow taken slots 0 := by
  intro i x hx
  simp [h x (List.mem_of_getElem? hx)]

theorem TakenBelow.findIdx? (h : TakenBelow taken slots k) (hk : k < slots.length) :
    slots.findIdx? (fun x => !taken x) = some k := by
  rw [List.findIdx?_eq_some_iff_getElem]
  have hget : ∀ i (hi : i < slots.length), taken slots[i] = true ↔ i < k :=
    fun i hi => h i _ (List.getElem?_eq_getElem hi)
  refine ⟨hk, ?_, ?_⟩
  · have hfree := hget k hk
    simpa using hfree
  · intro j hj
    have htaken := (hget j (Nat.lt_trans hj hk)).mpr hj
    simp [htaken]

theorem TakenBelow.findIdx?_eq_none (h : TakenBelow taken slots k) (hk : slots.length ≤ k) :
    slots.findIdx? (fun x => !taken x) = none := by
  rw [List.findIdx?_eq_none_iff]
  intro x hx
  obtain ⟨i, hi, rfl⟩ := List.getElem_of_mem hx
  have htaken := (h i _ (List.getElem?_eq_getElem hi)).mpr (Nat.lt_of_lt_of_le hi hk)
  simp [htaken]

/-- Marking the slot that the scan finds. -/
theorem TakenBelow.modify (h : TakenBelow taken slots k) (mark : α → α)
    (hmark : ∀ x, taken (mark x) = true) :
    TakenBelow taken (slots.modify k mark) (k + 1) := by
  intro i x hx
  rw [List.getElem?_modify] at hx
  obtain ⟨y, hy, rfl⟩ := Option.map_eq_some_iff.mp hx
  have hold := h i y hy
  by_cases hik : k = i
  · simp [hik, hmark]
  · simp only [hik, if_false, hold]
    omega

theorem TakenBelow.modify_of_eq {i : ℕ} (h : TakenBelow taken slots k) (change : α → α)
    (hchange : ∀ x, taken (change x) = taken x) :
    TakenBelow taken (slots.modify i change) k := by
  intro j x hx
  rw [List.getElem?_modify] at hx
  obtain ⟨y, hy, rfl⟩ := Option.map_eq_some_iff.mp hx
  rw [← h j y hy]
  by_cases hij : i = j
  · simp [hij, hchange]
  · simp [hij]

end ControlEngine
