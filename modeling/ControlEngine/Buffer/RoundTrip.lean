import ControlEngine.Buffer.Traversal

/-!
# Moving a cursor there and back

Three pairs of moves look as if the second took back the first.  Single steps
do it, except that `operator--` does not step back to the origin: it wraps when
the next step would use up the length behind the cursor.  `jumpBackward` does
not, because it moves the pointer forward once more, and neither does `jump`
with the negative amount, because its parameter is unsigned and a negative
amount is a jump forward beyond the end.  All three ways are defined, since a
jump back by what was jumped forward never asks for more than lies behind.
-/

namespace ControlEngine.BufferCursor

/-- The ways to move a cursor by `k` cells and back. -/
inductive Excursion
  | jumps
  | signedJumps
  | steps
deriving DecidableEq, Repr

/-- The cursor after it was moved by `k` cells and back. -/
def Excursion.run (c : BufferCursor) (k : SizeT) : Excursion → Option BufferCursor
  | .jumps => (c.jumpForward k).jumpBackward k
  | .signedJumps => (c.jump k).bind fun c' => c'.jump (-k)
  | .steps => some (operatormm^[k.toNat] (operatorpp^[k.toNat] c))

/-! ## Jumps -/

variable {cap k : SizeT} {c : BufferCursor}

/-- A cursor that agrees with itself, before a move that stays inside. -/
structure Movable (cap k : SizeT) (c : BufferCursor) : Prop where
  offset : (c.backwardLength.toNat : ℤ) = c.ptrBuffer
  total : c.forwardLength.toNat + c.backwardLength.toNat = cap.toNat
  moves : 1 ≤ k
  room : k < c.forwardLength

theorem Movable.jumpForward_eq (h : c.Movable cap k) :
    c.jumpForward k =
      { ptrBuffer := c.ptrBuffer + k.toNat
        forwardLength := c.forwardLength - k
        backwardLength := c.backwardLength + k } := by
  have hroom := h.room
  unfold jumpForward
  rw [if_pos (by bv_omega)]

/-- The jump back adds the amount to the pointer again. -/
theorem Movable.jumps_eq (h : c.Movable cap k) :
    Excursion.jumps.run c k = some { c with ptrBuffer := c.ptrBuffer + 2 * k.toNat } := by
  obtain ⟨hoffset, htotal, hmoves, hroom⟩ := h
  rw [Excursion.run, Movable.jumpForward_eq ⟨hoffset, htotal, hmoves, hroom⟩, jumpBackward]
  rw [if_pos (by simp only; bv_omega)]
  cases c
  simp only [Option.some.injEq, BufferCursor.mk.injEq]
  exact ⟨by omega, by bv_omega, by bv_omega⟩

/-- The negative amount is more than what is left in front of the cursor. -/
theorem Movable.signedJumps_eq (h : c.Movable cap k) :
    Excursion.signedJumps.run c k =
      some
        { ptrBuffer := 0
          forwardLength := c.backwardLength + k
          backwardLength := 0 } := by
  have hmoves := h.moves
  have hroom := h.room
  simp only [Excursion.run, jump_eq_jumpForward, Option.bind_some]
  rw [h.jumpForward_eq, jumpForward, if_neg (by simp only; bv_omega)]
  rfl

/-! ## Single steps -/

/-- A step there and back, away from the origin. -/
theorem operatormm_operatorpp (hroom : 2 ≤ c.forwardLength) (hbehind : c.backwardLength ≠ 0) :
    c.operatorpp.operatormm = c := by
  rw [operatorpp_of_two_le hroom, operatormm, if_pos (by simp only; bv_omega)]
  cases c
  simp only [BufferCursor.mk.injEq]
  exact ⟨by omega, by bv_omega, by bv_omega⟩

/-- A step away from the origin and back leaves a cursor of one cell. -/
theorem operatormm_operatorpp_of_origin (hroom : 2 ≤ c.forwardLength)
    (horigin : c.backwardLength = 0) : c.operatorpp.operatormm = ofCapacity 1 := by
  rw [operatorpp_of_two_le hroom, operatormm, horigin, if_neg (by simp only; decide)]
  rfl

/-- The inner steps of the way there and back cancel, so all depends on the
outermost pair. -/
theorem iterate_operatormm_iterate_operatorpp {i : ℕ} (hi : i + 1 < c.forwardLength.toNat)
    (hbound : c.forwardLength.toNat + c.backwardLength.toNat < 2 ^ 64) :
    operatormm^[i + 1] (operatorpp^[i + 1] c) = c.operatorpp.operatormm := by
  induction i with
  | zero => rfl
  | succ i ih =>
      rw [Function.iterate_succ_apply, Function.iterate_succ_apply' operatorpp,
        operatormm_operatorpp, ih (by omega)]
      · rw [iterate_operatorpp_eq (by omega)]
        simp only
        bv_omega
      · rw [iterate_operatorpp_eq (by omega)]
        simp only
        bv_omega

theorem Movable.steps_eq (h : c.Movable cap k) :
    Excursion.steps.run c k = some c.operatorpp.operatormm := by
  obtain ⟨_, htotal, hmoves, hroom⟩ := h
  obtain ⟨i, hi⟩ := Nat.exists_eq_add_of_le' (BitVec.le_def.mp hmoves)
  have hone : (1 : SizeT).toNat = 1 := rfl
  rw [Excursion.run, hi, hone]
  exact congrArg some
    (iterate_operatormm_iterate_operatorpp (by bv_omega) (by have := cap.isLt; omega))

/-! ## What is restored -/

/-- A move by `k` cells and back restores the cursor exactly when it is made in
single steps and does not come back to the origin. -/
theorem excursion_restores_iff (h : c.Movable cap k) (excursion : Excursion) :
    excursion.run c k = some c ↔ excursion = .steps ∧ c.ptrBuffer ≠ 0 := by
  have hoffset := h.offset
  have hmoves := h.moves
  have hroom := h.room
  cases excursion with
  | jumps =>
      rw [h.jumps_eq, Option.some_inj]
      refine iff_of_false ?_ (by simp)
      intro hback
      have hptr := congrArg ptrBuffer hback
      simp only at hptr
      bv_omega
  | signedJumps =>
      rw [h.signedJumps_eq, Option.some_inj]
      refine iff_of_false ?_ (by simp)
      intro hback
      have hforward := congrArg forwardLength hback
      have hbackward := congrArg backwardLength hback
      simp only at hforward hbackward
      bv_omega
  | steps =>
      rw [h.steps_eq, Option.some_inj]
      by_cases horigin : c.backwardLength = 0
      · rw [operatormm_operatorpp_of_origin (by bv_omega) horigin]
        refine iff_of_false ?_ ?_
        · intro hback
          have hforward := congrArg forwardLength hback
          simp only [ofCapacity] at hforward
          bv_omega
        · rintro ⟨_, haway⟩
          rw [horigin] at hoffset
          exact haway hoffset.symm
      · refine iff_of_true (operatormm_operatorpp (by bv_omega) horigin) ⟨rfl, ?_⟩
        bv_omega

/-- Two steps from the second of five cells and back. -/
theorem excursion_restores_second :
    Excursion.steps.run ⟨1, 4, 1⟩ 2 = some ⟨1, 4, 1⟩ := by
  have hmovable : Movable 5 2 ⟨1, 4, 1⟩ := ⟨by decide, by decide, by decide, by decide⟩
  exact (excursion_restores_iff hmovable .steps).mpr ⟨rfl, by decide⟩

/-- From the first of five cells none of the three ways comes back. -/
theorem not_excursion_restores_first :
    Movable 5 2 (ofCapacity 5) ∧
      ∀ excursion : Excursion, excursion.run (ofCapacity 5) 2 ≠ some (ofCapacity 5) := by
  refine ⟨⟨by decide, by decide, by decide, by decide⟩, ?_⟩
  intro excursion
  cases excursion <;> decide

end ControlEngine.BufferCursor
