import ControlEngine.Buffer.Ring
import Mathlib.Logic.Function.Iterate

/-!
# Reading round a buffer

`operator++` goes back to the origin one cell too early: it wraps when the next
step would use up the length in front of the cursor, and there the length behind
it is one less than the capacity.  `wrapBuffer` makes that the new forward
length, so each lap leaves a cursor for one cell fewer.  The first lap is still
right; the second one ends before the last cell.
-/

namespace ControlEngine.BufferCursor

/-- `getCurrentPosition`. -/
def getCurrentPosition (c : BufferCursor) : ℤ := c.ptrBuffer

/-- The positions read by a loop that reads the current one and then does `c++`,
`m` times. -/
def positionsRead (c : BufferCursor) : ℕ → List ℤ
  | 0 => []
  | m + 1 => c.getCurrentPosition :: c.operatorpp.positionsRead m

/-- The cell at a position, if it belongs to the block. -/
def peek (block : List Byte) (position : ℤ) : Option Byte :=
  if position < 0 then none else block[position.toNat]?

/-- The loop of `m` steps reads the `cap` cells in order and round again, and it
leaves the cursor where the next reading belongs. -/
def GoesRound (cap m : ℕ) (c : BufferCursor) : Prop :=
  c.positionsRead m = (List.range m).map (fun i => ((i % cap : ℕ) : ℤ)) ∧
    (operatorpp^[m] c).getCurrentPosition = (m % cap : ℕ)

/-! ## One lap -/

variable {cap : SizeT}

theorem positionsRead_eq (c : BufferCursor) (m : ℕ) :
    c.positionsRead m = (List.range m).map fun i => (operatorpp^[i] c).getCurrentPosition := by
  induction m generalizing c with
  | zero => rfl
  | succ m ih =>
      rw [positionsRead, ih, List.range_succ_eq_map, List.map_cons, List.map_map]
      rfl

/-- What the loop needs, step by step. -/
theorem goesRound_iff {cells m : ℕ} {c : BufferCursor} :
    c.GoesRound cells m ↔
      ∀ i ≤ m, (operatorpp^[i] c).getCurrentPosition = (i % cells : ℕ) := by
  rw [GoesRound, positionsRead_eq, List.map_inj_left]
  constructor
  · rintro ⟨hread, hlast⟩ i hi
    rcases Nat.lt_or_eq_of_le hi with hlt | rfl
    · exact hread i (List.mem_range.mpr hlt)
    · exact hlast
  · intro hall
    exact ⟨fun i hi => hall i (List.mem_range.mp hi).le, hall m le_rfl⟩

theorem operatorpp_of_two_le {c : BufferCursor} (hroom : 2 ≤ c.forwardLength) :
    c.operatorpp =
      { ptrBuffer := c.ptrBuffer + 1
        forwardLength := c.forwardLength - 1
        backwardLength := c.backwardLength + 1 } := by
  unfold operatorpp
  rw [if_pos (by bv_omega)]

theorem iterate_operatorpp_eq {c : BufferCursor} {i : ℕ} (hi : i < c.forwardLength.toNat) :
    operatorpp^[i] c =
      { ptrBuffer := c.ptrBuffer + i
        forwardLength := c.forwardLength - BitVec.ofNat 64 i
        backwardLength := c.backwardLength + BitVec.ofNat 64 i } := by
  induction i with
  | zero => simp
  | succ i ih =>
      rw [Function.iterate_succ_apply', ih (by omega), operatorpp_of_two_le]
      · simp only [BufferCursor.mk.injEq, Nat.cast_add, Nat.cast_one]
        exact ⟨by omega, by bv_omega, by bv_omega⟩
      · simp only
        bv_omega

theorem iterate_operatorpp_of_lt {i : ℕ} (hi : i < cap.toNat) :
    operatorpp^[i] (ofCapacity cap) = ringCursor cap i := by
  rw [iterate_operatorpp_eq hi]
  simp [ofCapacity, ringCursor, Nat.mod_eq_of_lt hi]

/-- A lap takes one step for each cell, and the next lap has one cell fewer. -/
theorem iterate_operatorpp_lap (hcap : cap ≠ 0) :
    operatorpp^[cap.toNat] (ofCapacity cap) = ofCapacity (cap - 1) := by
  have hpos := toNat_pos hcap
  obtain ⟨last, hlast⟩ := Nat.exists_eq_add_of_lt hpos
  have hmod : last % cap.toNat = last := Nat.mod_eq_of_lt (by omega)
  have hforward := ringCursor_forwardLength hcap last
  have hend : ¬ ((ringCursor cap last).forwardLength - 1 > 0) := by bv_omega
  have hsteps : cap.toNat = last + 1 := by omega
  rw [hsteps, Function.iterate_succ_apply', iterate_operatorpp_of_lt (by omega), operatorpp,
    if_neg hend]
  simp only [wrapBuffer, ringCursor, ofCapacity, hmod, BufferCursor.mk.injEq, true_and, and_true]
  bv_omega

/-! ## How far the traversal is right -/

/-- The number of steps from which the position is wrong: the last cell of the
second lap, or for a buffer of one cell the step that leaves it. -/
def rightSteps (cap : SizeT) : ℕ := max (2 * cap.toNat - 1) 2

theorem getCurrentPosition_of_lt (hcap : cap ≠ 0) {i : ℕ} (hi : i < rightSteps cap) :
    (operatorpp^[i] (ofCapacity cap)).getCurrentPosition = (i % cap.toNat : ℕ) := by
  have hpos := toNat_pos hcap
  rcases Nat.lt_or_ge i cap.toNat with hfirst | hsecond
  · rw [iterate_operatorpp_of_lt hfirst]
    rfl
  · obtain ⟨j, rfl⟩ := Nat.exists_eq_add_of_le' hsecond
    have hmod : (j + cap.toNat) % cap.toNat = j := by
      rw [Nat.add_mod_right]
      apply Nat.mod_eq_of_lt
      unfold rightSteps at hi
      omega
    rw [Function.iterate_add_apply, iterate_operatorpp_lap hcap, hmod]
    by_cases hzero : j = 0
    · subst hzero
      rfl
    · have hj : j < (cap - 1).toNat := by
        unfold rightSteps at hi
        bv_omega
      rw [iterate_operatorpp_of_lt hj]
      simp only [getCurrentPosition, ringCursor, Nat.mod_eq_of_lt hj]

/-- At the end of the second lap the cursor is back at the origin, one cell too
early; with one cell it has left the buffer. -/
theorem getCurrentPosition_rightSteps (hcap : cap ≠ 0) :
    (operatorpp^[rightSteps cap] (ofCapacity cap)).getCurrentPosition ≠
      (rightSteps cap % cap.toNat : ℕ) := by
  have hpos := toNat_pos hcap
  by_cases hone : cap = 1
  · subst hone
    decide
  · have hsecond : (cap - 1).toNat = cap.toNat - 1 := by bv_omega
    have hnext : cap - 1 ≠ 0 := by bv_omega
    have hsteps : rightSteps cap = (cap - 1).toNat + cap.toNat := by
      unfold rightSteps
      bv_omega
    have hmod : rightSteps cap % cap.toNat = cap.toNat - 1 := by
      rw [hsteps, Nat.add_mod_right, hsecond, Nat.mod_eq_of_lt (by omega)]
    rw [hmod, hsteps, Function.iterate_add_apply, iterate_operatorpp_lap hcap,
      iterate_operatorpp_lap hnext]
    simp only [getCurrentPosition, ofCapacity]
    bv_omega

/-- A loop that reads the cells of a freshly allocated buffer goes round it
exactly when it is shorter than two laps; the bytes it reads are then those of
the buffer, in order and round again. -/
theorem goesRound_iff_lt_rightSteps {alloc : Allocator} {buffer : Buffer} (hcap : 1 ≤ cap)
    (hallocate : Buffer.fresh.Allocate alloc cap = .ok (buffer, 0)) (m : ℕ) :
    (buffer.getBufferCursor.GoesRound cap.toNat m ↔ m < rightSteps cap) ∧
      (m < rightSteps cap →
        (buffer.getBufferCursor.positionsRead m).map (peek buffer.block) =
          (List.range m).map fun i => buffer.block[i % cap.toNat]?) := by
  have hne : cap ≠ 0 := by bv_omega
  have hcursor : buffer.getBufferCursor = ofCapacity cap := by
    rw [getBufferCursor_of_allocate hallocate, ringCursor_zero]
  have hiff : buffer.getBufferCursor.GoesRound cap.toNat m ↔ m < rightSteps cap := by
    rw [hcursor, goesRound_iff]
    constructor
    · intro hall
      by_contra hlong
      exact getCurrentPosition_rightSteps hne (hall _ (by omega))
    · intro hshort i hi
      exact getCurrentPosition_of_lt hne (by omega)
  refine ⟨hiff, ?_⟩
  intro hshort
  rw [(hiff.mpr hshort).1, List.map_map]
  apply List.map_congr_left
  intro i _
  simp only [Function.comp_apply, peek]
  rw [if_neg (by omega), Int.toNat_natCast]

/-- A buffer of three cells is read rightly for four steps. -/
theorem goesRound_three :
    (Buffer.allocated Allocator.zeroed 3).getBufferCursor.GoesRound 3 4 := by
  have hallocate : Buffer.fresh.Allocate Allocator.zeroed 3 =
      .ok (Buffer.allocated Allocator.zeroed 3, 0) := by decide
  exact (goesRound_iff_lt_rightSteps (by decide) hallocate 4).1.mpr (by decide)

/-- The fifth step of a traversal of three cells goes back to the first cell
instead of on to the last one. -/
theorem not_goesRound_three :
    ∃ buffer : Buffer, Buffer.fresh.Allocate Allocator.zeroed 3 = .ok (buffer, 0) ∧
      buffer.getBufferCursor.positionsRead 6 = [0, 1, 2, 0, 1, 0] ∧
      ¬ buffer.getBufferCursor.GoesRound 3 5 := by
  refine ⟨Buffer.allocated Allocator.zeroed 3, by decide, by decide, ?_⟩
  rintro ⟨_, hlast⟩
  exact absurd hlast (by decide)

end ControlEngine.BufferCursor
