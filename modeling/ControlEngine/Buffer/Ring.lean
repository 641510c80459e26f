import ControlEngine.Buffer.Invariant
import ControlEngine.Buffer.Allocation
import ControlEngine.Support.Ring

/-!
# Writing round a buffer

`writeByte` goes back to the origin when it has filled the last cell, and at
that moment the length behind the cursor is the capacity, so `wrapBuffer` gives
the cursor back its full length.  The cursor after `n` bytes is therefore
`ringCursor cap n`, however often the bytes went round, and the cells are those
that `ringStore` leaves.
-/

namespace ControlEngine.BufferCursor

/-- The cursor of `cap` cells after `n` bytes. -/
def ringCursor (cap : SizeT) (n : ℕ) : BufferCursor where
  ptrBuffer := (n % cap.toNat : ℕ)
  forwardLength := cap - BitVec.ofNat 64 (n % cap.toNat)
  backwardLength := BitVec.ofNat 64 (n % cap.toNat)

/-! ## The position after `n` bytes -/

variable {cap : SizeT}

theorem ringCursor_zero (cap : SizeT) : ringCursor cap 0 = ofCapacity cap := by
  simp [ringCursor, ofCapacity]

theorem toNat_pos (hcap : cap ≠ 0) : 0 < cap.toNat := by
  rw [Nat.pos_iff_ne_zero]
  intro hzero
  exact hcap (BitVec.eq_of_toNat_eq hzero)

theorem ringCursor_backwardLength (hcap : cap ≠ 0) (n : ℕ) :
    (ringCursor cap n).backwardLength.toNat = n % cap.toNat := by
  have hmod := Nat.mod_lt n (toNat_pos hcap)
  have hbound := cap.isLt
  simp only [ringCursor, BitVec.toNat_ofNat]
  exact Nat.mod_eq_of_lt (by omega)

theorem ringCursor_forwardLength (hcap : cap ≠ 0) (n : ℕ) :
    (ringCursor cap n).forwardLength.toNat = cap.toNat - n % cap.toNat := by
  have hmod := Nat.mod_lt n (toNat_pos hcap)
  have hbackward := ringCursor_backwardLength hcap n
  simp only [ringCursor] at hbackward ⊢
  bv_omega

/-- One byte more: a step forward, or from the last cell back to the first. -/
theorem afterByte_ringCursor (hcap : cap ≠ 0) (n : ℕ) :
    (ringCursor cap n).afterByte = ringCursor cap (n + 1) := by
  have hmod := Nat.mod_lt n (toNat_pos hcap)
  have hforward := ringCursor_forwardLength hcap n
  have hnext := succ_mod_eq_ite (toNat_pos hcap) n
  by_cases hlast : n % cap.toNat + 1 = cap.toNat
  · -- The way behind the cursor is now the capacity, and `wrapBuffer` swaps it.
    have hend : (ringCursor cap n).forwardLength - 1 = 0 := by bv_omega
    rw [if_pos hlast] at hnext
    simp only [afterByte, hend, if_true, wrapBuffer]
    simp only [ringCursor, hnext, BufferCursor.mk.injEq, Nat.cast_zero, true_and]
    generalize n % cap.toNat = offset at *
    exact ⟨by bv_omega, rfl⟩
  · have hmore : (ringCursor cap n).forwardLength - 1 ≠ 0 := by bv_omega
    rw [if_neg hlast] at hnext
    rw [afterByte_of_ne _ hmore]
    simp only [ringCursor, hnext, BufferCursor.mk.injEq, Nat.cast_add, Nat.cast_one, true_and]
    generalize n % cap.toNat = offset at *
    exact ⟨by bv_omega, by bv_omega⟩

/-- A run of bytes goes round the first `cap` cells. -/
theorem writeLoop_ringCursor (hcap : cap ≠ 0) (n : ℕ) (block bytes : List Byte) :
    (ringCursor cap n).writeLoop block bytes =
      (ringCursor cap (n + bytes.length), ringStore cap.toNat block n bytes) := by
  induction bytes generalizing n block with
  | nil => rfl
  | cons byte bytes ih =>
      have hpoke : poke block (ringCursor cap n).ptrBuffer byte =
          block.set (n % cap.toNat) byte := poke_of_nonneg
      rw [writeLoop_cons, afterByte_ringCursor hcap, hpoke, ih, ringStore, List.length_cons]
      congr 2
      omega

theorem displacements_ringCursor (hcap : cap ≠ 0) (n : ℕ) (bytes : List Byte) :
    (ringCursor cap n).displacements bytes =
      (List.range' n bytes.length).map fun k => ((k % cap.toNat : ℕ) : ℤ) := by
  induction bytes generalizing n with
  | nil => rfl
  | cons byte bytes ih =>
      rw [displacements, afterByte_ringCursor hcap, ih, List.length_cons, List.range'_succ,
        List.map_cons]
      rfl

/-! ## Calls that write -/

/-- A call of one of the two writing functions. -/
inductive WriteCall
  | writeByte (byte : Byte)
  | writeBytes (bytes : List Byte)
deriving DecidableEq, Repr

namespace WriteCall

/-- The bytes a call is to write. -/
def bytes : WriteCall → List Byte
  | .writeByte byte => [byte]
  | .writeBytes bytes => bytes

/-- The call itself: the new cursor and memory, and the returned position. -/
def run (c : BufferCursor) (block : List Byte) : WriteCall → BufferCursor × List Byte × ℤ
  | .writeByte byte => c.writeByte block byte
  | .writeBytes bytes => c.writeBytes block bytes

/-- Where the call writes, byte by byte. -/
def positions (c : BufferCursor) (call : WriteCall) : List ℤ := c.displacements call.bytes

/-- Both functions write as the loop of `writeBytes` does. -/
theorem run_eq (c : BufferCursor) (block : List Byte) (call : WriteCall) :
    call.run c block =
      ((c.writeLoop block call.bytes).1, (c.writeLoop block call.bytes).2, c.ptrBuffer) := by
  cases call with
  | writeByte byte => rfl
  | writeBytes bytes => rfl

end WriteCall

/-- The cursor and the memory after a sequence of calls. -/
def writeCalls (c : BufferCursor) (block : List Byte) :
    List WriteCall → BufferCursor × List Byte
  | [] => (c, block)
  | call :: calls =>
      let (c', block', _) := call.run c block
      writeCalls c' block' calls

theorem writeCalls_ringCursor (hcap : cap ≠ 0) (n : ℕ) (block : List Byte)
    (calls : List WriteCall) :
    (ringCursor cap n).writeCalls block calls =
      (ringCursor cap (n + (calls.flatMap WriteCall.bytes).length),
        ringStore cap.toNat block n (calls.flatMap WriteCall.bytes)) := by
  induction calls generalizing n block with
  | nil => rfl
  | cons call calls ih =>
      rw [writeCalls, WriteCall.run_eq, writeLoop_ringCursor hcap]
      simp only [ih, List.flatMap_cons, ringStore_append, List.length_append, Nat.add_assoc]

theorem positions_inside (hcap : cap ≠ 0) (n : ℕ) (call : WriteCall) :
    ∀ d ∈ call.positions (ringCursor cap n), 0 ≤ d ∧ d < cap.toNat := by
  intro d hd
  rw [WriteCall.positions, displacements_ringCursor hcap] at hd
  obtain ⟨k, _, rfl⟩ := List.mem_map.mp hd
  have hbelow : k % cap.toNat < cap.toNat := Nat.mod_lt k (toNat_pos hcap)
  omega

theorem run_returns_first (c : BufferCursor) (block : List Byte) (call : WriteCall) :
    ∀ d ∈ (call.positions c).head?, (call.run c block).2.2 = d := by
  intro d hd
  rw [WriteCall.run_eq]
  rw [WriteCall.positions] at hd
  cases hbytes : call.bytes with
  | nil =>
      rw [hbytes] at hd
      cases hd
  | cons byte bytes =>
      rw [hbytes] at hd
      exact Option.some.inj hd

theorem getBufferCursor_of_allocate {alloc : Allocator} {buffer : Buffer}
    (hallocate : Buffer.fresh.Allocate alloc cap = .ok (buffer, 0)) :
    buffer.getBufferCursor = ringCursor cap 0 := by
  obtain ⟨_, rfl⟩ := Buffer.allocate_fresh_eq_ok_iff.mp hallocate
  rw [ringCursor_zero]
  rfl

/-- Any calls of the two writing functions on the cursor of a freshly allocated
buffer write their bytes round it: a cell holds the last byte that went to it
or what it held before, the cursor counts the bytes modulo the capacity, nothing
outside the capacity is written, and a call returns where its first byte went. -/
theorem writeCalls_goes_round {alloc : Allocator} {buffer : Buffer} (hcap : 1 ≤ cap)
    (hallocate : Buffer.fresh.Allocate alloc cap = .ok (buffer, 0))
    (calls : List WriteCall) :
    let data := calls.flatMap WriteCall.bytes
    let result := buffer.getBufferCursor.writeCalls buffer.block calls
    (∀ j < cap.toNat,
      (∀ k, IsGreatest (writesTo cap.toNat data.length j) k → result.2[j]? = data[k]?) ∧
        ((∀ k, k ∉ writesTo cap.toNat data.length j) → result.2[j]? = buffer.block[j]?)) ∧
    (result.1.ptrBuffer = (data.length % cap.toNat : ℕ) ∧
      result.1.backwardLength.toNat = data.length % cap.toNat ∧
      result.1.forwardLength.toNat = cap.toNat - data.length % cap.toNat) ∧
    (∀ j, cap.toNat ≤ j → result.2[j]? = buffer.block[j]?) ∧
    ∀ earlier call later, calls = earlier ++ call :: later →
      let reached := buffer.getBufferCursor.writeCalls buffer.block earlier
      (∀ d ∈ call.positions reached.1, (0 : ℤ) ≤ d ∧ d < cap.toNat) ∧
        ∀ d ∈ (call.positions reached.1).head?, (call.run reached.1 reached.2).2.2 = d := by
  have hne : cap ≠ 0 := by bv_omega
  have hcells : cap.toNat ≤ buffer.block.length := by
    obtain ⟨hprovides, rfl⟩ := Buffer.allocate_fresh_eq_ok_iff.mp hallocate
    exact Buffer.size_le_length_block hprovides
  intro data result
  have hresult : result = (ringCursor cap data.length, ringStore cap.toNat buffer.block 0 data) := by
    simp only [result, data, getBufferCursor_of_allocate hallocate, writeCalls_ringCursor hne,
      Nat.zero_add]
  rw [hresult]
  refine ⟨?_, ⟨rfl, ringCursor_backwardLength hne _, ringCursor_forwardLength hne _⟩, ?_, ?_⟩
  · intro j hj
    exact ⟨fun k hk => getElem?_ringStore_of_isGreatest hj hcells hk,
      getElem?_ringStore_of_forall_not_mem buffer.block data hj⟩
  · intro j hj
    exact getElem?_ringStore_of_le (toNat_pos hne) buffer.block 0 data hj
  · intro earlier call later _
    simp only [getBufferCursor_of_allocate hallocate, writeCalls_ringCursor hne, Nat.zero_add]
    exact ⟨positions_inside hne _ call, run_returns_first _ _ call⟩

/-- Five cells, written with one byte and then with six. -/
theorem writeCalls_goes_round_seven :
    let calls := [WriteCall.writeByte 0, .writeBytes [1, 2, 3, 4, 5, 6]]
    let result := (ofCapacity 5).writeCalls (List.replicate 5 0) calls
    (IsGreatest (writesTo 5 7 1) 6 ∧ result.2[1]? = some 6) ∧
      result.1.forwardLength.toNat = 3 := by
  have hallocate : Buffer.fresh.Allocate Allocator.zeroed 5 =
      .ok (Buffer.allocated Allocator.zeroed 5, 0) := by decide
  have hround := writeCalls_goes_round (by decide) hallocate
    [.writeByte 0, .writeBytes [1, 2, 3, 4, 5, 6]]
  have hlast : IsGreatest (writesTo 5 7 1) 6 := by
    refine ⟨⟨by decide, by decide⟩, ?_⟩
    rintro k ⟨hk, _⟩
    exact Nat.le_of_lt_succ hk
  exact ⟨⟨hlast, (hround.1 1 (by decide)).1 6 hlast⟩, hround.2.1.2.2⟩

end ControlEngine.BufferCursor
