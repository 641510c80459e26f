import ControlEngine.Socket.ReadData

/-!
# A peer that goes away

After an orderly shutdown `recv` reports zero bytes for ever.  A turn of any of
the three loops of `readData` that receives nothing leaves every variable as it
was, so a shutdown inside a frame is never noticed.

A connection that ends so is the list of the pieces that `recv` hands out before
it reports zero.  The pieces may have any sizes; those that a kernel produces are
among them.
-/

namespace ControlEngine

/-- The pieces that are still to come; when there are none left, `recv` reports
zero bytes. -/
def closedAfter : Channel (List (List Byte)) where
  recv pieces _ :=
    match pieces with
    | [] => some (.data [], [])
    | piece :: pieces => some (.data piece, pieces)

/-- The pieces bring a counter that starts at `width` to zero for the first time:
they have `width` bytes together, counted modulo `2 ^ 64`. -/
structure Fills (width : SizeT) (pieces : List (List Byte)) : Prop where
  total : BitVec.ofNat 64 pieces.flatten.length = width
  first : ∀ front, front <+: pieces →
    BitVec.ofNat 64 front.flatten.length = width → front = pieces

/-- The value of the size field after pieces were stored at its start, one over
the other. -/
def announcedSize (order : ByteOrder) (size : BitVec 64) (pieces : List (List Byte)) :
    BitVec 64 :=
  pieces.foldl (receiveField order 8) size

/-- `readData` makes only finitely many calls of `recv`. -/
def Ends (alloc : Allocator) (order : ByteOrder) (pieces : List (List Byte))
    (progress : ReadProgress) : Prop :=
  ∃ calls, ∀ f, (readFrom alloc order closedAfter calls (progress, pieces)).1 ≠ .receiving f

theorem fills_nil_iff {width : SizeT} : Fills width [] ↔ width = 0 := by
  constructor
  · intro h
    simpa using h.total.symm
  · rintro rfl
    refine ⟨rfl, fun front hfront _ => ?_⟩
    exact List.prefix_nil.mp hfront

theorem fills_cons_iff {width : SizeT} {piece : List Byte} {pieces : List (List Byte)} :
    Fills width (piece :: pieces) ↔
      width ≠ 0 ∧ Fills (width - BitVec.ofNat 64 piece.length) pieces := by
  have htotal : ∀ front : List (List Byte),
      BitVec.ofNat 64 (piece :: front).flatten.length = width ↔
        BitVec.ofNat 64 front.flatten.length = width - BitVec.ofNat 64 piece.length := by
    intro front
    rw [List.flatten_cons, List.length_append, BitVec.ofNat_add]
    constructor <;> intro h <;> bv_omega
  constructor
  · intro h
    refine ⟨?_, (htotal pieces).mp h.total, ?_⟩
    · rintro rfl
      have hnil := h.first [] List.nil_prefix rfl
      cases hnil
    · intro front hfront hcount
      have hcons := h.first (piece :: front) (List.cons_prefix_cons.mpr ⟨rfl, hfront⟩)
        ((htotal front).mpr hcount)
      exact (List.cons.inj hcons).2
  · rintro ⟨hne, h⟩
    refine ⟨(htotal pieces).mpr h.total, ?_⟩
    intro front hfront hcount
    cases front with
    | nil => exact absurd hcount.symm hne
    | cons head front =>
        obtain ⟨rfl, htail⟩ := List.cons_prefix_cons.mp hfront
        rw [h.first front htail ((htotal front).mp hcount)]

variable {alloc : Allocator} {order : ByteOrder}

/-! ## Whole runs -/

theorem ends_of_ended {pieces : List (List Byte)} {progress : ReadProgress}
    (hended : ∀ f, progress ≠ .receiving f) : Ends alloc order pieces progress :=
  ⟨0, by rw [readFrom_zero]; exact hended⟩

theorem ends_cons_iff {f : ReadFrame} {piece : List Byte} {pieces : List (List Byte)} :
    Ends alloc order (piece :: pieces) (.receiving f) ↔
      Ends alloc order pieces (f.receive alloc order (.data piece)) := by
  have hrecv : closedAfter.recv (piece :: pieces) f.requested = some (.data piece, pieces) := rfl
  constructor
  · rintro ⟨calls, h⟩
    cases calls with
    | zero => exact absurd rfl (h f)
    | succ calls =>
        rw [readFrom_succ calls hrecv] at h
        exact ⟨calls, h⟩
  · rintro ⟨calls, h⟩
    refine ⟨calls + 1, ?_⟩
    rw [readFrom_succ calls hrecv]
    exact h

/-- A loop that still waits for bytes after the shutdown waits for ever. -/
theorem not_ends_nil {f : ReadFrame} (hpending : f.readRemaining > 0) :
    ¬ Ends alloc order [] (.receiving f) := by
  have hturn : f.receive alloc order (.data []) = .receiving f := by
    rw [ReadFrame.receive_data_eq, ReadFrame.accept_nil, if_pos hpending]
  have hrecv : closedAfter.recv [] f.requested = some (.data [], []) := rfl
  have hstuck : ∀ calls, readFrom alloc order closedAfter calls (.receiving f, []) =
      (.receiving f, []) := by
    intro calls
    induction calls with
    | zero => rfl
    | succ calls ih => rw [readFrom_succ calls hrecv, hturn, ih]
  rintro ⟨calls, h⟩
  rw [hstuck] at h
  exact h f rfl

/-- A loop ends exactly if pieces fill its field and what follows it ends. -/
theorem ends_receiving_iff {f : ReadFrame} {pieces : List (List Byte)}
    (hpending : f.readRemaining > 0) :
    Ends alloc order pieces (.receiving f) ↔
      ∃ field rest, pieces = field ++ rest ∧ Fills f.readRemaining field ∧
        Ends alloc order rest ((field.foldl (ReadFrame.accept order) f).leave alloc) := by
  induction pieces generalizing f with
  | nil =>
      refine iff_of_false (not_ends_nil hpending) ?_
      rintro ⟨field, rest, hsplit, hfills, -⟩
      obtain ⟨rfl, rfl⟩ := List.append_eq_nil_iff.mp hsplit.symm
      rw [fills_nil_iff] at hfills
      bv_omega
  | cons piece pieces ih =>
      have hne : f.readRemaining ≠ 0 := by bv_omega
      have hremaining := f.readRemaining_accept order piece
      rw [ends_cons_iff, ReadFrame.receive_data_eq]
      split
      · rename_i hmore
        rw [ih hmore]
        constructor
        · rintro ⟨field, rest, rfl, hfills, hrest⟩
          refine ⟨piece :: field, rest, rfl, ?_, hrest⟩
          rw [fills_cons_iff, ← hremaining]
          exact ⟨hne, hfills⟩
        · rintro ⟨field, rest, hsplit, hfills, hrest⟩
          cases field with
          | nil => exact absurd (fills_nil_iff.mp hfills) hne
          | cons head field =>
              obtain ⟨rfl, rfl⟩ := List.cons.inj hsplit
              rw [fills_cons_iff, ← hremaining] at hfills
              exact ⟨field, rest, rfl, hfills.2, hrest⟩
      · rename_i hdone
        have hzero : f.readRemaining - BitVec.ofNat 64 piece.length = 0 := by
          rw [← hremaining]
          bv_omega
        constructor
        · intro hrest
          refine ⟨[piece], pieces, rfl, ?_, hrest⟩
          rw [fills_cons_iff, hzero]
          exact ⟨hne, fills_nil_iff.mpr rfl⟩
        · rintro ⟨field, rest, hsplit, hfills, hrest⟩
          cases field with
          | nil => exact absurd (fills_nil_iff.mp hfills) hne
          | cons head field =>
              obtain ⟨rfl, rfl⟩ := List.cons.inj hsplit
              rw [fills_cons_iff, hzero] at hfills
              have hnil := hfills.2.first [] List.nil_prefix rfl
              subst hnil
              exact hrest

/-! ## The three loops of a call -/

theorem leave_foldl_accept_size {f : ReadFrame} (hstate : f.state = .MESSAGE_SIZE)
    (pieces : List (List Byte)) :
    (pieces.foldl (ReadFrame.accept order) f).leave alloc =
      .receiving
        { f with
          state := .MESSAGE_TYPE
          readRemaining := 4
          message :=
            { f.message with
              messageSize := announcedSize order f.message.messageSize pieces } } := by
  induction pieces generalizing f with
  | nil => simp [ReadFrame.leave, hstate, announcedSize]
  | cons piece pieces ih =>
      have hnext : (f.accept order piece).state = .MESSAGE_SIZE := by
        simp only [ReadFrame.accept, hstate]
      rw [List.foldl_cons, ih hnext]
      simp only [ReadFrame.accept, hstate, announcedSize, List.foldl_cons]

theorem leave_foldl_accept_type {f : ReadFrame} (hstate : f.state = .MESSAGE_TYPE)
    (pieces : List (List Byte)) :
    (pieces.foldl (ReadFrame.accept order) f).leave alloc =
      ReadFrame.enterMessage alloc
        { f.message with
          messageType := pieces.foldl (receiveField order 4) f.message.messageType } := by
  induction pieces generalizing f with
  | nil => simp [ReadFrame.leave, hstate]
  | cons piece pieces ih =>
      have hnext : (f.accept order piece).state = .MESSAGE_TYPE := by
        simp only [ReadFrame.accept, hstate]
      rw [List.foldl_cons, ih hnext]
      simp only [ReadFrame.accept, hstate, List.foldl_cons]

theorem ends_leave_payload {f : ReadFrame} (hstate : f.state = .MESSAGE)
    (pieces rest : List (List Byte)) :
    Ends alloc order rest ((pieces.foldl (ReadFrame.accept order) f).leave alloc) := by
  induction pieces generalizing f with
  | nil => exact ends_of_ended (by simp [ReadFrame.leave, hstate])
  | cons piece pieces ih =>
      have hnext : (f.accept order piece).state = .MESSAGE := by
        simp only [ReadFrame.accept, hstate]
      exact ih hnext

/-- Behind the header a fresh message needs pieces that fill the announced size,
unless the allocation throws. -/
theorem ends_enterMessage_iff {message : TcpMessage} (hfresh : message.buffer = Buffer.fresh)
    {pieces : List (List Byte)} :
    Ends alloc order pieces (ReadFrame.enterMessage alloc message) ↔
      (alloc.Provides message.messageSize →
        ∃ payload, payload <+: pieces ∧ Fills message.messageSize payload) := by
  rw [ReadFrame.enterMessage, hfresh]
  by_cases hprovides : alloc.Provides message.messageSize
  · rw [Buffer.allocate_fresh hprovides]
    simp only [hprovides, true_imp_iff]
    split
    · rename_i hpending
      rw [ends_receiving_iff hpending]
      constructor
      · rintro ⟨payload, rest, rfl, hfills, -⟩
        exact ⟨payload, List.prefix_append payload rest, hfills⟩
      · rintro ⟨payload, ⟨rest, rfl⟩, hfills⟩
        exact ⟨payload, rest, rfl, hfills, ends_leave_payload rfl payload rest⟩
    · rename_i hempty
      have hzero : message.messageSize = 0 := by bv_omega
      refine iff_of_true (ends_of_ended (by simp)) ⟨[], List.nil_prefix, ?_⟩
      rw [hzero]
      exact fills_nil_iff.mpr rfl
  · rw [Buffer.allocate_fresh_of_not_provides hprovides]
    exact iff_of_true (ends_of_ended (by simp)) (fun h => absurd h hprovides)

/-- A call of `readData` ends exactly if the shutdown does not fall inside the
frame: pieces fill the size field, further ones the type field, and further ones
the announced payload, if it can be allocated. -/
theorem readData_ends_iff (alloc : Allocator) (order : ByteOrder) (size : BitVec 64)
    (type : BitVec 32) (pieces : List (List Byte)) :
    Ends alloc order pieces (readData true (TcpMessage.fresh size type)) ↔
      ∃ sizeField typeField rest, pieces = sizeField ++ (typeField ++ rest) ∧
        Fills 8 sizeField ∧ Fills 4 typeField ∧
        (alloc.Provides (announcedSize order size sizeField) →
          ∃ payload, payload <+: rest ∧
            Fills (announcedSize order size sizeField) payload) := by
  have hsizeLoop : ∀ sizeField rest,
      Ends alloc order rest
          ((sizeField.foldl (ReadFrame.accept order)
            { state := .MESSAGE_SIZE
              readRemaining := 8
              message := TcpMessage.fresh size type
              cursor := BufferCursor.ofCapacity 0 }).leave alloc) ↔
        ∃ typeField rest', rest = typeField ++ rest' ∧ Fills 4 typeField ∧
          (alloc.Provides (announcedSize order size sizeField) →
            ∃ payload, payload <+: rest' ∧
              Fills (announcedSize order size sizeField) payload) := by
    intro sizeField rest
    rw [leave_foldl_accept_size rfl, ends_receiving_iff (by simp)]
    refine exists_congr fun typeField => exists_congr fun rest' => ?_
    rw [leave_foldl_accept_type rfl, ends_enterMessage_iff rfl]
    rfl
  rw [readData, if_pos rfl, ends_receiving_iff (by simp)]
  constructor
  · rintro ⟨sizeField, rest, rfl, hsize, hrest⟩
    obtain ⟨typeField, rest', rfl, htype, hpayload⟩ := (hsizeLoop _ _).mp hrest
    exact ⟨sizeField, typeField, rest', rfl, hsize, htype, hpayload⟩
  · rintro ⟨sizeField, typeField, rest', rfl, hsize, htype, hpayload⟩
    exact ⟨sizeField, _, rfl, hsize, (hsizeLoop _ _).mpr ⟨typeField, rest', rfl, htype, hpayload⟩⟩

/-- The peer closes the connection without having sent anything. -/
theorem not_ends_of_closed_at_once :
    ¬ Ends Allocator.zeroed .little [] (readData true (TcpMessage.fresh 0 0)) :=
  not_ends_nil (by decide)

end ControlEngine
