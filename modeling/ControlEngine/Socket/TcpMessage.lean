import ControlEngine.Buffer.Allocation

/-!
# Messages and their frames

A `TcpMessage` is a size, a type and a shared buffer.  `TcpMesageFromString`
fills the buffer through a copy of its cursor, and that copy wraps when it has
written the last cell, so the payload has to be shown to lie where the buffer's
own cursor still points.

`sendData` transmits a message as three runs of bytes: the eight bytes of
`messageSize`, the four bytes of `messageType`, and `messageSize` cells from the
cursor of the buffer.  `frame` is what the wire carries when each of its sends
is accepted whole.
-/

namespace ControlEngine

/-- The value of the only enumerator of `MessageType`. -/
def BINARY : BitVec 32 := 0

/-- `TcpMessage`; `messageSize` is a `long`, kept as its bits. -/
structure TcpMessage where
  messageSize : BitVec 64
  messageType : BitVec 32
  buffer : Buffer
deriving DecidableEq, Repr

/-- A message as its constructor leaves it: an unallocated buffer, and two
fields that hold whatever the memory held. -/
def TcpMessage.fresh (messageSize : BitVec 64) (messageType : BitVec 32) : TcpMessage where
  messageSize := messageSize
  messageType := messageType
  buffer := Buffer.fresh

/-- `TcpMesageFromString`. -/
def TcpMesageFromString (alloc : Allocator) (s : List Byte) :
    Except Thrown TcpMessage :=
  match Buffer.fresh.Allocate alloc (BitVec.ofNat 64 s.length) with
  | .error thrown => .error thrown
  | .ok (buffer, _) =>
      let c := buffer.getBufferCursor
      let (_, cells, _) := c.writeBytes buffer.block s
      .ok
        { messageSize := BitVec.ofNat 64 s.length
          messageType := BINARY
          buffer := buffer.withBlock cells }

/-- The three fields of a frame, one for each send of `sendData`. -/
inductive FramePart
  | size
  | type
  | payload
deriving DecidableEq, Repr

namespace TcpMessage

/-- The bytes one send of `sendData` hands over. -/
def partBytes (order : ByteOrder) (m : TcpMessage) : FramePart → List Byte
  | .size => order.encode 8 m.messageSize
  | .type => order.encode 4 m.messageType
  | .payload => m.buffer.cellsAt m.buffer.getBufferCursor.ptrBuffer m.messageSize.toNat

/-- The bytes of a message on the wire. -/
def frame (order : ByteOrder) (m : TcpMessage) : List Byte :=
  m.partBytes order .size ++ m.partBytes order .type ++ m.partBytes order .payload

/-- A message whose buffer holds exactly the payload that its size announces. -/
structure Carries (m : TcpMessage) (s : List Byte) : Prop where
  size : m.messageSize.toNat = s.length
  type : m.messageType = BINARY
  contents : m.buffer.contents = s
  cursor : m.buffer.getBufferCursor.ptrBuffer = 0
  length : m.buffer.length = m.messageSize

theorem Carries.payload {m : TcpMessage} {s : List Byte} (h : m.Carries s)
    (order : ByteOrder) : m.partBytes order .payload = s := by
  rw [partBytes, h.cursor, ← h.length]
  exact h.contents

theorem Carries.frame_eq {m : TcpMessage} {s : List Byte} (h : m.Carries s)
    (order : ByteOrder) :
    m.frame order = order.encode 8 m.messageSize ++ order.encode 4 BINARY ++ s := by
  rw [frame, h.payload, partBytes, partBytes, h.type]

theorem Carries.length_frame {m : TcpMessage} {s : List Byte} (h : m.Carries s)
    (order : ByteOrder) : (m.frame order).length = 12 + s.length := by
  rw [h.frame_eq]
  simp only [List.length_append, ByteOrder.length_encode]

end TcpMessage

/-! ## Filling a buffer through its cursor -/

/-- Up to its forward length a cursor writes the cells one after the other: it
wraps, if at all, after the last of them. -/
theorem BufferCursor.writeLoop_eq_store {c : BufferCursor} {block bytes : List Byte}
    {offset : ℕ} (hptr : c.ptrBuffer = offset)
    (hroom : bytes.length ≤ c.forwardLength.toNat) :
    (c.writeLoop block bytes).2 = store block offset bytes := by
  induction bytes generalizing c block offset with
  | nil => rfl
  | cons byte bytes ih =>
      rw [List.length_cons] at hroom
      rw [writeLoop_cons, hptr, poke_of_nonneg, store]
      cases hbytes : bytes with
      | nil => rfl
      | cons next rest =>
          rw [← hbytes]
          have hmore : 1 ≤ bytes.length := by simp [hbytes]
          have hafter := c.afterByte_of_ne (by bv_omega)
          apply ih
          · rw [hafter, hptr]
            simp
          · rw [hafter]
            simp only
            bv_omega

variable {alloc : Allocator}

theorem carries_of_TcpMesageFromString {s : List Byte} {m : TcpMessage}
    (hs : s.length < 2 ^ 64) (hm : TcpMesageFromString alloc s = .ok m) :
    m.Carries s := by
  have hsize : (BitVec.ofNat 64 s.length).toNat = s.length := by
    rw [BitVec.toNat_ofNat, Nat.mod_eq_of_lt hs]
  by_cases hprovides : alloc.Provides (BitVec.ofNat 64 s.length)
  · rw [TcpMesageFromString, Buffer.allocate_fresh hprovides] at hm
    have hfits := Buffer.size_le_length_block hprovides
    rw [hsize] at hfits
    have hcells : ((Buffer.allocated alloc (BitVec.ofNat 64 s.length)).getBufferCursor.writeBytes
        (Buffer.allocated alloc (BitVec.ofNat 64 s.length)).block s).2.1 =
        store (Buffer.allocated alloc (BitVec.ofNat 64 s.length)).block 0 s := by
      apply BufferCursor.writeLoop_eq_store
      · rfl
      · exact hsize.ge
    simp only [Except.ok.injEq] at hm
    subst hm
    refine ⟨hsize, rfl, ?_, rfl, rfl⟩
    rw [Buffer.contents, Buffer.cellsAt, hcells,
      Buffer.block_withBlock (by rw [length_store]), store_eq_of_fits (by simpa using hfits)]
    simp [Buffer.allocated, hsize]
  · rw [TcpMesageFromString, Buffer.allocate_fresh_of_not_provides hprovides] at hm
    cases hm

theorem exists_TcpMesageFromString {s : List Byte}
    (h : alloc.Provides (BitVec.ofNat 64 s.length)) :
    ∃ m, TcpMesageFromString alloc s = .ok m := by
  rw [TcpMesageFromString, Buffer.allocate_fresh h]
  exact ⟨_, rfl⟩

end ControlEngine
