import ControlEngine.Socket.Peer
import ControlEngine.Socket.Payload

/-!
# Reassembling a frame whose header fields arrive whole

A header field that one call of `recv` returns whole is read correctly, whatever
the field held before.  The payload may come in any pieces: `Reassembling` is
the invariant of the payload loop, which keeps the counter, the cursor and the
position in the stream in step, so that no piece is written outside the buffer
and the last one fills it exactly.
-/

namespace ControlEngine

variable {alloc : Allocator} {order : ByteOrder} {p : Peer}

/-! ## The header -/

theorem receiveField_whole {n width : ℕ} (field : BitVec n) {chunk : List Byte}
    (hchunk : chunk.length = width) :
    receiveField order width field chunk = order.decode n chunk := by
  rw [receiveField, store_zero_of_length_eq (by simpa using hchunk)]

theorem receive_size_whole {f : ReadFrame} {chunk : List Byte}
    (hstate : f.state = .MESSAGE_SIZE) (hremaining : f.readRemaining = 8)
    (hchunk : chunk.length = 8) :
    f.receive alloc order (.data chunk) =
      .receiving
        { f with
          state := .MESSAGE_TYPE
          readRemaining := 4
          message := { f.message with messageSize := order.decode 64 chunk } } := by
  simp [ReadFrame.receive, hstate, hremaining, hchunk, receiveField_whole]

theorem receive_type_whole {f : ReadFrame} {chunk : List Byte}
    (hstate : f.state = .MESSAGE_TYPE) (hremaining : f.readRemaining = 4)
    (hchunk : chunk.length = 4) :
    f.receive alloc order (.data chunk) =
      ReadFrame.enterMessage alloc
        { f.message with messageType := order.decode 32 chunk } := by
  simp [ReadFrame.receive, hstate, hremaining, hchunk, receiveField_whole]

theorem readFrom_size {pos : ℕ} (calls : ℕ) (message : TcpMessage)
    (huncut : Uncut p.cut pos (pos + 8)) (hrest : 8 ≤ p.stream.length - pos) :
    readFrom alloc order p.channel (calls + 1) (readData true message, pos) =
      readFrom alloc order p.channel calls
        (.receiving
          { state := .MESSAGE_TYPE
            readRemaining := 4
            message := { message with messageSize := order.decode 64 (p.slice pos 8) }
            cursor := BufferCursor.ofCapacity 0 }, pos + 8) := by
  have hrecv : p.channel.recv pos 8 =
      some (.data (p.slice pos (p.chunkLength pos 8)), pos + p.chunkLength pos 8) :=
    p.recv_data (by omega) (by omega)
  rw [p.chunkLength_eq huncut hrest] at hrecv
  rw [readData, if_pos rfl, readFrom_succ calls hrecv,
    receive_size_whole rfl rfl (p.length_slice hrest)]

/-- The first two calls of a `readData` that finds both header fields whole. -/
theorem readFrom_header {pos : ℕ} (calls : ℕ) (message : TcpMessage)
    (hsize : Uncut p.cut pos (pos + 8)) (htype : Uncut p.cut (pos + 8) (pos + 12))
    (hrest : 12 ≤ p.stream.length - pos) :
    readFrom alloc order p.channel (calls + 2) (readData true message, pos) =
      readFrom alloc order p.channel calls
        (ReadFrame.enterMessage alloc
          { message with
            messageSize := order.decode 64 (p.slice pos 8)
            messageType := order.decode 32 (p.slice (pos + 8) 4) }, pos + 12) := by
  have hrecv : p.channel.recv (pos + 8) 4 =
      some (.data (p.slice (pos + 8) (p.chunkLength (pos + 8) 4)),
        pos + 8 + p.chunkLength (pos + 8) 4) :=
    p.recv_data (by omega) (by omega)
  rw [p.chunkLength_eq (by simpa using htype) (by omega)] at hrecv
  rw [readFrom_size _ _ hsize (by omega), readFrom_succ calls hrecv,
    receive_type_whole rfl rfl (p.length_slice (by omega))]

/-! ## The payload -/

/-- The payload loop has received the bytes from `start` to `pos` of a message
with the given header. -/
structure Reassembling (p : Peer) (start : ℕ) (size : BitVec 64) (type : BitVec 32)
    (f : ReadFrame) (pos : ℕ) : Prop where
  state : f.state = .MESSAGE
  messageSize : f.message.messageSize = size
  messageType : f.message.messageType = type
  pending : 0 < f.readRemaining.toNat
  started : start ≤ pos
  remaining : f.readRemaining.toNat + (pos - start) = size.toNat
  forward : f.cursor.forwardLength = f.readRemaining
  position : f.cursor.ptrBuffer = (pos - start : ℕ)
  length : f.message.buffer.length = size
  capacity : size.toNat ≤ f.message.buffer.block.length
  cells : f.message.buffer.block.take (pos - start) = p.slice start (pos - start)

/-- A message whose buffer holds the announced number of bytes of the stream. -/
structure Filled (p : Peer) (start : ℕ) (size : BitVec 64) (type : BitVec 32)
    (m : TcpMessage) : Prop where
  messageSize : m.messageSize = size
  messageType : m.messageType = type
  length : m.buffer.length = size
  contents : m.buffer.contents = p.slice start size.toNat
  inStream : (p.slice start size.toNat).length = size.toNat

namespace Reassembling

variable {start pos : ℕ} {size : BitVec 64} {type : BitVec 32} {f : ReadFrame}

/-- The invariant is the one of the payload loop, for the bytes of the stream
behind the header. -/
theorem assembling (h : Reassembling p start size type f pos) :
    Assembling (p.slice start (pos - start)) size type f := by
  have hremaining := h.remaining
  have hcapacity := h.capacity
  have hlength : (p.slice start (pos - start)).length = pos - start := by
    rw [← h.cells, List.length_take]
    omega
  exact
    { state := h.state
      messageSize := h.messageSize
      messageType := h.messageType
      pending := h.pending
      remaining := by rw [hlength]; exact hremaining
      forward := h.forward
      position := by rw [hlength]; exact h.position
      length := h.length
      capacity := hcapacity
      cells := by rw [hlength]; exact h.cells }

theorem of_assembling (hstarted : start ≤ pos) (hrest : pos ≤ p.stream.length)
    (h : Assembling (p.slice start (pos - start)) size type f) :
    Reassembling p start size type f pos := by
  have hlength : (p.slice start (pos - start)).length = pos - start :=
    p.length_slice (by omega)
  have hremaining := h.remaining
  have hposition := h.position
  have hcells := h.cells
  rw [hlength] at hremaining hposition hcells
  exact
    { state := h.state
      messageSize := h.messageSize
      messageType := h.messageType
      pending := h.pending
      started := hstarted
      remaining := hremaining
      forward := h.forward
      position := hposition
      length := h.length
      capacity := h.capacity
      cells := hcells }

theorem requested_pos (h : Reassembling p start size type f pos) : 0 < f.requested :=
  h.assembling.requested_pos

theorem requested_le (h : Reassembling p start size type f pos) :
    f.requested ≤ f.readRemaining.toNat :=
  h.assembling.requested_le

/-- One call of `recv` in the payload loop: the loop goes on in step, or the
message is filled and the position is the end of the frame. -/
theorem receive (alloc : Allocator) (order : ByteOrder)
    (h : Reassembling p start size type f pos) (hrest : pos < p.stream.length) :
    (∃ f', f.receive alloc order (.data (p.slice pos (p.chunkLength pos f.requested))) =
        .receiving f' ∧
      Reassembling p start size type f' (pos + p.chunkLength pos f.requested)) ∨
    (∃ m, f.receive alloc order (.data (p.slice pos (p.chunkLength pos f.requested))) =
        .returned m ∧
      Filled p start size type m ∧
      pos + p.chunkLength pos f.requested = start + size.toNat) := by
  have hlength := p.length_slice (p.chunkLength_le_rest pos f.requested)
  have hle := (p.chunkLength_le pos f.requested).trans h.requested_le
  have hinStream := p.chunkLength_le_rest pos f.requested
  generalize p.chunkLength pos f.requested = n at hlength hle hinStream
  have hstarted := h.started
  have happend : p.slice start (pos - start) ++ p.slice pos n =
      p.slice start (pos + n - start) := by
    have hsplit : pos + n - start = (pos - start) + n := by omega
    have hbehind : start + (pos - start) = pos := by omega
    rw [hsplit, p.slice_append, hbehind]
  rw [← hlength] at hle
  rcases h.assembling.receive alloc order hle with ⟨f', hf', hnext⟩ | ⟨m, hm, hdone⟩
  · left
    rw [happend] at hnext
    exact ⟨f', hf', of_assembling (by omega) (by omega) hnext⟩
  · right
    rw [happend] at hdone
    have hcomplete := hdone.complete
    rw [p.length_slice (by omega)] at hcomplete
    refine ⟨m, hm, ?_, by omega⟩
    exact
      { messageSize := hdone.messageSize
        messageType := hdone.messageType
        length := hdone.length
        contents := by rw [hdone.contents, hcomplete]
        inStream := p.length_slice (by omega) }

theorem exists_returned (alloc : Allocator) (order : ByteOrder)
    (h : Reassembling p start size type f pos)
    (hstream : start + size.toNat ≤ p.stream.length) :
    ∃ calls m, readFrom alloc order p.channel calls (.receiving f, pos) =
        (.returned m, start + size.toNat) ∧
      Filled p start size type m := by
  generalize hmeasure : f.readRemaining.toNat = left
  induction left using Nat.strong_induction_on generalizing f pos with
  | h left ih =>
      have hpending := h.pending
      have hremaining := h.remaining
      have hstarted := h.started
      have hrest : pos < p.stream.length := by omega
      have hrecv := p.recv_data h.requested_pos hrest
      rcases h.receive alloc order hrest with
        ⟨f', hf', hnext⟩ | ⟨m, hm, hfilled, hend⟩
      · have hnextRemaining := hnext.remaining
        have hchunk := p.chunkLength_pos h.requested_pos hrest
        obtain ⟨calls, m, hrun, hfilled⟩ := ih _ (by omega) hnext rfl
        refine ⟨calls + 1, m, ?_, hfilled⟩
        rw [readFrom_succ calls hrecv, hf']
        exact hrun
      · refine ⟨1, m, ?_, hfilled⟩
        rw [readFrom_succ 0 hrecv, hm, hend, readFrom_zero]

end Reassembling

/-- The way into the payload loop of a fresh message whose allocation succeeds. -/
theorem enterMessage_cases (p : Peer) (start : ℕ) {message : TcpMessage}
    (hfresh : message.buffer = Buffer.fresh)
    (hprovides : alloc.Provides message.messageSize) :
    (∃ f, ReadFrame.enterMessage alloc message = .receiving f ∧
      Reassembling p start message.messageSize message.messageType f start) ∨
    (∃ m, ReadFrame.enterMessage alloc message = .returned m ∧
      Filled p start message.messageSize message.messageType m ∧
      message.messageSize.toNat = 0) := by
  rcases enterMessage_assembles hfresh hprovides with ⟨f, hf, hloop⟩ | ⟨m, hm, hdone⟩
  · left
    refine ⟨f, hf, ?_⟩
    exact
      { state := hloop.state
        messageSize := hloop.messageSize
        messageType := hloop.messageType
        pending := hloop.pending
        started := le_rfl
        remaining := by simpa using hloop.remaining
        forward := hloop.forward
        position := by simpa using hloop.position
        length := hloop.length
        capacity := hloop.capacity
        cells := by simp [Peer.slice] }
  · right
    have hzero : message.messageSize.toNat = 0 := hdone.complete.symm
    refine ⟨m, hm, ?_, hzero⟩
    exact
      { messageSize := hdone.messageSize
        messageType := hdone.messageType
        length := hdone.length
        contents := by rw [hdone.contents, hzero]; rfl
        inStream := by simp [Peer.slice, hzero] }

/-- A frame in the stream with an uncut header is read into a filled message, and
nothing behind it is consumed. -/
theorem exists_returned_of_uncut {pos : ℕ} (message : TcpMessage)
    (hfresh : message.buffer = Buffer.fresh)
    (hsize : Uncut p.cut pos (pos + 8)) (htype : Uncut p.cut (pos + 8) (pos + 12))
    (hprovides : alloc.Provides (order.decode 64 (p.slice pos 8)))
    (hstream : pos + 12 + (order.decode 64 (p.slice pos 8)).toNat ≤ p.stream.length) :
    ∃ calls m, readFrom alloc order p.channel calls (readData true message, pos) =
        (.returned m, pos + 12 + (order.decode 64 (p.slice pos 8)).toNat) ∧
      Filled p (pos + 12) (order.decode 64 (p.slice pos 8))
        (order.decode 32 (p.slice (pos + 8) 4)) m := by
  let announced : TcpMessage :=
    { message with
      messageSize := order.decode 64 (p.slice pos 8)
      messageType := order.decode 32 (p.slice (pos + 8) 4) }
  have hannounced : announced.buffer = Buffer.fresh := hfresh
  rcases enterMessage_cases p (pos + 12) hannounced hprovides with
    ⟨f, hf, hloop⟩ | ⟨m, hm, hfilled, hzero⟩
  · obtain ⟨calls, m, hrun, hfilled⟩ :=
      hloop.exists_returned alloc order hstream
    refine ⟨calls + 2, m, ?_, hfilled⟩
    rw [readFrom_header calls message hsize htype (by omega), hf]
    exact hrun
  · refine ⟨2, m, ?_, hfilled⟩
    rw [readFrom_header 0 message hsize htype (by omega), hm, hzero, readFrom_zero]

end ControlEngine
