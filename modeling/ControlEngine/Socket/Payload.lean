import ControlEngine.Socket.ReadData

/-!
# The payload loop

The payload loop of `readData` counts twice what is still to come: in
`readRemaining` and in the lengths of its cursor.  `Assembling` keeps the two in
step with the bytes received so far.  It holds before every call of `recv`
whatever sizes the calls return, so each piece goes behind the one before it,
inside the buffer, and the last one ends at the capacity without a wrap.
-/

namespace ControlEngine

variable {alloc : Allocator} {order : ByteOrder}

/-- The payload loop of a message with the given header has put `received` at
the start of its buffer. -/
structure Assembling (received : List Byte) (size : BitVec 64) (type : BitVec 32)
    (f : ReadFrame) : Prop where
  state : f.state = .MESSAGE
  messageSize : f.message.messageSize = size
  messageType : f.message.messageType = type
  pending : 0 < f.readRemaining.toNat
  remaining : f.readRemaining.toNat + received.length = size.toNat
  forward : f.cursor.forwardLength = f.readRemaining
  position : f.cursor.ptrBuffer = received.length
  length : f.message.buffer.length = size
  capacity : size.toNat ≤ f.message.buffer.block.length
  cells : f.message.buffer.block.take received.length = received

/-- A message whose buffer holds a payload of the announced size. -/
structure Assembled (payload : List Byte) (size : BitVec 64) (type : BitVec 32)
    (m : TcpMessage) : Prop where
  messageSize : m.messageSize = size
  messageType : m.messageType = type
  length : m.buffer.length = size
  contents : m.buffer.contents = payload
  complete : payload.length = size.toNat

/-- A call of `recv` in the payload loop asks for no more than is missing, into
cells of the buffer, and the jump over what it returns does not wrap. -/
structure InBounds (size : BitVec 64) (f : ReadFrame) : Prop where
  counted : f.readRemaining = f.cursor.forwardLength
  requested : f.requested = min f.readRemaining.toNat MAX_PACKET_SIZE.toNat
  inside : 0 ≤ f.cursor.ptrBuffer ∧ f.cursor.ptrBuffer + f.requested ≤ size.toNat
  room : ∀ n ≤ f.requested, f.cursor.forwardLength ≥ BitVec.ofNat 64 n

namespace Assembling

variable {received chunk : List Byte} {size : BitVec 64} {type : BitVec 32} {f : ReadFrame}

theorem requested_eq (h : Assembling received size type f) :
    f.requested = min f.readRemaining.toNat MAX_PACKET_SIZE.toNat := by
  simp only [ReadFrame.requested, h.state]
  split <;> bv_omega

theorem requested_pos (h : Assembling received size type f) : 0 < f.requested := by
  have hpending := h.pending
  have hpacket : MAX_PACKET_SIZE.toNat = 65536 := by decide
  rw [h.requested_eq]
  omega

theorem requested_le (h : Assembling received size type f) :
    f.requested ≤ f.readRemaining.toNat := by
  rw [h.requested_eq]
  exact min_le_left _ _

theorem forward_ge (h : Assembling received size type f) {n : ℕ}
    (hn : n ≤ f.readRemaining.toNat) : f.cursor.forwardLength ≥ BitVec.ofNat 64 n := by
  have hbound := f.readRemaining.isLt
  rw [h.forward]
  simp only [ge_iff_le, BitVec.le_def, BitVec.toNat_ofNat]
  omega

theorem inBounds (h : Assembling received size type f) : InBounds size f where
  counted := h.forward.symm
  requested := h.requested_eq
  inside := by
    have hrequested := h.requested_le
    have hremaining := h.remaining
    rw [h.position]
    omega
  room n hn := h.forward_ge (hn.trans h.requested_le)

theorem remaining_sub (h : Assembling received size type f)
    (hle : chunk.length ≤ f.readRemaining.toNat) :
    (f.readRemaining - BitVec.ofNat 64 chunk.length).toNat =
      f.readRemaining.toNat - chunk.length := by
  have hbound := f.readRemaining.isLt
  rw [BitVec.toNat_sub_of_le]
  · simp only [BitVec.toNat_ofNat]
    omega
  · rw [← h.forward]
    exact h.forward_ge hle

theorem jumpForward_eq (h : Assembling received size type f)
    (hle : chunk.length ≤ f.readRemaining.toNat) :
    f.cursor.jumpForward (BitVec.ofNat 64 chunk.length) =
      { ptrBuffer := (received ++ chunk).length
        forwardLength := f.readRemaining - BitVec.ofNat 64 chunk.length
        backwardLength := f.cursor.backwardLength + BitVec.ofNat 64 chunk.length } := by
  have hbound := f.readRemaining.isLt
  have hsmall : (BitVec.ofNat 64 chunk.length).toNat = chunk.length := by
    rw [BitVec.toNat_ofNat]
    omega
  rw [BufferCursor.jumpForward, if_pos (h.forward_ge hle), h.position, h.forward, hsmall]
  simp

theorem cells_store (h : Assembling received size type f)
    (hle : chunk.length ≤ f.readRemaining.toNat) :
    (store f.message.buffer.block received.length chunk).take (received ++ chunk).length =
      received ++ chunk := by
  have hremaining := h.remaining
  have hcapacity := h.capacity
  rw [store_eq_of_fits (by omega), h.cells]
  exact List.take_left

/-- One call of `recv` in the payload loop: the loop goes on in step, or the
message is assembled. -/
theorem receive (alloc : Allocator) (order : ByteOrder) (h : Assembling received size type f)
    (hle : chunk.length ≤ f.readRemaining.toNat) :
    (∃ f', f.receive alloc order (.data chunk) = .receiving f' ∧
      Assembling (received ++ chunk) size type f') ∨
    (∃ m, f.receive alloc order (.data chunk) = .returned m ∧
      Assembled (received ++ chunk) size type m) := by
  have hremaining := h.remaining
  have hcapacity := h.capacity
  have hleft := h.remaining_sub hle
  have hcells := h.cells_store hle
  have hoffset : f.cursor.ptrBuffer.toNat = received.length := by
    rw [h.position]
    simp
  have hblock : (f.message.buffer.withBlock
      (store f.message.buffer.block received.length chunk)).block =
      store f.message.buffer.block received.length chunk :=
    Buffer.block_withBlock (by simp)
  have htotal : (received ++ chunk).length = received.length + chunk.length :=
    List.length_append
  simp only [ReadFrame.receive, h.state, hoffset, h.jumpForward_eq hle]
  by_cases hmore : f.readRemaining - BitVec.ofNat 64 chunk.length > 0
  · left
    rw [if_pos hmore]
    have hmore' : 0 < f.readRemaining.toNat - chunk.length := by
      rw [← hleft]
      bv_omega
    refine ⟨_, rfl, ?_⟩
    exact
      { state := rfl
        messageSize := h.messageSize
        messageType := h.messageType
        pending := by rw [hleft]; exact hmore'
        remaining := by rw [hleft]; omega
        forward := rfl
        position := rfl
        length := by rw [Buffer.length_withBlock]; exact h.length
        capacity := by rw [hblock, length_store]; exact hcapacity
        cells := by rw [hblock]; exact hcells }
  · right
    rw [if_neg hmore]
    have hdone : f.readRemaining.toNat - chunk.length = 0 := by
      rw [← hleft]
      bv_omega
    have hend : (received ++ chunk).length = size.toNat := by omega
    refine ⟨_, rfl, ?_⟩
    refine
      { messageSize := h.messageSize
        messageType := h.messageType
        length := by rw [Buffer.length_withBlock]; exact h.length
        contents := ?_
        complete := hend }
    rw [Buffer.contents, Buffer.cellsAt, hblock, Buffer.length_withBlock, h.length, ← hend]
    exact hcells

end Assembling

/-- The way into the payload loop of a fresh message whose allocation succeeds. -/
theorem enterMessage_assembles {message : TcpMessage} (hfresh : message.buffer = Buffer.fresh)
    (hprovides : alloc.Provides message.messageSize) :
    (∃ f, ReadFrame.enterMessage alloc message = .receiving f ∧
      Assembling [] message.messageSize message.messageType f) ∨
    (∃ m, ReadFrame.enterMessage alloc message = .returned m ∧
      Assembled [] message.messageSize message.messageType m) := by
  have hcapacity := Buffer.size_le_length_block hprovides
  rw [ReadFrame.enterMessage, hfresh, Buffer.allocate_fresh hprovides]
  by_cases hmore : message.messageSize > 0
  · left
    refine ⟨_, if_pos hmore, ?_⟩
    exact
      { state := rfl
        messageSize := rfl
        messageType := rfl
        pending := by bv_omega
        remaining := by simp
        forward := rfl
        position := rfl
        length := rfl
        capacity := hcapacity
        cells := by simp }
  · right
    have hzero : message.messageSize.toNat = 0 := by bv_omega
    refine ⟨_, if_neg hmore, ?_⟩
    exact
      { messageSize := rfl
        messageType := rfl
        length := rfl
        contents := by simp [Buffer.contents, Buffer.cellsAt, Buffer.allocated, hzero]
        complete := by simp [hzero] }

/-! ## The whole loop -/

/-- `recv` hands out a payload: the call with number `call` returns the next
`lengths call` bytes of it.  The state is the number of the next call, with the
bytes that are left. -/
def delivering (lengths : ℕ → ℕ) : Channel (ℕ × List Byte) where
  recv s _ := some (.data (s.2.take (lengths s.1)), (s.1 + 1, s.2.drop (lengths s.1)))

/-- A call reached by the loop returns between one byte and the number of bytes
requested, whatever the call. -/
def Answers (alloc : Allocator) (order : ByteOrder) (lengths : ℕ → ℕ)
    (start : ReadProgress × (ℕ × List Byte)) : Prop :=
  ∀ calls f call left,
    readFrom alloc order (delivering lengths) calls start = (.receiving f, (call, left)) →
      1 ≤ lengths call ∧ lengths call ≤ f.requested

/-- Where the loop is after some calls: in step with the part of the payload it
has received, or done with all of it. -/
inductive Delivered (payload : List Byte) (size : BitVec 64) (type : BitVec 32) :
    ReadProgress × (ℕ × List Byte) → Prop
  | receiving {received left : List Byte} {f : ReadFrame} {call : ℕ}
      (hloop : Assembling received size type f) (hsplit : received ++ left = payload) :
      Delivered payload size type (.receiving f, (call, left))
  | returned {m : TcpMessage} {call : ℕ} (hdone : Assembled payload size type m) :
      Delivered payload size type (.returned m, (call, []))

section Delivery

variable {lengths : ℕ → ℕ} {payload : List Byte} {size : BitVec 64} {type : BitVec 32}

theorem delivered_receive {f : ReadFrame} {call : ℕ} {left : List Byte}
    (hpayload : payload.length = size.toNat)
    (h : Delivered payload size type (.receiving f, (call, left)))
    (hpos : 1 ≤ lengths call) (hle : lengths call ≤ f.requested) :
    Delivered payload size type
        (f.receive alloc order (.data (left.take (lengths call))),
          (call + 1, left.drop (lengths call))) ∧
      (left.drop (lengths call)).length < left.length := by
  cases h with
  | @receiving received _ _ _ hloop hsplit =>
      have hremaining := hloop.remaining
      have hrequested := hloop.requested_le
      have hpending := hloop.pending
      have hlengths := congrArg List.length hsplit
      rw [List.length_append] at hlengths
      have hroom : lengths call ≤ left.length := by omega
      have hchunk : (left.take (lengths call)).length = lengths call := by
        rw [List.length_take]
        omega
      have hfits : (left.take (lengths call)).length ≤ f.readRemaining.toNat := by omega
      constructor
      · rcases hloop.receive alloc order hfits with
          ⟨f', hf', hnext⟩ | ⟨m, hm, hdone⟩
        · rw [hf']
          refine .receiving hnext ?_
          rw [List.append_assoc, List.take_append_drop, hsplit]
        · have hlast := hdone.complete
          rw [List.length_append, hchunk] at hlast
          have hall : left.length ≤ lengths call := by omega
          rw [hm, List.drop_of_length_le hall]
          refine .returned ?_
          rwa [List.take_of_length_le hall, hsplit] at hdone
      · rw [List.length_drop]
        omega

theorem Answers.tail {f : ReadFrame} {call : ℕ} {left : List Byte}
    (hanswers : Answers alloc order lengths (.receiving f, (call, left))) :
    Answers alloc order lengths
      (f.receive alloc order (.data (left.take (lengths call))),
        (call + 1, left.drop (lengths call))) := by
  intro calls f' call' left' hrun
  apply hanswers (calls + 1) f' call' left'
  rw [← hrun]
  exact readFrom_succ calls rfl

theorem delivered_readFrom {start : ReadProgress × (ℕ × List Byte)}
    (hpayload : payload.length = size.toNat) (hanswers : Answers alloc order lengths start)
    (hstart : Delivered payload size type start) (calls : ℕ) :
    Delivered payload size type (readFrom alloc order (delivering lengths) calls start) := by
  induction calls generalizing start with
  | zero => rwa [readFrom_zero]
  | succ calls ih =>
      obtain ⟨progress, call, left⟩ := start
      cases progress with
      | receiving f =>
          obtain ⟨hpos, hle⟩ := hanswers 0 f call left rfl
          rw [readFrom_succ calls rfl]
          exact ih hanswers.tail (delivered_receive hpayload hstart hpos hle).1
      | returned m => exact hstart
      | failed what m => exact hstart
      | escaped thrown m => exact hstart

/-- The loop ends after at most one call for each byte that is left. -/
theorem exists_delivered {start : ReadProgress} {call : ℕ} {left : List Byte}
    (hpayload : payload.length = size.toNat)
    (hanswers : Answers alloc order lengths (start, (call, left)))
    (hstart : Delivered payload size type (start, (call, left))) :
    ∃ calls m, calls ≤ left.length ∧
      readFrom alloc order (delivering lengths) calls (start, (call, left)) =
        (.returned m, (call + calls, [])) ∧
      Assembled payload size type m := by
  generalize hmeasure : left.length = bytes
  induction bytes using Nat.strong_induction_on generalizing start call left with
  | h bytes ih =>
      cases hstart with
      | @receiving _ _ f _ hloop hsplit =>
          obtain ⟨hpos, hle⟩ := hanswers 0 f call left rfl
          obtain ⟨hnext, hshorter⟩ :=
            delivered_receive hpayload (.receiving hloop hsplit) hpos hle
          obtain ⟨calls, m, hcalls, hrun, hdone⟩ :=
            ih _ (by omega) hanswers.tail hnext rfl
          refine ⟨calls + 1, m, by omega, ?_, hdone⟩
          rw [readFrom_succ calls rfl, hrun, Nat.add_right_comm, Nat.add_assoc]
      | returned hdone => exact ⟨0, _, Nat.zero_le _, rfl, hdone⟩

/-- However `recv` cuts a payload into pieces, the payload loop of a message
whose allocation succeeds asks at every call for cells of its buffer, in step
with its counter and without a wrap, and it ends, with the payload in the
buffer, after at most as many calls as there are bytes. -/
theorem payload_assembled {message : TcpMessage} {buffer : Buffer}
    (hfresh : message.buffer = Buffer.fresh)
    (hallocate : message.buffer.Allocate alloc message.messageSize = .ok (buffer, 0))
    (hpayload : payload.length = message.messageSize.toNat)
    (hanswers : Answers alloc order lengths
      (ReadFrame.enterMessage alloc message, (0, payload))) :
    (∀ calls f rest,
      readFrom alloc order (delivering lengths) calls
          (ReadFrame.enterMessage alloc message, (0, payload)) = (.receiving f, rest) →
        f.state = .MESSAGE ∧ InBounds message.messageSize f) ∧
    ∃ calls m, calls ≤ payload.length ∧
      readFrom alloc order (delivering lengths) calls
          (ReadFrame.enterMessage alloc message, (0, payload)) = (.returned m, (calls, [])) ∧
      m.buffer.contents = payload := by
  have hstart : Delivered payload message.messageSize message.messageType
      (ReadFrame.enterMessage alloc message, (0, payload)) := by
    rw [hfresh] at hallocate
    obtain ⟨hprovides, _⟩ := Buffer.allocate_fresh_eq_ok_iff.mp hallocate
    rcases enterMessage_assembles hfresh hprovides with ⟨f, hf, hloop⟩ | ⟨m, hm, hdone⟩
    · rw [hf]
      exact .receiving hloop (List.nil_append payload)
    · have hnil : payload = [] := by
        rw [← List.length_eq_zero_iff, hpayload, ← hdone.complete]
        rfl
      rw [hm, hnil]
      exact .returned hdone
  constructor
  · intro calls f rest hrun
    have hreached := delivered_readFrom hpayload hanswers hstart calls
    rw [hrun] at hreached
    cases hreached with
    | receiving hloop _ => exact ⟨hloop.state, hloop.inBounds⟩
  · obtain ⟨calls, m, hcalls, hrun, hdone⟩ := exists_delivered hpayload hanswers hstart
    rw [Nat.zero_add] at hrun
    exact ⟨calls, m, hcalls, hrun, hdone.contents⟩

/-- Two bytes that arrive one by one. -/
theorem payload_assembled_two :
    ∃ calls m, calls ≤ 2 ∧
      readFrom Allocator.zeroed .little (delivering fun _ => 1) calls
          (ReadFrame.enterMessage Allocator.zeroed (TcpMessage.fresh 2 0), (0, [7, 8])) =
        (.returned m, (calls, [])) ∧
      m.buffer.contents = [7, 8] := by
  have hallocate : (TcpMessage.fresh 2 0).buffer.Allocate Allocator.zeroed 2 =
      .ok (Buffer.allocated Allocator.zeroed 2, 0) := by decide
  have hanswers : Answers Allocator.zeroed .little (fun _ => 1)
      (ReadFrame.enterMessage Allocator.zeroed (TcpMessage.fresh 2 0), (0, [7, 8])) := by
    intro calls f call left hrun
    match calls with
    | 0 =>
        cases hrun
        decide
    | 1 =>
        cases hrun
        decide
    | calls + 2 => cases calls <;> cases hrun
  exact (payload_assembled rfl hallocate rfl hanswers).2

end Delivery

end ControlEngine
