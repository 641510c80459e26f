import ControlEngine.Socket.TcpMessage

/-!
# Reading one message

`readData` is three accumulation loops, one for each field of a frame, over one
unsigned counter.  Everything it does between two calls of `recv` depends on
nothing but the result of the first of them, so the function is modelled as a
machine whose states are the points at which it calls `recv`: `ReadFrame` holds
its local variables there, and `receive` is the code from one call to the next.

In the two header loops the destination and the requested size are those of the
whole field at every turn; only the counter moves on.  The payload loop advances
its cursor as well.

A `Channel` answers the calls.  `readFrom` lets the machine make a given number
of them, so that a law about every moment of a call, and one about its end, are
both statements about a number of calls.
-/

namespace ControlEngine

/-- What a call of `recv` reports: the bytes it stored, none of them when the
peer has shut the connection down, or the value `-1`. -/
inductive RecvResult
  | data (chunk : List Byte)
  | error
deriving DecidableEq, Repr

/-- `CurrentReadingState`. -/
inductive CurrentReadingState
  | MESSAGE_SIZE
  | MESSAGE_TYPE
  | MESSAGE
deriving DecidableEq, Repr

/-- `MAX_PACKET_SIZE`. -/
def MAX_PACKET_SIZE : SizeT := 64 * 1024

/-- The variables of `readData` at a call of `recv`.  The cursor is meaningful in
the payload loop only. -/
structure ReadFrame where
  state : CurrentReadingState
  readRemaining : SizeT
  message : TcpMessage
  cursor : BufferCursor
deriving DecidableEq, Repr

/-- How far `readData` has come. -/
inductive ReadProgress
  /-- It calls `recv` next. -/
  | receiving (f : ReadFrame)
  /-- It has returned `0`. -/
  | returned (message : TcpMessage)
  /-- `recv` has failed: it closes the socket and throws a `runtime_error`. -/
  | failed (what : String) (message : TcpMessage)
  /-- `Allocate` has thrown, and nothing has been closed. -/
  | escaped (thrown : Thrown) (message : TcpMessage)
deriving DecidableEq, Repr

/-- The text of the `runtime_error` thrown in a loop. -/
def CurrentReadingState.failure : CurrentReadingState → String
  | MESSAGE_SIZE => "Failing Reading MESSAGE_SIZE"
  | MESSAGE_TYPE => "Failing Reading MESSAGE_TYPE"
  | MESSAGE => "Failing Reading MESSAGE"

/-- The bytes of a header field after `recv` has stored a chunk at its start. -/
def receiveField (order : ByteOrder) {n : ℕ} (width : ℕ) (field : BitVec n)
    (chunk : List Byte) : BitVec n :=
  order.decode n (store (order.encode width field) 0 chunk)

namespace ReadFrame

/-- The size passed to `recv`. -/
def requested (f : ReadFrame) : ℕ :=
  match f.state with
  | .MESSAGE_SIZE => 8
  | .MESSAGE_TYPE => 4
  | .MESSAGE =>
      (if f.readRemaining > MAX_PACKET_SIZE then MAX_PACKET_SIZE else f.readRemaining).toNat

/-- The way into the payload loop: `readRemaining` is the announced size, and the
buffer is allocated. -/
def enterMessage (alloc : Allocator) (message : TcpMessage) : ReadProgress :=
  match message.buffer.Allocate alloc message.messageSize with
  | .error thrown => .escaped thrown message
  | .ok (buffer, _) =>
      if message.messageSize > 0 then
        .receiving
          { state := .MESSAGE
            readRemaining := message.messageSize
            message := { message with buffer }
            cursor := buffer.getBufferCursor }
      else
        .returned { message with buffer }

/-- From one call of `recv` to the next, or to the end of `readData`. -/
def receive (alloc : Allocator) (order : ByteOrder) (f : ReadFrame) :
    RecvResult → ReadProgress
  | .error => .failed f.state.failure f.message
  | .data chunk =>
      let readRemaining := f.readRemaining - BitVec.ofNat 64 chunk.length
      match f.state with
      | .MESSAGE_SIZE =>
          let message :=
            { f.message with
              messageSize := receiveField order 8 f.message.messageSize chunk }
          if readRemaining > 0 then
            .receiving { f with readRemaining, message }
          else
            .receiving { f with state := .MESSAGE_TYPE, readRemaining := 4, message }
      | .MESSAGE_TYPE =>
          let message :=
            { f.message with
              messageType := receiveField order 4 f.message.messageType chunk }
          if readRemaining > 0 then
            .receiving { f with readRemaining, message }
          else
            enterMessage alloc message
      | .MESSAGE =>
          let cells := store f.message.buffer.block f.cursor.ptrBuffer.toNat chunk
          let message := { f.message with buffer := f.message.buffer.withBlock cells }
          let cursor := f.cursor.jumpForward (BitVec.ofNat 64 chunk.length)
          if readRemaining > 0 then
            .receiving { f with readRemaining, message, cursor }
          else
            .returned message

end ReadFrame

/-- `readData` up to its first call of `recv`: nothing is read when the client is
not connected. -/
def readData (connectionStatus : Bool) (message : TcpMessage) : ReadProgress :=
  if connectionStatus then
    .receiving
      { state := .MESSAGE_SIZE
        readRemaining := 8
        message
        cursor := BufferCursor.ofCapacity 0 }
  else
    .returned message

/-- The other end of `recv`: the answer to a request for a number of bytes, or
`none` when the call blocks. -/
structure Channel (σ : Type*) where
  recv : σ → ℕ → Option (RecvResult × σ)

variable {σ : Type*}

/-- `readData` after at most `calls` further calls of `recv`. -/
def readFrom (alloc : Allocator) (order : ByteOrder) (channel : Channel σ) :
    ℕ → ReadProgress × σ → ReadProgress × σ
  | calls + 1, (.receiving f, s) =>
      match channel.recv s f.requested with
      | none => (.receiving f, s)
      | some (result, s') =>
          readFrom alloc order channel calls (f.receive alloc order result, s')
  | _, progress => progress

/-! ## One turn of a loop -/

section Turns

variable {alloc : Allocator} {order : ByteOrder}

namespace ReadFrame

/-- The body of the loop that `f` is in, for a piece that was received. -/
def accept (order : ByteOrder) (f : ReadFrame) (piece : List Byte) : ReadFrame :=
  match f.state with
  | .MESSAGE_SIZE =>
      { f with
        readRemaining := f.readRemaining - BitVec.ofNat 64 piece.length
        message :=
          { f.message with
            messageSize := receiveField order 8 f.message.messageSize piece } }
  | .MESSAGE_TYPE =>
      { f with
        readRemaining := f.readRemaining - BitVec.ofNat 64 piece.length
        message :=
          { f.message with
            messageType := receiveField order 4 f.message.messageType piece } }
  | .MESSAGE =>
      { f with
        readRemaining := f.readRemaining - BitVec.ofNat 64 piece.length
        message :=
          { f.message with
            buffer := f.message.buffer.withBlock
              (store f.message.buffer.block f.cursor.ptrBuffer.toNat piece) }
        cursor := f.cursor.jumpForward (BitVec.ofNat 64 piece.length) }

/-- The way out of the loop that `f` is in. -/
def leave (alloc : Allocator) (f : ReadFrame) : ReadProgress :=
  match f.state with
  | .MESSAGE_SIZE => .receiving { f with state := .MESSAGE_TYPE, readRemaining := 4 }
  | .MESSAGE_TYPE => enterMessage alloc f.message
  | .MESSAGE => .returned f.message

theorem receive_data_eq (f : ReadFrame) (piece : List Byte) :
    f.receive alloc order (.data piece) =
      if (f.accept order piece).readRemaining > 0 then .receiving (f.accept order piece)
      else (f.accept order piece).leave alloc := by
  cases hstate : f.state <;> simp only [receive, accept, leave, hstate]

theorem readRemaining_accept (order : ByteOrder) (f : ReadFrame) (piece : List Byte) :
    (f.accept order piece).readRemaining =
      f.readRemaining - BitVec.ofNat 64 piece.length := by
  cases hstate : f.state <;> simp only [accept, hstate]

theorem accept_nil (f : ReadFrame) : f.accept order [] = f := by
  obtain ⟨state, readRemaining, message, cursor⟩ := f
  cases state with
  | MESSAGE_SIZE =>
      have hsize : receiveField order 8 message.messageSize [] = message.messageSize :=
        order.decode_encode rfl _
      simp [accept, hsize]
  | MESSAGE_TYPE =>
      have htype : receiveField order 4 message.messageType [] = message.messageType :=
        order.decode_encode rfl _
      simp [accept, htype]
  | MESSAGE =>
      have hblock : message.buffer.withBlock message.buffer.block = message.buffer := by
        obtain ⟨allocatedBuffer, _, _, _, _⟩ := message.buffer
        cases allocatedBuffer <;> rfl
      simp [accept, BufferCursor.jumpForward, hblock]

end ReadFrame

end Turns

/-! ## Laws of the runs -/

section Runs

variable {alloc : Allocator} {order : ByteOrder} {channel : Channel σ}

@[simp] theorem readFrom_zero (progress : ReadProgress × σ) :
    readFrom alloc order channel 0 progress = progress := by
  obtain ⟨progress, s⟩ := progress
  cases progress <;> rfl

theorem readFrom_succ {f : ReadFrame} {s s' : σ} {result : RecvResult} (calls : ℕ)
    (hrecv : channel.recv s f.requested = some (result, s')) :
    readFrom alloc order channel (calls + 1) (.receiving f, s) =
      readFrom alloc order channel calls (f.receive alloc order result, s') := by
  rw [readFrom, hrecv]

theorem readFrom_blocked {f : ReadFrame} {s : σ} (calls : ℕ)
    (hrecv : channel.recv s f.requested = none) :
    readFrom alloc order channel calls (.receiving f, s) = (.receiving f, s) := by
  cases calls with
  | zero => rfl
  | succ calls => rw [readFrom, hrecv]

/-- A property of the start that every answered call preserves holds after any
number of calls. -/
theorem readFrom_invariant {inv : ReadProgress × σ → Prop}
    (hstep : ∀ f s result s', inv (.receiving f, s) →
      channel.recv s f.requested = some (result, s') →
      inv (f.receive alloc order result, s'))
    (calls : ℕ) {progress : ReadProgress × σ} (hstart : inv progress) :
    inv (readFrom alloc order channel calls progress) := by
  induction calls generalizing progress with
  | zero => simpa using hstart
  | succ calls ih =>
      obtain ⟨progress, s⟩ := progress
      cases progress with
      | receiving f =>
          cases hrecv : channel.recv s f.requested with
          | none => rwa [readFrom_blocked _ hrecv]
          | some answer =>
              obtain ⟨result, s'⟩ := answer
              rw [readFrom_succ _ hrecv]
              exact ih (hstep f s result s' hstart hrecv)
      | returned message => exact hstart
      | failed what message => exact hstart
      | escaped thrown message => exact hstart

end Runs
end ControlEngine
