import ControlEngine.Socket.Reassembly
import ControlEngine.System.Client

/-!
# What a peer can do to the reader thread

A call of `readData` ends in the loop of `NetworkReaderController::startThread`,
inside the `catch` clauses of that function and of `ThreadContainer`.  Both take
exceptions derived from `std::exception` only.  A failing `recv` throws one, after
`closeSocket`; a failing allocation throws a string literal, which passes both
clauses and terminates the process.

`Served` is the invariant of one call on a peer that sends whole header fields.
It leaves no other way out of the call than the filled message, the exception of
a loop, and the literal thrown for a size that the allocator does not provide.
-/

namespace ControlEngine

/-! ## The handlers around a call -/

/-- How a call of `readData` is left: the connection status, and what is returned
or thrown.  The loops throw after `closeSocket` has cleared the status. -/
def ReadProgress.left : ReadProgress → Option (Bool × Except Thrown ℤ)
  | .receiving _ => none
  | .returned _ => some (true, .ok 0)
  | .failed what _ => some (false, .error (.exception what))
  | .escaped thrown _ => some (true, .error thrown)

/-- The client that a call leaves behind.  The loops call `closeSocket` before they throw, and
`readData` changes the client nowhere else. -/
def ReadProgress.clientLeft (c : Client) : ReadProgress → Client
  | .failed _ _ => (c.closeFrom 3 (some .clear)).1
  | _ => c

/-- The status in `left` is that of the client that is left behind. -/
theorem ReadProgress.connectionStatus_clientLeft {c : Client} {progress : ReadProgress}
    {connectionStatus : Bool} {result : Except Thrown ℤ} (hconnected : c.connectionStatus = true)
    (hleft : progress.left = some (connectionStatus, result)) :
    (progress.clientLeft c).connectionStatus = connectionStatus := by
  cases progress with
  | receiving f => cases hleft
  | returned m =>
      cases hleft
      exact hconnected
  | failed what m =>
      cases hleft
      rw [clientLeft, Client.closeFrom_clear]
      rfl
  | escaped thrown m =>
      cases hleft
      exact hconnected

/-- The body of `NetworkReaderController::startThread` around a call of
`readData`: what it returns or lets pass, or `none` when its loop goes on. -/
def NetworkReaderController.startThread : Except Thrown ℤ → Option (Except Thrown ℤ)
  | .ok _ => none
  | .error (.exception _) => some (.ok 1)
  | .error (.literal text) => some (.error (.literal text))

/-- `ThreadContainer::threadRuntime`: the recorded status, or `none` when nothing
catches what was thrown and the process is terminated. -/
def ThreadContainer.threadRuntime : Except Thrown ℤ → Option ℤ
  | .ok statusCode => some statusCode
  | .error (.exception _) => some 1
  | .error (.literal _) => none

/-- The ways out of `readData` that leave the process alive: the message is filled
and the loop of the reader goes on, or the socket is closed and the supervisor
finds status `1`. -/
def LeavesSafely (order : ByteOrder) (p : Peer) (progress : ReadProgress) : Prop :=
  ∀ connectionStatus result, progress.left = some (connectionStatus, result) →
    (result = .ok 0 ∧ NetworkReaderController.startThread result = none ∧
      ∃ m, progress = .returned m ∧
        Filled p 12 (order.decode 64 (p.slice 0 8)) (order.decode 32 (p.slice 8 4)) m) ∨
    (∃ what, result = .error (.exception what) ∧ connectionStatus = false ∧
      NetworkReaderController.startThread result = some (.ok 1) ∧
      (NetworkReaderController.startThread result).bind ThreadContainer.threadRuntime = some 1)

/-! ## One call, from the first byte on -/

variable {alloc : Allocator} {order : ByteOrder} {p : Peer}

/-- The points of a call of `readData` on a peer whose header fields arrive
whole. -/
inductive Served (alloc : Allocator) (order : ByteOrder) (p : Peer) :
    ReadProgress × ℕ → Prop
  | size {f : ReadFrame} (hstate : f.state = .MESSAGE_SIZE) (hremaining : f.readRemaining = 8)
      (hfresh : f.message.buffer = Buffer.fresh) : Served alloc order p (.receiving f, 0)
  | type {f : ReadFrame} (hstate : f.state = .MESSAGE_TYPE) (hremaining : f.readRemaining = 4)
      (hfresh : f.message.buffer = Buffer.fresh)
      (hsize : f.message.messageSize = order.decode 64 (p.slice 0 8)) :
      Served alloc order p (.receiving f, 8)
  | starved {f : ReadFrame} {pos : ℕ} (hpending : f.readRemaining > 0)
      (hend : p.stream.length ≤ pos) (hshort : p.stream.length < 12) :
      Served alloc order p (.receiving f, pos)
  | payload {f : ReadFrame} {pos : ℕ}
      (hloop : Reassembling p 12 (order.decode 64 (p.slice 0 8))
        (order.decode 32 (p.slice 8 4)) f pos) : Served alloc order p (.receiving f, pos)
  | returned {m : TcpMessage} {pos : ℕ}
      (hfilled : Filled p 12 (order.decode 64 (p.slice 0 8)) (order.decode 32 (p.slice 8 4)) m) :
      Served alloc order p (.returned m, pos)
  | failed {what : String} {m : TcpMessage} {pos : ℕ} : Served alloc order p (.failed what m, pos)
  | escaped {text : String} {m : TcpMessage} {pos : ℕ} (hwhole : 12 ≤ p.stream.length)
      (hrefused : ¬ alloc.Provides (order.decode 64 (p.slice 0 8))) :
      Served alloc order p (.escaped (.literal text) m, pos)

theorem served_readData (size : BitVec 64) (type : BitVec 32) :
    Served alloc order p (readData true (TcpMessage.fresh size type), 0) :=
  .size rfl rfl rfl

theorem Served.pending {f : ReadFrame} {pos : ℕ}
    (h : Served alloc order p (.receiving f, pos)) : f.readRemaining > 0 := by
  cases h with
  | size hstate hremaining hfresh => simp [hremaining]
  | type hstate hremaining hfresh hsize => simp [hremaining]
  | starved hpending hend hshort => exact hpending
  | payload hloop =>
      have hpending := hloop.pending
      bv_omega

/-- After the last byte a loop that waits keeps waiting, or fails. -/
theorem receive_ending (alloc : Allocator) (order : ByteOrder) {f : ReadFrame}
    {ending : Ending} {result : RecvResult} (hpending : f.readRemaining > 0)
    (hresult : ending.result = some result) :
    f.receive alloc order result = .receiving f ∨
      ∃ what, f.receive alloc order result = .failed what f.message := by
  cases ending with
  | blocks => cases hresult
  | shutDown =>
      cases hresult
      left
      rw [ReadFrame.receive_data_eq, ReadFrame.accept_nil, if_pos hpending]
  | fails =>
      cases hresult
      right
      exact ⟨_, rfl⟩

/-- The rest of a stream that ends inside a header field of `width` bytes. -/
theorem served_starved (width : ℕ) {f : ReadFrame} {pos : ℕ} {piece : List Byte}
    (hremaining : f.readRemaining = BitVec.ofNat 64 width) (hwidth : width < 2 ^ 64)
    (hpiece : piece.length < width) (hend : p.stream.length ≤ pos)
    (hshort : p.stream.length < 12) :
    Served alloc order p (f.receive alloc order (.data piece), pos) := by
  have hmore : (f.accept order piece).readRemaining > 0 := by
    rw [ReadFrame.readRemaining_accept, hremaining]
    bv_omega
  rw [ReadFrame.receive_data_eq, if_pos hmore]
  exact .starved hmore hend hshort

/-- Behind the type field: the payload loop, the filled empty message, or the
literal of a refused allocation. -/
theorem served_enterMessage {m : TcpMessage} (hfresh : m.buffer = Buffer.fresh)
    (hsize : m.messageSize = order.decode 64 (p.slice 0 8))
    (htype : m.messageType = order.decode 32 (p.slice 8 4))
    (hwhole : 12 ≤ p.stream.length) :
    Served alloc order p (ReadFrame.enterMessage alloc m, 12) := by
  by_cases hprovides : alloc.Provides m.messageSize
  · rcases enterMessage_cases p 12 hfresh hprovides with
      ⟨f, hf, hloop⟩ | ⟨m', hm', hfilled, -⟩
    · rw [hsize, htype] at hloop
      rw [hf]
      exact .payload hloop
    · rw [hsize, htype] at hfilled
      rw [hm']
      exact .returned hfilled
  · have hthrown : ReadFrame.enterMessage alloc m = .escaped (.literal mallocError) m := by
      rw [ReadFrame.enterMessage, hfresh, Buffer.allocate_fresh_of_not_provides hprovides]
    rw [hthrown]
    rw [hsize] at hprovides
    exact .escaped hwhole hprovides

theorem served_receive (hsizeUncut : Uncut p.cut 0 8) (htypeUncut : Uncut p.cut 8 12)
    {f : ReadFrame} {pos pos' : ℕ} {result : RecvResult}
    (h : Served alloc order p (.receiving f, pos))
    (hrecv : p.channel.recv pos f.requested = some (result, pos')) :
    Served alloc order p (f.receive alloc order result, pos') := by
  rcases Peer.recv_cases hrecv with ⟨-, hrest, rfl, rfl⟩ | ⟨hresult, rfl⟩
  · cases h with
    | size hstate hremaining hfresh =>
        have hrequested : f.requested = 8 := by simp only [ReadFrame.requested, hstate]
        rw [hrequested]
        by_cases hwhole : 8 ≤ p.stream.length
        · rw [p.chunkLength_eq (by simpa using hsizeUncut) (by omega),
            receive_size_whole hstate hremaining (p.length_slice (by omega))]
          exact .type rfl rfl hfresh rfl
        · rw [p.chunkLength_eq_rest (by simpa using hsizeUncut) (by omega)]
          have hpiece : (p.slice 0 (p.stream.length - 0)).length = p.stream.length - 0 :=
            p.length_slice le_rfl
          exact served_starved 8 hremaining (by norm_num) (by omega) (by omega) (by omega)
    | type hstate hremaining hfresh hsize =>
        have hrequested : f.requested = 4 := by simp only [ReadFrame.requested, hstate]
        rw [hrequested]
        by_cases hwhole : 12 ≤ p.stream.length
        · rw [p.chunkLength_eq (by simpa using htypeUncut) (by omega),
            receive_type_whole hstate hremaining (p.length_slice (by omega))]
          exact served_enterMessage hfresh hsize rfl hwhole
        · rw [p.chunkLength_eq_rest (by simpa using htypeUncut) (by omega)]
          have hpiece : (p.slice 8 (p.stream.length - 8)).length = p.stream.length - 8 :=
            p.length_slice le_rfl
          exact served_starved 4 hremaining (by norm_num) (by omega) (by omega) (by omega)
    | starved hpending hend hshort => omega
    | payload hloop =>
        rcases hloop.receive alloc order hrest with ⟨f', hf', hnext⟩ | ⟨m, hm, hfilled, -⟩
        · rw [hf']
          exact .payload hnext
        · rw [hm]
          exact .returned hfilled
  · rcases receive_ending alloc order h.pending hresult with
      hsame | ⟨what, hfailed⟩
    · rw [hsame]
      exact h
    · rw [hfailed]
      exact .failed

theorem served_readFrom (hsizeUncut : Uncut p.cut 0 8) (htypeUncut : Uncut p.cut 8 12)
    (size : BitVec 64) (type : BitVec 32) (calls : ℕ) :
    Served alloc order p
      (readFrom alloc order p.channel calls (readData true (TcpMessage.fresh size type), 0)) :=
  readFrom_invariant (fun _ _ _ _ h hrecv => served_receive hsizeUncut htypeUncut h hrecv)
    calls (served_readData size type)

/-- A point of the call is safe unless the literal has been thrown. -/
theorem Served.leavesSafely {progress : ReadProgress} {pos : ℕ}
    (h : Served alloc order p (progress, pos))
    (hprovides : 12 ≤ p.stream.length → alloc.Provides (order.decode 64 (p.slice 0 8))) :
    LeavesSafely order p progress := by
  intro connectionStatus result hleft
  cases h with
  | size => cases hleft
  | type => cases hleft
  | starved => cases hleft
  | payload => cases hleft
  | returned hfilled =>
      cases hleft
      exact Or.inl ⟨rfl, rfl, _, rfl, hfilled⟩
  | failed =>
      cases hleft
      exact Or.inr ⟨_, rfl, rfl, rfl, rfl⟩
  | escaped hwhole hrefused => exact absurd (hprovides hwhole) hrefused

/-- The second call of `recv` hands a refused size to `Allocate`, and the literal
that it throws leaves the call. -/
theorem not_leavesSafely_of_refused (hsizeUncut : Uncut p.cut 0 8)
    (htypeUncut : Uncut p.cut 8 12) (hwhole : 12 ≤ p.stream.length)
    (hrefused : ¬ alloc.Provides (order.decode 64 (p.slice 0 8)))
    (size : BitVec 64) (type : BitVec 32) :
    ¬ LeavesSafely order p
      (readFrom alloc order p.channel 2 (readData true (TcpMessage.fresh size type), 0)).1 := by
  intro hsafe
  rw [readFrom_header 0 _ hsizeUncut htypeUncut (by omega), readFrom_zero,
    ReadFrame.enterMessage] at hsafe
  simp only [TcpMessage.fresh, Buffer.allocate_fresh_of_not_provides hrefused] at hsafe
  rcases hsafe true (.error (.literal mallocError)) rfl with
    ⟨hreturned, -⟩ | ⟨what, hexception, -⟩
  · cases hreturned
  · cases hexception

/-- A peer whose header fields arrive whole cannot take the process down exactly if
the allocator provides the size that it announces. -/
theorem leavesSafely_iff_provides (alloc : Allocator) (order : ByteOrder) (p : Peer)
    (size : BitVec 64) (type : BitVec 32)
    (hsizeUncut : Uncut p.cut 0 8) (htypeUncut : Uncut p.cut 8 12) :
    (∀ calls, LeavesSafely order p
      (readFrom alloc order p.channel calls (readData true (TcpMessage.fresh size type), 0)).1) ↔
      (12 ≤ p.stream.length → alloc.Provides (order.decode 64 (p.slice 0 8))) := by
  constructor
  · intro hsafe hwhole
    by_contra hrefused
    exact not_leavesSafely_of_refused hsizeUncut htypeUncut hwhole hrefused size type (hsafe 2)
  · intro hprovides calls
    exact (served_readFrom hsizeUncut htypeUncut size type calls).leavesSafely hprovides

/-- A peer that announces `2 ^ 64 - 1` bytes, which is `-1` as a `long`. -/
def negativeLength : Peer where
  stream := List.replicate 8 0xff ++ List.replicate 4 0
  cut := fun _ => false
  ending := .blocks

theorem leavesSafely_iff_provides_negativeLength :
    (∀ calls, LeavesSafely .little negativeLength
      (readFrom Allocator.zeroed .little negativeLength.channel calls
        (readData true (TcpMessage.fresh 0 0), 0)).1) ↔
      (12 ≤ negativeLength.stream.length →
        Allocator.zeroed.Provides (ByteOrder.little.decode 64 (negativeLength.slice 0 8))) :=
  leavesSafely_iff_provides _ _ _ 0 0 (fun _ _ _ => rfl) (fun _ _ _ => rfl)

theorem not_leavesSafely_negativeLength :
    ¬ LeavesSafely .little negativeLength
      (readFrom Allocator.zeroed .little negativeLength.channel 2
        (readData true (TcpMessage.fresh 0 0), 0)).1 := by
  apply not_leavesSafely_of_refused (fun _ _ _ => rfl) (fun _ _ _ => rfl) (by decide)
  simp [Allocator.Provides]
  decide

end ControlEngine
