import ControlEngine.Socket.Reassembly

/-!
# Frames under any fragmentation

The wire carries the frames of the messages that were sent, one behind the
other.  `ReadsBack` says that successive calls of `readData` on fresh messages
read them back, each call consuming exactly its frame; since the fields of a
fresh message hold anything, the calls have to succeed whatever they hold.

The header loops of `readData` do not advance their destination.  A header field
in pieces therefore leaves the last byte of the field as it was, unless the loop
runs over the end of the field, and then it consumes bytes of what follows.
`Accounts` follows the positions at which the loops of one call begin and end,
and shows that there is no third way.  So the frames are read back exactly when
no cut lies inside a header field; cuts of the payload do no harm.
-/

namespace ControlEngine

open CurrentReadingState

variable {alloc : Allocator} {order : ByteOrder} {p : Peer}

/-- Successive calls of `readData` from position `pos` on read back the messages,
each of them consuming exactly its frame. -/
def ReadsBack (alloc : Allocator) (order : ByteOrder) (p : Peer) :
    ℕ → List TcpMessage → Prop
  | _, [] => True
  | pos, m :: ms =>
      (∀ size type, ∃ calls message,
        readFrom alloc order p.channel calls
            (readData true (TcpMessage.fresh size type), pos) =
          (.returned message, pos + (m.frame order).length) ∧
        message.messageSize = m.messageSize ∧
        message.messageType = m.messageType ∧
        message.buffer.contents = m.buffer.contents) ∧
      ReadsBack alloc order p (pos + (m.frame order).length) ms

/-- No cut lies inside the size or the type of one of the frames. -/
def HeadersUncut (order : ByteOrder) (cut : ℕ → Bool) : ℕ → List TcpMessage → Prop
  | _, [] => True
  | pos, m :: ms =>
      Uncut cut pos (pos + 8) ∧ Uncut cut (pos + 8) (pos + 12) ∧
        HeadersUncut order cut (pos + (m.frame order).length) ms

/-! ## What a header field in pieces leaves behind -/

theorem encode_receiveField {n width i : ℕ} (hwidth : n = 8 * width) (field : BitVec n)
    {chunk : List Byte} (hi : chunk.length ≤ i) :
    (order.encode width (receiveField order width field chunk))[i]? =
      (order.encode width field)[i]? := by
  rw [receiveField, order.encode_decode hwidth (by simp)]
  exact getElem?_store_of_le (by omega)

/-- The size field still has the last byte it had in the fresh message. -/
def KeepsSize (order : ByteOrder) (fresh m : TcpMessage) : Prop :=
  (order.encode 8 m.messageSize)[7]? = (order.encode 8 fresh.messageSize)[7]?

/-- The type field still has the last byte it had in the fresh message. -/
def KeepsType (order : ByteOrder) (fresh m : TcpMessage) : Prop :=
  (order.encode 4 m.messageType)[3]? = (order.encode 4 fresh.messageType)[3]?

/-- A piece shorter than the field leaves its last byte alone. -/
theorem KeepsSize.receiveField {fresh m : TcpMessage} {chunk : List Byte}
    (h : KeepsSize order fresh m) (hshort : chunk.length < 8) :
    KeepsSize order fresh
      { m with messageSize := ControlEngine.receiveField order 8 m.messageSize chunk } :=
  (encode_receiveField rfl _ (by omega)).trans h

theorem KeepsType.receiveField {fresh m : TcpMessage} {chunk : List Byte}
    (h : KeepsType order fresh m) (hshort : chunk.length < 4) :
    KeepsType order fresh
      { m with messageType := ControlEngine.receiveField order 4 m.messageType chunk } :=
  (encode_receiveField rfl _ (by omega)).trans h

/-- The header of a call that began at `pos`: its size loop ended at `first` and
its type loop at `second`, and a field that was cut but ended where it should
has kept its last byte. -/
structure Header (order : ByteOrder) (cut : ℕ → Bool) (pos : ℕ) (fresh m : TcpMessage)
    (first second : ℕ) : Prop where
  size_end : pos + 8 ≤ first
  type_end : first + 4 ≤ second
  size_kept : ¬ Uncut cut pos (pos + 8) → first = pos + 8 → KeepsSize order fresh m
  type_kept : ¬ Uncut cut first (first + 4) → second = first + 4 → KeepsType order fresh m

/-- The positions of a call of `readData` that began at `pos`, loop by loop. -/
inductive Accounts (order : ByteOrder) (cut : ℕ → Bool) (pos : ℕ) (fresh : TcpMessage) :
    ReadProgress × ℕ → Prop
  | size {f : ReadFrame} {q : ℕ} (hstate : f.state = MESSAGE_SIZE) (hq : pos ≤ q)
      (hremaining : f.readRemaining = 8 - BitVec.ofNat 64 (q - pos))
      (htype : f.message.messageType = fresh.messageType)
      (hkept : q < pos + 8 → KeepsSize order fresh f.message) :
      Accounts order cut pos fresh (.receiving f, q)
  | type {f : ReadFrame} {first q : ℕ} (hstate : f.state = MESSAGE_TYPE)
      (hfirst : pos + 8 ≤ first) (hq : first ≤ q)
      (hremaining : f.readRemaining = 4 - BitVec.ofNat 64 (q - first))
      (hsize : ¬ Uncut cut pos (pos + 8) → first = pos + 8 →
        KeepsSize order fresh f.message)
      (hkept : q < first + 4 → KeepsType order fresh f.message) :
      Accounts order cut pos fresh (.receiving f, q)
  | payload {f : ReadFrame} {first second q : ℕ} (hstate : f.state = MESSAGE)
      (hheader : Header order cut pos fresh f.message first second) (hq : second ≤ q)
      (hremaining : f.readRemaining.toNat + (q - second) = f.message.messageSize.toNat) :
      Accounts order cut pos fresh (.receiving f, q)
  | returned {m : TcpMessage} {first second q : ℕ}
      (hheader : Header order cut pos fresh m first second)
      (hq : q = second + m.messageSize.toNat) :
      Accounts order cut pos fresh (.returned m, q)
  | escaped {thrown : Thrown} {m : TcpMessage} {q : ℕ} :
      Accounts order cut pos fresh (.escaped thrown m, q)

variable {cut : ℕ → Bool} {pos : ℕ} {fresh : TcpMessage}

theorem accounts_readData :
    Accounts order cut pos fresh (readData true fresh, pos) :=
  .size rfl le_rfl (by simp) rfl (fun _ => rfl)

/-- A counter that started at `width` and has reached zero has counted at least
`width` bytes. -/
theorem width_le_of_remaining {width count : ℕ} (hwidth : width < 2 ^ 64)
    (hzero : ¬ BitVec.ofNat 64 width - BitVec.ofNat 64 count > 0) : width ≤ count := by
  have heq : BitVec.ofNat 64 count = BitVec.ofNat 64 width := by
    bv_omega
  have hmod := congrArg BitVec.toNat heq
  rw [BitVec.toNat_ofNat, BitVec.toNat_ofNat, Nat.mod_eq_of_lt hwidth] at hmod
  have hle := Nat.mod_le count (2 ^ 64)
  omega

theorem remaining_sub {width start q n : ℕ} (hq : start ≤ q) :
    BitVec.ofNat 64 width - BitVec.ofNat 64 (q - start) - BitVec.ofNat 64 n =
      BitVec.ofNat 64 width - BitVec.ofNat 64 (q + n - start) := by
  have hsplit : q + n - start = (q - start) + n := by omega
  rw [hsplit, BitVec.ofNat_add]
  bv_omega

theorem accounts_enterMessage {m : TcpMessage} {first second : ℕ}
    (hheader : Header order cut pos fresh m first second) :
    Accounts order cut pos fresh (ReadFrame.enterMessage alloc m, second) := by
  rw [ReadFrame.enterMessage]
  cases m.buffer.Allocate alloc m.messageSize with
  | error thrown => exact .escaped
  | ok result =>
      obtain ⟨buffer, code⟩ := result
      simp only
      have hkept : Header order cut pos fresh { m with buffer } first second :=
        ⟨hheader.size_end, hheader.type_end, hheader.size_kept, hheader.type_kept⟩
      split
      · exact .payload rfl hkept le_rfl (by simp)
      · rename_i hzero
        refine .returned hkept ?_
        have : m.messageSize.toNat = 0 := by bv_omega
        simp only
        omega

theorem accounts_receivePayload {f : ReadFrame} {first second q : ℕ} {chunk : List Byte} {n : ℕ}
    (hstate : f.state = MESSAGE) (hheader : Header order cut pos fresh f.message first second)
    (hq : second ≤ q)
    (hremaining : f.readRemaining.toNat + (q - second) = f.message.messageSize.toNat)
    (hlength : chunk.length = n) (hle : n ≤ f.requested) :
    Accounts order cut pos fresh (f.receive alloc order (.data chunk), q + n) := by
  have hbound : n ≤ f.readRemaining.toNat := by
    apply hle.trans
    simp only [ReadFrame.requested, hstate]
    split
    · rename_i hlarge
      bv_omega
    · exact le_rfl
  have hleft : (f.readRemaining - BitVec.ofNat 64 n).toNat = f.readRemaining.toNat - n := by
    have hlt := f.readRemaining.isLt
    bv_omega
  simp only [ReadFrame.receive, hstate, hlength]
  have hkept : Header order cut pos fresh
      { f.message with
        buffer := f.message.buffer.withBlock
          (store f.message.buffer.block f.cursor.ptrBuffer.toNat chunk) }
      first second :=
    ⟨hheader.size_end, hheader.type_end, hheader.size_kept, hheader.type_kept⟩
  split
  · refine .payload rfl hkept (by omega) ?_
    simp only
    omega
  · rename_i hzero
    have hdone : (f.readRemaining - BitVec.ofNat 64 n).toNat = 0 := by bv_omega
    refine .returned hkept ?_
    simp only
    omega

theorem accounts_receive {f : ReadFrame} {q : ℕ}
    (h : Accounts order p.cut pos fresh (.receiving f, q))
    (hrequested : 0 < f.requested) (hrest : q < p.stream.length) :
    Accounts order p.cut pos fresh
      (f.receive alloc order (.data (p.slice q (p.chunkLength q f.requested))),
        q + p.chunkLength q f.requested) := by
  have hlength := p.length_slice (p.chunkLength_le_rest q f.requested)
  have hinStream := p.chunkLength_le_rest q f.requested
  have hpos := p.chunkLength_pos hrequested hrest
  have hle := p.chunkLength_le q f.requested
  cases h with
  | size hstate hq hremaining htype hkept =>
      have height : f.requested = 8 := by simp [ReadFrame.requested, hstate]
      rw [height] at hlength hinStream hpos hle ⊢
      have hwhole : ¬ Uncut p.cut q (q + 8) → p.chunkLength q 8 ≠ 8 := p.chunkLength_ne
      generalize p.chunkLength q 8 = n at *
      simp only [ReadFrame.receive, hstate, hlength, hremaining]
      rw [show (8 : SizeT) = BitVec.ofNat 64 8 from rfl, remaining_sub hq]
      split
      · refine .size rfl (by omega) rfl htype ?_
        intro hinside
        exact (hkept (by omega)).receiveField (by omega)
      · rename_i hzero
        have hend := width_le_of_remaining (by norm_num) hzero
        have hfirst : pos + 8 ≤ q + n := by omega
        refine .type rfl hfirst le_rfl (by simp) ?_ ?_
        · intro hcut hexact
          by_cases hstart : q = pos
          · subst hstart
            exact absurd (by omega) (hwhole hcut)
          · exact (hkept (by omega)).receiveField (by omega)
        · intro _
          simp [KeepsType, htype]
  | @type _ first _ hstate hfirst hq hremaining hsize hkept =>
      have hfour : f.requested = 4 := by simp [ReadFrame.requested, hstate]
      rw [hfour] at hlength hinStream hpos hle ⊢
      have hwhole : ¬ Uncut p.cut q (q + 4) → p.chunkLength q 4 ≠ 4 := p.chunkLength_ne
      generalize p.chunkLength q 4 = n at *
      simp only [ReadFrame.receive, hstate, hlength, hremaining]
      rw [show (4 : SizeT) = BitVec.ofNat 64 4 from rfl, remaining_sub hq]
      split
      · refine .type rfl hfirst (by omega) rfl hsize ?_
        intro hinside
        exact (hkept (by omega)).receiveField (by omega)
      · rename_i hzero
        have hend := width_le_of_remaining (by norm_num) hzero
        refine accounts_enterMessage (?_ : Header order p.cut pos fresh _ first _)
        refine ⟨hfirst, by omega, hsize, ?_⟩
        intro hcut hexact
        by_cases hstart : q = first
        · subst hstart
          exact absurd (by omega) (hwhole hcut)
        · exact (hkept (by omega)).receiveField (by omega)
  | @payload _ first second _ hstate hheader hq hremaining =>
      exact accounts_receivePayload hstate hheader hq hremaining hlength hle

theorem accounts_readFrom (hending : p.ending = .blocks) (pos : ℕ) (fresh : TcpMessage)
    (calls : ℕ) :
    Accounts order p.cut pos fresh
      (readFrom alloc order p.channel calls (readData true fresh, pos)) := by
  refine readFrom_invariant ?_ calls accounts_readData
  intro f q result q' haccounts hrecv
  rcases Peer.recv_cases hrecv with ⟨hrequested, hrest, rfl, rfl⟩ | ⟨hlast, -⟩
  · exact accounts_receive haccounts hrequested hrest
  · rw [hending, Ending.result] at hlast
    cases hlast

/-! ## One frame -/

variable {m : TcpMessage}

/-- A call that consumes exactly the frame of `m`, whatever its fresh message
holds, and always reports the header of `m` finds both header fields whole. -/
theorem uncut_of_returned (alloc : Allocator) (order : ByteOrder) (m : TcpMessage)
    (hending : p.ending = .blocks)
    (hreads : ∀ size type, ∃ calls message,
      readFrom alloc order p.channel calls (readData true (TcpMessage.fresh size type), pos) =
        (.returned message, pos + 12 + m.messageSize.toNat) ∧
      message.messageSize = m.messageSize ∧ message.messageType = m.messageType) :
    Uncut p.cut pos (pos + 8) ∧ Uncut p.cut (pos + 8) (pos + 12) := by
  -- A fresh message that has another last byte in both fields tells the cases apart.
  obtain ⟨size, hsize⟩ : ∃ size : BitVec 64,
      (order.encode 8 size)[7]? ≠ (order.encode 8 m.messageSize)[7]? :=
    order.exists_encode_ne rfl (by omega : 7 < 8) m.messageSize
  obtain ⟨type, htype⟩ : ∃ type : BitVec 32,
      (order.encode 4 type)[3]? ≠ (order.encode 4 m.messageType)[3]? :=
    order.exists_encode_ne rfl (by omega : 3 < 4) m.messageType
  obtain ⟨calls, message, hrun, hsameSize, hsameType⟩ := hreads size type
  have haccounts : Accounts order p.cut pos (TcpMessage.fresh size type)
      (.returned message, pos + 12 + m.messageSize.toNat) := by
    rw [← hrun]
    exact accounts_readFrom hending pos _ calls
  cases haccounts with
  | @returned _ first second _ hheader hq =>
      have hfirst := hheader.size_end
      have hsecond := hheader.type_end
      rw [hsameSize] at hq
      constructor
      · by_contra hcut
        have hkept := hheader.size_kept hcut (by omega)
        rw [KeepsSize, hsameSize] at hkept
        exact hsize hkept.symm
      · have height : first = pos + 8 := by omega
        subst height
        by_contra hcut
        have hkept := hheader.type_kept hcut (by omega)
        rw [KeepsType, hsameType] at hkept
        exact htype hkept.symm

theorem slices_of_frame {s rest : List Byte} (hm : m.Carries s)
    (hstream : p.stream.drop pos = m.frame order ++ rest) :
    order.decode 64 (p.slice pos 8) = m.messageSize ∧
    order.decode 32 (p.slice (pos + 8) 4) = m.messageType ∧
    p.slice (pos + 12) m.messageSize.toNat = m.buffer.contents ∧
    pos + 12 + m.messageSize.toNat ≤ p.stream.length := by
  rw [hm.frame_eq] at hstream
  have hsize : p.slice pos 8 = order.encode 8 m.messageSize := by
    simpa using p.slice_of_drop [] (order.encode 8 m.messageSize)
      (order.encode 4 BINARY ++ s ++ rest) (by simpa using hstream)
  have htype : p.slice (pos + 8) 4 = order.encode 4 BINARY := by
    simpa using p.slice_of_drop (order.encode 8 m.messageSize) (order.encode 4 BINARY)
      (s ++ rest) (by simpa using hstream)
  have hpayload : p.slice (pos + 12) s.length = s := by
    simpa using p.slice_of_drop (order.encode 8 m.messageSize ++ order.encode 4 BINARY)
      s rest (by simpa using hstream)
  have hlength := congrArg List.length hstream
  simp only [List.length_drop, List.length_append, ByteOrder.length_encode] at hlength
  refine ⟨?_, ?_, ?_, ?_⟩
  · rw [hsize]
    exact order.decode_encode rfl _
  · rw [htype, hm.type]
    exact order.decode_encode rfl _
  · rw [hm.size, hpayload, hm.contents]
  · rw [hm.size]
    omega

/-! ## Any number of frames -/

/-- The frames at the beginning of a stream are read back exactly when no header field of
theirs is cut. -/
theorem readsBack_iff_headersUncut (hending : p.ending = .blocks) {messages : List TcpMessage}
    {rest : List Byte} (hcarries : ∀ m ∈ messages, ∃ s, m.Carries s)
    (hprovides : ∀ m ∈ messages, alloc.Provides m.messageSize)
    (hstream : p.stream.drop pos = (messages.map (·.frame order)).flatten ++ rest) :
    ReadsBack alloc order p pos messages ↔ HeadersUncut order p.cut pos messages := by
  induction messages generalizing pos with
  | nil => exact Iff.rfl
  | cons m ms ih =>
      obtain ⟨s, hm⟩ := hcarries m List.mem_cons_self
      rw [List.map_cons, List.flatten_cons, List.append_assoc] at hstream
      have hframe : pos + (m.frame order).length = pos + 12 + m.messageSize.toNat := by
        rw [hm.length_frame, hm.size]
        omega
      obtain ⟨hsize, htype, hpayload, hinside⟩ := slices_of_frame hm hstream
      have hrest : ReadsBack alloc order p (pos + (m.frame order).length) ms ↔
          HeadersUncut order p.cut (pos + (m.frame order).length) ms := by
        apply ih
        · intro m' hm'
          exact hcarries m' (List.mem_cons_of_mem _ hm')
        · intro m' hm'
          exact hprovides m' (List.mem_cons_of_mem _ hm')
        · rw [← List.drop_drop, hstream, List.drop_left]
      rw [ReadsBack, HeadersUncut, hrest, ← and_assoc]
      refine and_congr_left fun _ => ?_
      constructor
      · intro hreads
        apply uncut_of_returned alloc order m hending
        intro size type
        obtain ⟨calls, message, hrun, hsameSize, hsameType, -⟩ := hreads size type
        rw [hframe] at hrun
        exact ⟨calls, message, hrun, hsameSize, hsameType⟩
      · rintro ⟨hsizeUncut, htypeUncut⟩ size type
        have hannounced : alloc.Provides (order.decode 64 (p.slice pos 8)) := by
          rw [hsize]
          exact hprovides m List.mem_cons_self
        obtain ⟨calls, message, hrun, hfilled⟩ :=
          exists_returned_of_uncut (TcpMessage.fresh size type) rfl hsizeUncut htypeUncut
            hannounced (by rw [hsize]; exact hinside)
        rw [hsize] at hrun hfilled
        refine ⟨calls, message, ?_, hfilled.messageSize, ?_, ?_⟩
        · rw [hframe]
          exact hrun
        · rw [hfilled.messageType, htype]
        · rw [hfilled.contents, hpayload]

/-- The same for messages that were made of strings, read by a receiver that can allocate them. -/
theorem readsBack_of_headersUncut {receiver : Allocator}
    (hreceiver : ∀ size : SizeT, size.toNat < 2 ^ 63 → receiver.Provides size)
    {messages : List TcpMessage} {stream rest : List Byte} {cut : ℕ → Bool}
    (hcarries : ∀ m ∈ messages, ∃ data, data.length < 2 ^ 63 ∧ m.Carries data)
    (hstream : stream = (messages.map (·.frame order)).flatten ++ rest)
    (huncut : HeadersUncut order cut 0 messages) :
    ReadsBack receiver order ⟨stream, cut, .blocks⟩ 0 messages := by
  have hiff : ReadsBack receiver order ⟨stream, cut, .blocks⟩ 0 messages ↔
      HeadersUncut order cut 0 messages := by
    refine readsBack_iff_headersUncut rfl ?_ ?_ hstream
    · intro m hm
      obtain ⟨data, -, hdata⟩ := hcarries m hm
      exact ⟨data, hdata⟩
    · intro m hm
      obtain ⟨data, hshort, hdata⟩ := hcarries m hm
      apply hreceiver
      rw [hdata.size]
      exact hshort
  exact hiff.mpr huncut

/-- The messages that `TcpMesageFromString` makes of a list of strings. -/
def MadeFrom (alloc : Allocator) : List (List Byte) → List TcpMessage → Prop :=
  List.Forall₂ fun s m => TcpMesageFromString alloc s = .ok m

/-- The wire after the messages were sent, each send accepted whole, before the
receiver has read anything. -/
def wire (order : ByteOrder) (messages : List TcpMessage) (cut : ℕ → Bool) : Peer where
  stream := (messages.map (·.frame order)).flatten
  cut := cut
  ending := .blocks

theorem carries_of_madeFrom {strings : List (List Byte)} {messages : List TcpMessage}
    (hmade : MadeFrom alloc strings messages) (hshort : ∀ s ∈ strings, s.length < 2 ^ 63)
    {m : TcpMessage} (hm : m ∈ messages) : ∃ s, s.length < 2 ^ 63 ∧ m.Carries s := by
  induction hmade with
  | nil => cases hm
  | @cons s m' strings ms hfirst _ ih =>
      have hs := hshort s List.mem_cons_self
      rcases List.mem_cons.mp hm with rfl | hrest
      · exact ⟨s, hs, carries_of_TcpMesageFromString (by omega) hfirst⟩
      · exact ih (fun s' hs' => hshort s' (List.mem_cons_of_mem _ hs')) hrest

/-- Framing end to end: what `sendData` puts on the wire is read back, message by
message, under exactly those fragmentations that leave the header fields whole. -/
theorem readsBack_wire_iff {sender receiver : Allocator} {strings : List (List Byte)}
    {messages : List TcpMessage} (hmade : MadeFrom sender strings messages)
    (hshort : ∀ s ∈ strings, s.length < 2 ^ 63)
    (hreceiver : ∀ size : SizeT, size.toNat < 2 ^ 63 → receiver.Provides size)
    (cut : ℕ → Bool) :
    ReadsBack receiver order (wire order messages cut) 0 messages ↔
      HeadersUncut order cut 0 messages := by
  apply readsBack_iff_headersUncut (p := wire order messages cut) rfl
  · intro m hm
    obtain ⟨s, -, hcarries⟩ := carries_of_madeFrom hmade hshort hm
    exact ⟨s, hcarries⟩
  · intro m hm
    obtain ⟨s, hs, hcarries⟩ := carries_of_madeFrom hmade hshort hm
    apply hreceiver
    rw [hcarries.size]
    exact hs
  · exact (List.append_nil _).symm

/-- The message made of the string "A". -/
def letterA : TcpMessage where
  messageSize := 1
  messageType := BINARY
  buffer :=
    { allocatedBuffer := some [65]
      capacity := 1
      length := 1
      bufferCursor := BufferCursor.ofCapacity 1
      alreadyAllocatedBuffer := true }

theorem madeFrom_letterA : MadeFrom Allocator.zeroed [[65]] [letterA] :=
  .cons rfl .nil

/-- The message made of the string "Hi". -/
def wordHi : TcpMessage where
  messageSize := 2
  messageType := BINARY
  buffer :=
    { allocatedBuffer := some [72, 105]
      capacity := 2
      length := 2
      bufferCursor := BufferCursor.ofCapacity 2
      alreadyAllocatedBuffer := true }

/-- Three messages, cut inside the payload of the first one and where the third one begins. -/
theorem readsBack_wire_iff_wordHi :
    HeadersUncut .little (fun pos => pos == 13 || pos == 27) 0 [wordHi, letterA, wordHi] ∧
      ReadsBack Allocator.zeroed .little
        (wire .little [wordHi, letterA, wordHi] fun pos => pos == 13 || pos == 27) 0
        [wordHi, letterA, wordHi] := by
  have hmade : MadeFrom Allocator.zeroed [[72, 105], [65], [72, 105]] [wordHi, letterA, wordHi] :=
    .cons rfl (.cons rfl (.cons rfl .nil))
  have huncut :
      HeadersUncut .little (fun pos => pos == 13 || pos == 27) 0 [wordHi, letterA, wordHi] := by
    have hframes : (wordHi.frame .little).length = 14 ∧ (letterA.frame .little).length = 13 :=
      ⟨rfl, rfl⟩
    simp only [HeadersUncut, Uncut, hframes, Bool.or_eq_false_iff, beq_eq_false_iff_ne]
    refine ⟨?_, ?_, ?_, ?_, ?_, ?_, trivial⟩
    all_goals
      intro b hfirst hlast
      omega
  have hreads := (readsBack_wire_iff hmade (by simp)
    (fun _ hsize => Allocator.zeroed_provides hsize) _).mpr huncut
  exact ⟨huncut, hreads⟩

/-- A cut in the middle of the size field of a single one-byte message. -/
theorem not_readsBack_of_cut_size :
    MadeFrom Allocator.zeroed [[65]] [letterA] ∧
      ¬ ReadsBack Allocator.zeroed .little (wire .little [letterA] (· == 4)) 0 [letterA] := by
  refine ⟨madeFrom_letterA, ?_⟩
  rw [readsBack_iff_headersUncut (p := wire .little [letterA] (· == 4)) rfl]
  · rintro ⟨hsize, -⟩
    have hfalse := hsize 4 (by omega) (by omega)
    cases hfalse
  · intro m hm
    obtain ⟨s, -, hcarries⟩ := carries_of_madeFrom madeFrom_letterA (by simp) hm
    exact ⟨s, hcarries⟩
  · intro m hm
    rw [List.mem_singleton.mp hm]
    exact Allocator.zeroed_provides (by decide)
  · exact (List.append_nil _).symm

end ControlEngine
