import ControlEngine.Socket.Framing
import ControlEngine.Support.PrefixCode

/-!
# The stream determines the strings

What `sendData` puts on the wire for a string is its length, the type and the string
itself.  The length tells a reader where the frame ends, so the frames are a
self-delimiting code, and the stream of a list of strings comes from no other list.
-/

namespace ControlEngine

variable {order : ByteOrder} {alloc alloc' : Allocator}

/-- The frame of a string. -/
def encodeString (order : ByteOrder) (s : List Byte) : List Byte :=
  order.encode 8 (BitVec.ofNat 64 s.length) ++ order.encode 4 BINARY ++ s

theorem TcpMessage.Carries.frame_eq_encodeString {m : TcpMessage} {s : List Byte}
    (h : m.Carries s) (order : ByteOrder) : m.frame order = encodeString order s := by
  have hsize : m.messageSize = BitVec.ofNat 64 s.length := by
    rw [← h.size, BitVec.ofNat_toNat, BitVec.setWidth_eq]
  rw [h.frame_eq, hsize, encodeString]

/-- The length field decides where the frame of a short string ends. -/
theorem selfDelimiting_encodeString (order : ByteOrder) :
    SelfDelimiting (encodeString order) {s | s.length < 2 ^ 63} where
  nonempty s _ hempty := by
    have hlength := congrArg List.length hempty
    simp [encodeString] at hlength
  first s hs s' hs' rest rest' heq := by
    simp only [encodeString, List.append_assoc] at heq
    obtain ⟨hsize, hbehind⟩ := List.append_inj heq (by simp)
    have hlength : s.length = s'.length := by
      have hwords : BitVec.ofNat 64 s.length = BitVec.ofNat 64 s'.length := by
        have hdecode (field : BitVec 64) : order.decode 64 (order.encode 8 field) = field :=
          order.decode_encode (show 64 = 8 * 8 from rfl) field
        rw [← hdecode (BitVec.ofNat 64 s.length), hsize, hdecode]
      have hnumbers := congrArg BitVec.toNat hwords
      simp only [BitVec.toNat_ofNat, Set.mem_ofPred_eq] at hnumbers hs hs'
      omega
    obtain ⟨-, hpayload⟩ := List.append_inj hbehind (by simp)
    exact (List.append_inj hpayload hlength).1

theorem stream_eq_flatMap {strings : List (List Byte)} {messages : List TcpMessage}
    (hmade : MadeFrom alloc strings messages) (hshort : ∀ s ∈ strings, s.length < 2 ^ 63) :
    (messages.map (·.frame order)).flatten = strings.flatMap (encodeString order) := by
  induction hmade with
  | nil => rfl
  | @cons s m strings messages hfirst _ ih =>
      have hs := hshort s List.mem_cons_self
      have hm := carries_of_TcpMesageFromString (by omega) hfirst
      rw [List.map_cons, List.flatten_cons, List.flatMap_cons, hm.frame_eq_encodeString,
        ih fun s' hs' => hshort s' (List.mem_cons_of_mem _ hs')]

theorem payloads_eq {strings : List (List Byte)} {messages : List TcpMessage}
    (hmade : MadeFrom alloc strings messages) (hshort : ∀ s ∈ strings, s.length < 2 ^ 63) :
    messages.map (fun m => m.partBytes order .payload) = strings := by
  induction hmade with
  | nil => rfl
  | @cons s m strings messages hfirst _ ih =>
      have hs := hshort s List.mem_cons_self
      have hm := carries_of_TcpMesageFromString (by omega) hfirst
      rw [List.map_cons, hm.payload, ih fun s' hs' => hshort s' (List.mem_cons_of_mem _ hs')]

/-- The frame encoding is uniquely decodable: if the stream of one list of strings begins
that of another, the list begins the other, equal streams come from equal lists only, and
each payload is its string. -/
theorem stream_uniquelyDecodable (order : ByteOrder) {strings strings' : List (List Byte)}
    {messages messages' : List TcpMessage} (hmade : MadeFrom alloc strings messages)
    (hmade' : MadeFrom alloc' strings' messages')
    (hshort : ∀ s ∈ strings, s.length < 2 ^ 63)
    (hshort' : ∀ s ∈ strings', s.length < 2 ^ 63) :
    ((messages.map (·.frame order)).flatten <+: (messages'.map (·.frame order)).flatten →
        strings <+: strings') ∧
      ((messages.map (·.frame order)).flatten = (messages'.map (·.frame order)).flatten →
        strings = strings') ∧
      messages.map (fun m => m.partBytes order .payload) = strings := by
  have hcode := selfDelimiting_encodeString order
  rw [stream_eq_flatMap hmade hshort, stream_eq_flatMap hmade' hshort']
  exact ⟨hcode.prefix_of_prefix hshort hshort', hcode.eq_of_eq hshort hshort',
    payloads_eq hmade hshort⟩

theorem stream_uniquelyDecodable_letterA :
    (([letterA].map (·.frame .big)).flatten <+: ([letterA, letterA].map (·.frame .big)).flatten →
        [[(65 : Byte)]] <+: [[65], [65]]) ∧
      (([letterA].map (·.frame .big)).flatten = ([letterA, letterA].map (·.frame .big)).flatten →
        [[(65 : Byte)]] = [[65], [65]]) ∧
      [letterA].map (fun m => m.partBytes .big .payload) = [[65]] :=
  have hmade : MadeFrom Allocator.zeroed [[65], [65]] [letterA, letterA] :=
    .cons rfl madeFrom_letterA
  stream_uniquelyDecodable .big madeFrom_letterA hmade (by simp) (by simp)

end ControlEngine
