import ControlEngine.Socket.ReadData

/-!
# A peer and the fragmentation of its stream

A peer sends a fixed stream of bytes.  `recv` hands out the next of them, at
least one and at most the number requested, and is otherwise free in how many.
That freedom is a set of cut positions: a call returns the bytes up to the next
cut, to the end of the request or to the end of the stream, whichever comes
first.  Every choice of the sizes is one such set (`recvLength_eq_of_next_cut`).

After the last byte `recv` blocks, reports the shutdown of the connection, or
fails, as `ending` says.
-/

namespace ControlEngine

/-- The number of bytes `recv` returns from position `pos`, at most `limit`:
those up to the next cut. -/
def recvLength (cut : ℕ → Bool) (pos : ℕ) : ℕ → ℕ
  | 0 => 0
  | limit + 1 => if cut (pos + 1) then 1 else recvLength cut (pos + 1) limit + 1

/-- No cut lies strictly between two positions. -/
def Uncut (cut : ℕ → Bool) (first last : ℕ) : Prop :=
  ∀ b, first < b → b < last → cut b = false

variable {cut : ℕ → Bool}

theorem recvLength_le (pos limit : ℕ) : recvLength cut pos limit ≤ limit := by
  induction limit generalizing pos with
  | zero => exact le_rfl
  | succ limit ih =>
      have hrest := ih (pos + 1)
      rw [recvLength]
      split <;> omega

theorem recvLength_pos {pos limit : ℕ} (hlimit : 0 < limit) :
    0 < recvLength cut pos limit := by
  cases limit with
  | zero => omega
  | succ limit =>
      rw [recvLength]
      split <;> omega

/-- A request is filled exactly when no cut lies inside it. -/
theorem recvLength_eq_limit_iff (pos limit : ℕ) :
    recvLength cut pos limit = limit ↔ Uncut cut pos (pos + limit) := by
  induction limit generalizing pos with
  | zero => exact iff_of_true rfl (fun b hlow hhigh => by omega)
  | succ limit ih =>
      rw [recvLength]
      by_cases hcut : cut (pos + 1) = true
      · rw [if_pos hcut]
        constructor
        · intro hone b hlow hhigh
          omega
        · intro huncut
          by_contra hmore
          have hfalse := huncut (pos + 1) (by omega) (by omega)
          rw [hcut] at hfalse
          cases hfalse
      · rw [if_neg hcut, Nat.add_right_cancel_iff, ih]
        constructor
        · intro huncut b hlow hhigh
          by_cases hb : b = pos + 1
          · subst hb
            simpa using hcut
          · exact huncut b (by omega) (by omega)
        · intro huncut b hlow hhigh
          exact huncut b (by omega) (by omega)

/-- Every size between one and the limit is returned for some set of cuts: the
one that has its next cut there. -/
theorem recvLength_eq_of_next_cut {pos limit n : ℕ} (hpos : 0 < n) (hlimit : n ≤ limit)
    (hcut : cut (pos + n) = true) (huncut : Uncut cut pos (pos + n)) :
    recvLength cut pos limit = n := by
  induction limit generalizing pos n with
  | zero => omega
  | succ limit ih =>
      rw [recvLength]
      by_cases hone : n = 1
      · subst hone
        rw [if_pos hcut]
      · have hnext : cut (pos + 1) = false := huncut (pos + 1) (by omega) (by omega)
        rw [if_neg (by simp [hnext])]
        have hrest : recvLength cut (pos + 1) limit = n - 1 := by
          apply ih (by omega) (by omega)
          · rwa [show pos + 1 + (n - 1) = pos + n by omega]
          · intro b hlow hhigh
            exact huncut b (by omega) (by omega)
        omega

/-- What becomes of a connection after the last byte. -/
inductive Ending
  | blocks
  | shutDown
  | fails
deriving DecidableEq, Repr

/-- What `recv` reports after the last byte, or `none` when it blocks. -/
def Ending.result : Ending → Option RecvResult
  | blocks => none
  | shutDown => some (.data [])
  | fails => some .error

/-- A stream of bytes, where `recv` may cut it, and how it ends. -/
structure Peer where
  stream : List Byte
  cut : ℕ → Bool
  ending : Ending

namespace Peer

/-- The bytes of the stream from one position on. -/
def slice (p : Peer) (pos count : ℕ) : List Byte := (p.stream.drop pos).take count

/-- The number of bytes a call of `recv` returns. -/
def chunkLength (p : Peer) (pos requested : ℕ) : ℕ :=
  recvLength p.cut pos (min requested (p.stream.length - pos))

/-- One call of `recv`, from a position of the stream. -/
def recv (p : Peer) (pos requested : ℕ) : Option (RecvResult × ℕ) :=
  if min requested (p.stream.length - pos) = 0 then
    p.ending.result.map fun result => (result, pos)
  else
    some (.data (p.slice pos (p.chunkLength pos requested)),
      pos + p.chunkLength pos requested)

/-- The connection to a peer; its state is the position in the stream. -/
def channel (p : Peer) : Channel ℕ where
  recv := p.recv

variable {p : Peer} {pos requested : ℕ}

theorem chunkLength_le (pos requested : ℕ) : p.chunkLength pos requested ≤ requested :=
  (recvLength_le _ _).trans (min_le_left _ _)

theorem chunkLength_le_rest (pos requested : ℕ) :
    p.chunkLength pos requested ≤ p.stream.length - pos :=
  (recvLength_le _ _).trans (min_le_right _ _)

theorem chunkLength_pos (hrequested : 0 < requested) (hrest : pos < p.stream.length) :
    0 < p.chunkLength pos requested :=
  recvLength_pos (by omega)

theorem length_slice {count : ℕ} (hrest : count ≤ p.stream.length - pos) :
    (p.slice pos count).length = count := by
  simp [slice, hrest]

theorem recv_data (hrequested : 0 < requested) (hrest : pos < p.stream.length) :
    p.channel.recv pos requested =
      some (.data (p.slice pos (p.chunkLength pos requested)),
        pos + p.chunkLength pos requested) :=
  if_neg (by omega)

theorem recv_cases {result : RecvResult} {pos' : ℕ}
    (hrecv : p.channel.recv pos requested = some (result, pos')) :
    (0 < requested ∧ pos < p.stream.length ∧
      result = .data (p.slice pos (p.chunkLength pos requested)) ∧
      pos' = pos + p.chunkLength pos requested) ∨
    (p.ending.result = some result ∧ pos' = pos) := by
  by_cases hdata : min requested (p.stream.length - pos) = 0
  · right
    have hlast : p.ending.result.map (fun result => (result, pos)) = some (result, pos') :=
      (if_pos hdata).symm.trans hrecv
    obtain ⟨last, hending, hpair⟩ := Option.map_eq_some_iff.mp hlast
    cases hpair
    exact ⟨hending, rfl⟩
  · left
    have hnext := (p.recv_data (by omega) (by omega)).symm.trans hrecv
    cases hnext
    exact ⟨by omega, by omega, rfl, rfl⟩

/-- An uncut field that the stream still holds arrives whole. -/
theorem chunkLength_eq (huncut : Uncut p.cut pos (pos + requested))
    (hrest : requested ≤ p.stream.length - pos) :
    p.chunkLength pos requested = requested := by
  rw [chunkLength, min_eq_left hrest, recvLength_eq_limit_iff]
  exact huncut

theorem chunkLength_eq_rest (huncut : Uncut p.cut pos (pos + requested))
    (hrest : p.stream.length - pos ≤ requested) :
    p.chunkLength pos requested = p.stream.length - pos := by
  rw [chunkLength, min_eq_right hrest, recvLength_eq_limit_iff]
  intro b hlow hhigh
  exact huncut b hlow (by omega)

theorem chunkLength_ne (hcut : ¬ Uncut p.cut pos (pos + requested)) :
    p.chunkLength pos requested ≠ requested := by
  intro hall
  have hrest := p.chunkLength_le_rest pos requested
  rw [hall] at hrest
  rw [chunkLength, min_eq_left hrest, recvLength_eq_limit_iff] at hall
  exact hcut hall

theorem slice_append (first second : ℕ) :
    p.slice pos (first + second) = p.slice pos first ++ p.slice (pos + first) second := by
  rw [slice, slice, slice, List.take_add, List.drop_drop]

theorem slice_of_drop (before bytes after : List Byte)
    (hstream : p.stream.drop pos = before ++ bytes ++ after) :
    p.slice (pos + before.length) bytes.length = bytes := by
  rw [slice, ← List.drop_drop, hstream, List.append_assoc, List.drop_left, List.take_left]

end Peer
end ControlEngine
