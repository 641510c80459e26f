import ControlEngine.Buffer.Cursor

/-!
# When the three positions of a cursor agree

`Tracks` is the representation invariant of a `BufferCursor`: the length behind
the cursor is its displacement, the two lengths add up to the capacity, and the
cursor stands inside the buffer or at its end.

Several operations break it, `jumpBackward` already by moving the pointer the
wrong way, and beyond the way behind the cursor it has no outcome at all.
`Permits` says of each operation in which states it does no harm, and the two
agree step by step: an operation on a tracking cursor is defined and keeps the
invariant, with every byte written inside the buffer, exactly when it is
permitted.  A sequence of operations therefore keeps the invariant all along
exactly when each of them is permitted in the state it meets.
-/

namespace ControlEngine.BufferCursor

/-- The representation invariant of a cursor over `cap` cells. -/
structure Tracks (cap : SizeT) (c : BufferCursor) : Prop where
  displacement : (c.backwardLength.toNat : ℤ) = c.ptrBuffer
  total : c.forwardLength + c.backwardLength = cap
  bound : c.ptrBuffer ≤ cap.toNat

theorem tracks_ofCapacity (cap : SizeT) : (ofCapacity cap).Tracks cap where
  displacement := by simp [ofCapacity]
  total := by simp [ofCapacity]
  bound := by simp [ofCapacity]

/-- The calls that move a cursor. -/
inductive Operation
  | pp
  | mm
  | jumpForward (jumpAmount : SizeT)
  | jumpBackward (jumpAmount : SizeT)
  | jump (jumpAmount : SizeT)
  | writeByte (byte : Byte)
  | writeBytes (bytes : List Byte)
deriving DecidableEq, Repr

/-- The cursor after the moves of `writeBytes`. -/
def afterBytes (c : BufferCursor) : List Byte → BufferCursor
  | [] => c
  | _ :: bytes => c.afterByte.afterBytes bytes

/-- The displacements at which `writeBytes` writes. -/
def displacements (c : BufferCursor) : List Byte → List ℤ
  | [] => []
  | _ :: bytes => c.ptrBuffer :: c.afterByte.displacements bytes

/-- `writeBytes` moves and writes so. -/
theorem writeLoop_eq (c : BufferCursor) (block bytes : List Byte) :
    c.writeLoop block bytes =
      (c.afterBytes bytes,
        ((c.displacements bytes).zip bytes).foldl (fun cells w => poke cells w.1 w.2) block) := by
  induction bytes generalizing c block with
  | nil => rfl
  | cons byte bytes ih => rw [writeLoop_cons, ih, afterBytes, displacements, List.zip_cons_cons,
      List.foldl_cons]

/-- The cursor after a call, `none` where the call has no defined outcome. -/
def perform (c : BufferCursor) : Operation → Option BufferCursor
  | .pp => some c.operatorpp
  | .mm => some c.operatormm
  | .jumpForward jumpAmount => some (c.jumpForward jumpAmount)
  | .jumpBackward jumpAmount => c.jumpBackward jumpAmount
  | .jump jumpAmount => c.jump jumpAmount
  | .writeByte _ => some c.afterByte
  | .writeBytes bytes => some (c.afterBytes bytes)

/-- Where a call writes. -/
def written (c : BufferCursor) : Operation → List ℤ
  | .writeByte _ => [c.ptrBuffer]
  | .writeBytes bytes => c.displacements bytes
  | _ => []

/-- Every byte a call writes lies in the buffer. -/
def WritesInside (cap : SizeT) (c : BufferCursor) (op : Operation) : Prop :=
  ∀ d ∈ c.written op, 0 ≤ d ∧ d < cap.toNat

/-- The states in which a call is harmless. -/
def Permits (cap : SizeT) (c : BufferCursor) : Operation → Prop
  | .pp => 2 ≤ c.forwardLength
  | .mm => 2 ≤ c.backwardLength ∨ (c.backwardLength = 1 ∧ cap = 1)
  | .jumpForward jumpAmount => jumpAmount ≤ c.forwardLength ∨ c.forwardLength = 0
  | .jumpBackward jumpAmount => jumpAmount = 0
  | .jump jumpAmount => jumpAmount ≤ c.forwardLength ∨ c.forwardLength = 0
  | .writeByte _ => c.forwardLength ≠ 0
  | .writeBytes bytes => bytes = [] ∨ c.forwardLength ≠ 0

/-! ## One call -/

variable {cap : SizeT} {c : BufferCursor}

theorem Tracks.forward_toNat (h : c.Tracks cap) :
    c.forwardLength.toNat + c.backwardLength.toNat = cap.toNat := by
  obtain ⟨hdisplacement, htotal, hbound⟩ := h
  bv_omega

theorem tracks_wrapBuffer_iff (h : c.Tracks cap) :
    c.wrapBuffer.Tracks cap ↔ c.forwardLength = 0 := by
  have hlengths := h.forward_toNat
  constructor
  · intro hwrapped
    have htotal := hwrapped.total
    simp only [wrapBuffer] at htotal
    bv_omega
  · intro hend
    refine ⟨by simp [wrapBuffer], ?_, by simp [wrapBuffer]⟩
    simp only [wrapBuffer]
    bv_omega

theorem tracks_operatorpp_iff (h : c.Tracks cap) :
    c.operatorpp.Tracks cap ↔ 2 ≤ c.forwardLength := by
  have hlengths := h.forward_toNat
  have hdisplacement := h.displacement
  unfold operatorpp
  split
  · rename_i hmoves
    constructor
    · intro hmoved
      have hbound := hmoved.bound
      simp only at hbound
      bv_omega
    · intro hroom
      refine ⟨?_, ?_, ?_⟩ <;> simp only <;> bv_omega
  · rename_i hwraps
    rw [tracks_wrapBuffer_iff h]
    bv_omega

theorem tracks_operatormm_iff (h : c.Tracks cap) :
    c.operatormm.Tracks cap ↔
      2 ≤ c.backwardLength ∨ (c.backwardLength = 1 ∧ cap = 1) := by
  have hlengths := h.forward_toNat
  have hdisplacement := h.displacement
  have hbound := h.bound
  unfold operatormm
  split
  · rename_i hmoves
    constructor
    · intro hmoved
      have hmovedDisplacement := hmoved.displacement
      simp only at hmovedDisplacement
      left
      bv_omega
    · intro hroom
      have hroom' : 2 ≤ c.backwardLength := by
        rcases hroom with hroom | ⟨hone, _⟩
        · exact hroom
        · rw [hone] at hmoves
          exact absurd hmoves (by decide)
      refine ⟨?_, ?_, ?_⟩ <;> simp only <;> bv_omega
  · rename_i hwraps
    rw [tracks_wrapBuffer_iff h]
    bv_omega

theorem tracks_jumpForward_iff (h : c.Tracks cap) (jumpAmount : SizeT) :
    (c.jumpForward jumpAmount).Tracks cap ↔
      jumpAmount ≤ c.forwardLength ∨ c.forwardLength = 0 := by
  have hlengths := h.forward_toNat
  have hdisplacement := h.displacement
  unfold jumpForward
  split
  · rename_i hroom
    refine iff_of_true ⟨?_, ?_, ?_⟩ (Or.inl hroom) <;> simp only <;> bv_omega
  · rename_i hwraps
    rw [tracks_wrapBuffer_iff h]
    bv_omega

/-- A jump back has an outcome that keeps the invariant only if it does not
move, since it moves the pointer forward while it shortens the way behind it. -/
theorem tracks_jumpBackward_iff (h : c.Tracks cap) (jumpAmount : SizeT) :
    (∃ c', c.jumpBackward jumpAmount = some c' ∧ c'.Tracks cap) ↔ jumpAmount = 0 := by
  have hdisplacement := h.displacement
  constructor
  · rintro ⟨c', hmoved, htracks⟩
    unfold jumpBackward at hmoved
    split at hmoved
    · rename_i hroom
      cases hmoved
      have hmovedDisplacement := htracks.displacement
      simp only at hmovedDisplacement
      bv_omega
    · cases hmoved
  · rintro rfl
    exact ⟨c, by simp [jumpBackward], h⟩

theorem tracks_afterByte (h : c.Tracks cap) (hroom : c.forwardLength ≠ 0) :
    c.afterByte.Tracks cap ∧ c.afterByte.forwardLength ≠ 0 := by
  have hlengths := h.forward_toNat
  have hdisplacement := h.displacement
  unfold afterByte
  simp only
  split
  · rename_i hlast
    refine ⟨⟨by simp [wrapBuffer], ?_, by simp [wrapBuffer]⟩, ?_⟩ <;>
      simp only [wrapBuffer] <;> bv_omega
  · rename_i hmore
    refine ⟨⟨?_, ?_, ?_⟩, hmore⟩ <;> simp only <;> bv_omega

/-- Before the end the cursor writes into the buffer, at the end behind it. -/
theorem Tracks.inside_iff (h : c.Tracks cap) :
    (0 ≤ c.ptrBuffer ∧ c.ptrBuffer < cap.toNat) ↔ c.forwardLength ≠ 0 := by
  have hlengths := h.forward_toNat
  have hdisplacement := h.displacement
  constructor
  · rintro ⟨_, hbelow⟩ hzero
    bv_omega
  · intro hroom
    bv_omega

theorem tracks_afterBytes (h : c.Tracks cap) (hroom : c.forwardLength ≠ 0)
    (bytes : List Byte) :
    (c.afterBytes bytes).Tracks cap ∧
      ∀ d ∈ c.displacements bytes, 0 ≤ d ∧ d < cap.toNat := by
  induction bytes generalizing c with
  | nil => exact ⟨h, by simp [displacements]⟩
  | cons byte bytes ih =>
      obtain ⟨hnext, hnextRoom⟩ := tracks_afterByte h hroom
      obtain ⟨hrest, hinside⟩ := ih hnext hnextRoom
      refine ⟨hrest, ?_⟩
      intro d hd
      rcases List.mem_cons.mp hd with rfl | hd
      · exact h.inside_iff.mpr hroom
      · exact hinside d hd

/-- On a tracking cursor a call is defined, keeps the invariant and writes inside
the buffer exactly when it is permitted. -/
theorem perform_iff_permits (h : c.Tracks cap) (op : Operation) :
    (∃ c', c.perform op = some c' ∧ c'.Tracks cap) ∧ c.WritesInside cap op ↔
      c.Permits cap op := by
  cases op with
  | pp => simpa [perform, WritesInside, written, Permits] using tracks_operatorpp_iff h
  | mm => simpa [perform, WritesInside, written, Permits] using tracks_operatormm_iff h
  | jumpForward jumpAmount =>
      simpa [perform, WritesInside, written, Permits] using
        tracks_jumpForward_iff h jumpAmount
  | jumpBackward jumpAmount =>
      simpa [perform, WritesInside, written, Permits] using
        tracks_jumpBackward_iff h jumpAmount
  | jump jumpAmount =>
      simpa [perform, WritesInside, written, Permits, jump_eq_jumpForward] using
        tracks_jumpForward_iff h jumpAmount
  | writeByte byte =>
      constructor
      · rintro ⟨_, hinside⟩
        exact h.inside_iff.mp (hinside _ (by simp [written]))
      · intro hroom
        refine ⟨⟨_, rfl, (tracks_afterByte h hroom).1⟩, ?_⟩
        simpa [WritesInside, written] using h.inside_iff.mpr hroom
  | writeBytes bytes =>
      cases bytes with
      | nil => simpa [perform, WritesInside, written, afterBytes, displacements,
          Permits] using h
      | cons byte bytes =>
          constructor
          · rintro ⟨_, hinside⟩
            right
            exact h.inside_iff.mp (hinside _ (by simp [written, displacements]))
          · rintro (hnil | hroom)
            · cases hnil
            · obtain ⟨hnext, hinside⟩ := tracks_afterBytes h hroom (byte :: bytes)
              exact ⟨⟨_, rfl, hnext⟩, hinside⟩

/-! ## Sequences of calls -/

/-- Each call of a sequence is defined, the invariant holds before, between and
after the calls, and every call writes inside the buffer. -/
def Keeps (cap : SizeT) (c : BufferCursor) : List Operation → Prop
  | [] => c.Tracks cap
  | op :: ops =>
      c.Tracks cap ∧ c.WritesInside cap op ∧
        ∃ c', c.perform op = some c' ∧ c'.Keeps cap ops

/-- Each call of a sequence is permitted in the state it meets. -/
def PermitsAll (cap : SizeT) (c : BufferCursor) : List Operation → Prop
  | [] => True
  | op :: ops => c.Permits cap op ∧ ∀ c', c.perform op = some c' → c'.PermitsAll cap ops

theorem Keeps.tracks {ops : List Operation} (hkeeps : c.Keeps cap ops) :
    c.Tracks cap := by
  cases ops with
  | nil => exact hkeeps
  | cons op ops => exact hkeeps.1

/-- The calls made on the cursor of a freshly allocated buffer are defined and
keep the invariant in every state exactly when each of them is permitted. -/
theorem keeps_iff_permitsAll (cap : SizeT) (ops : List Operation) :
    (ofCapacity cap).Keeps cap ops ↔ (ofCapacity cap).PermitsAll cap ops := by
  have hstart := tracks_ofCapacity cap
  generalize ofCapacity cap = c at hstart
  induction ops generalizing c with
  | nil => exact iff_of_true hstart trivial
  | cons op ops ih =>
      constructor
      · rintro ⟨_, hinside, c', hperform, hrest⟩
        have hnext : ∃ c', c.perform op = some c' ∧ c'.Tracks cap :=
          ⟨c', hperform, hrest.tracks⟩
        refine ⟨(perform_iff_permits hstart op).mp ⟨hnext, hinside⟩, ?_⟩
        intro c'' hperform'
        cases hperform.symm.trans hperform'
        exact (ih _ hrest.tracks).mp hrest
      · rintro ⟨hpermits, hrest⟩
        obtain ⟨⟨c', hperform, hnext⟩, hinside⟩ :=
          (perform_iff_permits hstart op).mpr hpermits
        exact ⟨hstart, hinside, c', hperform, (ih _ hnext).mpr (hrest c' hperform)⟩

/-- A jump of three cells forward and one back leaves the cursor of five cells
at displacement four with two cells counted behind it. -/
theorem not_keeps_jumpBackward :
    ¬ (ofCapacity 5).Keeps 5 [.jumpForward 3, .jumpBackward 1] := by
  rintro ⟨_, _, _, hforward, _, _, _, hbackward, hlast⟩
  cases hforward
  cases hbackward
  exact absurd hlast.displacement (by decide)

end ControlEngine.BufferCursor
