import ControlEngine.System.Delivery
import ControlEngine.System.Received
import ControlEngine.Support.PrefixCode

/-!
# Receiving over many connections

The reader keeps no bytes between two calls of `readData`: a call that ends in the middle of a
frame has lost its beginning.  When this happens the socket is closed, by `readData` itself,
before the reader reads again, so that what follows on this connection is never taken for the
beginning of a frame.

`Intake` says this for all connections, in the terms in which `Delivery` says what was sent.
The reports of the reader are then the first frames that the peers have sent, connection by
connection.
-/

namespace ControlEngine

/-- The bytes that an event takes from a connection. -/
def Event.receivedOn (object : ℕ) : Event → List Byte
  | .recv o (.data chunk) => if o = some object then chunk else []
  | _ => []

/-- The bytes that were taken from a connection, in order. -/
def receivedOn (object : ℕ) (history : List Event) : List Byte :=
  history.flatMap (Event.receivedOn object)

/-- Data comes from an open connection. -/
def Event.answered : Event → Bool
  | .recv object (.data _) => object ≠ none
  | _ => true

/-- `readData` has read something of a frame, or is about to call `recv`. -/
def ReaderPc.midFrame : ReaderPc → Bool
  | .fetch f => f.state ≠ .MESSAGE_SIZE
  | .recv _ _ => true
  | _ => false

/-- `readData` finds the client connected, `recv` fails on what is not open, and while a frame
is under way its connection may be closed, but not replaced. -/
def KeepsReading (env : Environment) (s : System × List TcpMessage) (act : Act) : Prop :=
  ReadsConnected s act ∧ ∀ e ∈ s.1.eventOf env act, e.answered = true ∧
    (ReaderPc.midFrame (s.1.threads .reader) = true →
      (s.1.client.after e).socketObject = s.1.client.socketObject ∧
        ((s.1.client.after e).target = s.1.client.target ∨ (s.1.client.after e).target = none))

instance (s : System × List TcpMessage) (act : Act) : Decidable (ReadsConnected s act) :=
  inferInstanceAs (Decidable (act.tid = some .reader →
    @id ReaderPc (s.1.threads .reader) = .enter → s.1.client.connectionStatus = true))

instance (env : Environment) (s : System × List TcpMessage) (act : Act) :
    Decidable (KeepsReading env s act) :=
  inferInstanceAs (Decidable (ReadsConnected s act ∧ ∀ e ∈ s.1.eventOf env act, _))

/-- The bytes are no whole frame, nor longer than one. -/
def Unfinished (order : ByteOrder) (bytes : List Byte) : Prop :=
  bytes.length < 12 ∨ bytes.length < 12 + (order.decode 64 (bytes.take 8)).toNat

/-- The messages that the reader has reported, each with its connection: the connections were
read one after the other; what was taken from each is the frames of its messages, and the
beginning of another one; and if it is the beginning of what a peer has sent, then the messages
are the first ones that the peer sent, all of them if all of it was taken. -/
structure System.Receives (s : System × List TcpMessage) (order : ByteOrder)
    (receipts : List (ℕ × TcpMessage)) : Prop where
  reports : receipts.map Prod.snd = s.2
  inOrder : (receipts.map Prod.fst).Pairwise (· ≤ ·)
  stream : ∀ object, ∃ tail, receivedOn object s.1.history =
    ((onChannel object receipts).map (·.bytes order)).flatten ++ tail ∧ Unfinished order tail
  first : ∀ object, ∀ messages : List TcpMessage, (∀ m ∈ messages, ∃ data, m.Carries data) →
    receivedOn object s.1.history <+: (messages.map (·.frame order)).flatten →
    (onChannel object receipts).map (·.bytes order) <+: messages.map (·.frame order)
  all : ∀ object, ∀ messages : List TcpMessage, (∀ m ∈ messages, ∃ data, m.Carries data) →
    receivedOn object s.1.history = (messages.map (·.frame order)).flatten →
    (onChannel object receipts).map (·.bytes order) = messages.map (·.frame order)

variable {env : Environment} {order : ByteOrder} {alloc : Allocator}

/-! ## Frames and their beginnings -/

theorem unfinished_of_lt {bytes : List Byte} (hshort : bytes.length < 12) :
    Unfinished order bytes :=
  Or.inl hshort

/-- A header that is no frame announces a payload. -/
theorem unfinished_of_header {bytes : List Byte} (hheader : bytes.length = 12)
    (hnot : ¬ IsFrame order bytes) : Unfinished order bytes := by
  right
  have hsize : (order.decode 64 (bytes.take 8)).toNat ≠ 0 := by
    intro hzero
    exact hnot ⟨hheader.ge, by rw [hzero]; exact hheader⟩
  omega

/-- Between two calls of `recv` the frame is not whole. -/
theorem ReadFrame.InStep.unfinished {current : List Byte} {f : ReadFrame}
    (h : f.InStep order current) : Unfinished order current := by
  cases h with
  | size => exact unfinished_of_lt (by simp)
  | type hlength => exact unfinished_of_lt (by omega)
  | @payload _ size type received hlength hlength' hloop =>
      right
      have htake : (size ++ type ++ received).take 8 = size := by
        rw [List.append_assoc, ← hlength, List.take_left]
      have hpending := hloop.pending
      have hremaining := hloop.remaining
      rw [htake, List.length_append, List.length_append]
      omega

/-- No frame is the beginning of another one. -/
theorem selfDelimiting_frames (order : ByteOrder) :
    SelfDelimiting id {bytes | IsFrame order bytes} where
  nonempty bytes hframe hempty := by
    obtain ⟨hlong, -⟩ : IsFrame order bytes := hframe
    rw [id] at hempty
    rw [hempty] at hlong
    cases hlong
  first bytes hframe bytes' hframe' rest rest' heq := by
    obtain ⟨hlong, hlength⟩ : IsFrame order bytes := hframe
    obtain ⟨hlong', hlength'⟩ : IsFrame order bytes' := hframe'
    have hsize : bytes.take 8 = bytes'.take 8 := by
      have htake := congrArg (List.take 8) heq
      rwa [id, id, List.take_append_of_le_length (by omega),
        List.take_append_of_le_length (by omega)] at htake
    rw [hsize, ← hlength'] at hlength
    exact (List.append_inj heq hlength).1

theorem TcpMessage.Carries.isFrame {m : TcpMessage} {data : List Byte} (h : m.Carries data)
    (order : ByteOrder) : IsFrame order (m.frame order) := by
  have hlength := h.length_frame order
  have htake : (m.frame order).take 8 = order.encode 8 m.messageSize := by
    rw [h.frame_eq, List.append_assoc, List.take_append_of_le_length (by simp),
      List.take_of_length_le]
    simp
  have hdecode : order.decode 64 (order.encode 8 m.messageSize) = m.messageSize :=
    order.decode_encode (show 64 = 8 * 8 from rfl) m.messageSize
  refine ⟨by omega, ?_⟩
  rw [htake, hdecode, h.size, hlength]

/-- Behind whole frames there is no frame in an unfinished one. -/
theorem eq_nil_of_unfinished {frames : List (List Byte)}
    (hframes : ∀ bytes ∈ frames, IsFrame order bytes) (h : Unfinished order frames.flatten) :
    frames = [] := by
  cases frames with
  | nil => rfl
  | cons bytes frames =>
      obtain ⟨hlong, hlength⟩ := hframes bytes List.mem_cons_self
      have htake : (bytes ++ frames.flatten).take 8 = bytes.take 8 :=
        List.take_append_of_le_length (by omega)
      rw [List.flatten_cons, Unfinished, htake, List.length_append] at h
      omega

/-! ## The frame under way -/

theorem ReadFrame.thrown_of_enterMessage {m m' : TcpMessage} {thrown : Thrown}
    (h : ReadFrame.enterMessage alloc m = .escaped thrown m') : thrown = .literal mallocError := by
  unfold ReadFrame.enterMessage at h
  split at h
  · rename_i thrown' hallocate
    cases h
    unfold Buffer.Allocate at hallocate
    split at hallocate
    · simp only at hallocate
      split at hallocate
      · cases hallocate
        rfl
      · cases hallocate
    · cases hallocate
  · split at h <;> cases h

/-- Only `mallocError` escapes from `readData`, and only behind a header. -/
theorem ReadFrame.escaped_cases {current chunk : List Byte} {f : ReadFrame} {thrown : Thrown}
    {m : TcpMessage} (h : f.InStep order current) (hfits : chunk.length ≤ f.requested)
    (hwhole : f.state = .MESSAGE ∨ chunk = [] ∨ chunk.length = f.requested)
    (hescaped : f.receive alloc order (.data chunk) = .escaped thrown m) :
    thrown = .literal mallocError ∧ (current ++ chunk).length = 12 := by
  cases h with
  | size hstate hremaining hfresh =>
      have hrequested : f.requested = 8 := by simp [ReadFrame.requested, hstate]
      rcases hwhole with hmessage | rfl | hall
      · rw [hstate] at hmessage
        cases hmessage
      · rw [ReadFrame.receive_nil (by rw [hremaining]; decide)] at hescaped
        cases hescaped
      · rw [receive_size_whole hstate hremaining (hall.trans hrequested)] at hescaped
        cases hescaped
  | @type _ size hlength hstate hremaining hfresh hsize =>
      have hrequested : f.requested = 4 := by simp [ReadFrame.requested, hstate]
      rcases hwhole with hmessage | rfl | hall
      · rw [hstate] at hmessage
        cases hmessage
      · rw [ReadFrame.receive_nil (by rw [hremaining]; decide)] at hescaped
        cases hescaped
      · rw [receive_type_whole hstate hremaining (hall.trans hrequested)] at hescaped
        refine ⟨ReadFrame.thrown_of_enterMessage hescaped, ?_⟩
        rw [List.length_append, hlength, hall, hrequested]
  | payload hlength hlength' hloop =>
      rcases hloop.receive alloc order (hfits.trans hloop.requested_le) with
        ⟨f', hf', -⟩ | ⟨m', hm', -⟩
      · rw [hf'] at hescaped
        cases hescaped
      · rw [hm'] at hescaped
        cases hescaped

/-- The reader receives from what is behind `socketObject`. -/
def ReaderPc.AimedAt (c : Client) : ReaderPc → Prop
  | .recv _ fd => fd = c.socketObject
  | _ => True

/-- What may have been taken, behind the last whole frame, from the connection that
`socketObject` leads to. -/
def ReaderPc.Aligned (order : ByteOrder) (c : Client) (tail : List Byte) : ReaderPc → Prop
  | .fetch f | .recv f _ => f.InStep order tail
  | .failing _ (.close fd) => c.socketObject = fd ∨ tail = []
  | .failing _ _ | .terminated => True
  | .poll | .enter | .exited => tail = []

variable {c c' : Client} {e : Event} {pc pc' : ReaderPc} {content : ℕ → List Byte}
variable {receipts new : List (ℕ × TcpMessage)} {tail tail' : ℕ → List Byte}
variable {reported : List TcpMessage}

theorem ReaderPc.Aligned.congr {bytes : List Byte} (h : pc.Aligned order c bytes)
    (hsame : c'.socketObject = c.socketObject) : pc.Aligned order c' bytes := by
  cases pc with
  | failing what point =>
      cases point with
      | close fd => exact h.imp_left hsame.trans
      | _ => trivial
  | _ => exact h

/-- On a connection from which nothing was taken no frame is under way. -/
theorem ReaderPc.aligned_nil {current : List Byte} (h : pc.midFrame = false)
    (hreader : pc.InStep order current) : pc.Aligned order c [] := by
  cases pc with
  | fetch f =>
      have hstate : f.state = .MESSAGE_SIZE := by simpa [midFrame] using h
      have hin : f.InStep order current := hreader
      cases hin with
      | size _ hremaining hfresh => exact .size hstate hremaining hfresh
      | type _ htype => cases hstate.symm.trans htype
      | payload _ _ hloop => cases hstate.symm.trans hloop.state
  | recv f fd => cases h
  | failing what point =>
      cases point with
      | close fd => exact Or.inr rfl
      | _ => trivial
  | terminated => trivial
  | _ => rfl

/-- What a step of the reader does to the receipts and the tails. -/
structure ReaderFlow (order : ByteOrder) (content : ℕ → List Byte)
    (receipts : List (ℕ × TcpMessage)) (tail : ℕ → List Byte) (pc' : ReaderPc) (e : Event)
    (c' : Client) (reported : List TcpMessage) (new : List (ℕ × TcpMessage))
    (tail' : ℕ → List Byte) : Prop where
  carried : Carried (·.bytes order) (fun o => content o ++ e.receivedOn o) (receipts ++ new) tail'
  reports : new.map Prod.snd = reported
  frames : ∀ d ∈ new, IsFrame order (d.2.bytes order)
  unfinished : ∀ o, tail' o = tail o ∨ Unfinished order (tail' o)
  aimed : pc'.AimedAt c'
  aligned : ∀ o, c'.target = some o → pc'.Aligned order c' (tail' o)

theorem readerFlow_of_nothing (hcarried : Carried (·.bytes order) content receipts tail)
    (hnothing : ∀ o, e.receivedOn o = []) (haimed : pc'.AimedAt c')
    (haligned : ∀ o, c'.target = some o → pc'.Aligned order c' (tail o)) :
    ReaderFlow order content receipts tail pc' e c' [] [] tail where
  carried := by
    simp only [hnothing, List.append_nil]
    exact hcarried
  reports := rfl
  frames := nofun
  unfinished o := Or.inl rfl
  aimed := haimed
  aligned := haligned

theorem readerFlow_recv {f : ReadFrame} {fd : Fd} {chunk : List Byte} {o : ℕ}
    (hcarried : Carried (·.bytes order) content receipts tail)
    (haimed : fd = c.socketObject) (htarget : c.target = some o)
    (hin : f.InStep order (tail o)) (hlatest : ∀ d ∈ receipts, d.1 ≤ o)
    (hfits : chunk.length ≤ f.requested)
    (hwhole : f.state = .MESSAGE ∨ chunk = [] ∨ chunk.length = f.requested) :
    ∃ new tail', ReaderFlow order content receipts tail
      (ReaderPc.ofProgress (f.receive alloc order (.data chunk)))
      (.recv (c.descriptors fd) (.data chunk)) c (f.receive alloc order (.data chunk)).reported
      new tail' := by
  have hobject : c.descriptors fd = some o := by rw [haimed]; exact htarget
  have hcontent : ∀ i, content i ++ Event.receivedOn i (.recv (c.descriptors fd) (.data chunk)) =
      content i ++ if i = o then chunk else [] := by
    intro i
    by_cases hi : i = o
    · simp [Event.receivedOn, hobject, hi]
    · simp [Event.receivedOn, hobject, hi, Ne.symm hi]
  have hextended := hcarried.extend chunk hcontent
  -- The tail of the current connection is what there is of the frame, the other ones stay.
  have hadvances := hin.receive alloc hfits hwhole
  cases hprogress : f.receive alloc order (.data chunk) with
  | receiving f' =>
      rw [hprogress] at hadvances
      cases hadvances with
      | receiving hunfinished hnext =>
          refine ⟨[], Function.update tail o (tail o ++ chunk), ?_, rfl, nofun,
            update_eq_or hnext.unfinished, trivial, ?_⟩
          · rwa [List.append_nil]
          · intro i hi
            rw [Client.update_target htarget _ i hi]
            exact hnext
  | returned m =>
      rw [hprogress] at hadvances
      cases hadvances with
      | returned hframe hbytes =>
          have hall : Function.update tail o (tail o ++ chunk) o = m.bytes order := by
            rw [Function.update_self, hbytes]
          have hdelivered := hextended.deliver hlatest hall
          rw [Function.update_idem] at hdelivered
          refine ⟨[(o, m)], _, hdelivered, rfl, ?_, update_eq_or (unfinished_of_lt (by simp)),
            trivial, Client.update_target htarget _⟩
          intro d hd
          rw [List.mem_singleton.mp hd, hbytes]
          exact hframe
  | failed what m =>
      rw [hprogress] at hadvances
      cases hadvances
  | escaped thrown m =>
      obtain ⟨rfl, hheader⟩ := ReadFrame.escaped_cases hin hfits hwhole hprogress
      rw [hprogress] at hadvances
      cases hadvances with
      | escaped hunfinished =>
          refine ⟨[], Function.update tail o (tail o ++ chunk), ?_, rfl, nofun,
            update_eq_or (unfinished_of_header hheader hunfinished), trivial, fun i hi => trivial⟩
          rwa [List.append_nil]

theorem reader_flow {outcome : Outcome} (hstep : readerStep env c pc outcome = some (e, pc'))
    (hconnected : pc = .enter → c.connectionStatus = true)
    (hheader : ReaderPc.headerWhole pc outcome = true) (hanswered : e.answered = true)
    (hcarried : Carried (·.bytes env.order) content receipts tail) (haimed : pc.AimedAt c)
    (haligned : ∀ o, c.target = some o → pc.Aligned env.order c (tail o))
    (hlatest : ∀ d ∈ receipts, ∀ o, c.target = some o → d.1 ≤ o) :
    ∃ new tail', ReaderFlow env.order content receipts tail pc' e (c.after e)
      (ReaderPc.reported env c pc outcome) new tail' := by
  cases pc with
  | poll =>
      cases outcome <;> cases hstep
      refine ⟨[], tail, readerFlow_of_nothing hcarried (fun o => rfl) ?_ ?_⟩
      · split <;> trivial
      · intro o htarget
        have hnothing : tail o = [] := haligned o htarget
        split <;> exact hnothing
  | enter =>
      cases outcome <;> cases hstep
      rename_i messageSize messageType
      simp only [ReaderPc.reported, hconnected rfl]
      refine ⟨[], tail, readerFlow_of_nothing hcarried (fun o => rfl) trivial ?_⟩
      intro o htarget
      have hnothing : tail o = [] := haligned o htarget
      rw [hnothing]
      exact .size rfl rfl rfl
  | fetch f =>
      cases outcome <;> cases hstep
      exact ⟨[], tail, readerFlow_of_nothing hcarried (fun o => rfl) rfl haligned⟩
  | recv f fd =>
      cases outcome <;> try cases hstep
      rename_i result
      obtain ⟨hfits, hnext⟩ := Option.ite_none_right_eq_some.mp hstep
      cases hnext
      cases result with
      | error =>
          exact ⟨[], tail, readerFlow_of_nothing hcarried (fun o => rfl) trivial
            fun o htarget => trivial⟩
      | data chunk =>
          have hopen : c.descriptors fd ≠ none := by simpa [Event.answered] using hanswered
          obtain ⟨o, ho⟩ := Option.ne_none_iff_exists'.mp hopen
          have htarget : c.target = some o := by
            rw [Client.target, ← haimed]
            exact ho
          have hchunk : chunk.length ≤ f.requested := by simpa [RecvResult.fits] using hfits
          have hwhole : f.state = .MESSAGE ∨ chunk = [] ∨ chunk.length = f.requested := by
            simpa [ReaderPc.headerWhole, or_assoc] using hheader
          exact readerFlow_recv hcarried haimed htarget (haligned o htarget)
            (fun d hd => hlatest d hd o htarget) hchunk hwhole
  | failing what point =>
      cases outcome <;> cases hstep
      cases point with
      | clear =>
          exact ⟨[], tail, readerFlow_of_nothing hcarried (fun o => rfl) trivial
            fun o htarget => trivial⟩
      | fetch =>
          exact ⟨[], tail, readerFlow_of_nothing hcarried (fun o => rfl) trivial
            fun o htarget => Or.inl rfl⟩
      | close fd =>
          refine ⟨[], tail, readerFlow_of_nothing hcarried (fun o => rfl) trivial ?_⟩
          intro o htarget
          obtain ⟨hother, hsame⟩ := Client.target_after_close htarget
          exact (haligned o hsame).resolve_left hother
  | exited =>
      cases outcome <;> cases hstep
      exact ⟨[], tail, readerFlow_of_nothing hcarried (fun o => rfl) trivial haligned⟩
  | terminated => cases outcome <;> cases hstep

/-! ## Every run -/

/-- The invariant. -/
structure System.Intake (s : System × List TcpMessage) (order : ByteOrder)
    (receipts : List (ℕ × TcpMessage)) (tail : ℕ → List Byte) : Prop where
  receiving : System.Receiving order s
  numbered : Numbered s.1.client (Tid.controller.obtained (s.1.threads .controller))
    fun o => receivedOn o s.1.history
  carried : Carried (·.bytes order) (fun o => receivedOn o s.1.history) receipts tail
  reports : receipts.map Prod.snd = s.2
  frames : ∀ d ∈ receipts, IsFrame order (d.2.bytes order)
  unfinished : ∀ o, Unfinished order (tail o)
  aimed : ReaderPc.AimedAt s.1.client (s.1.threads .reader)
  aligned : ∀ o, s.1.client.target = some o →
    ReaderPc.Aligned order s.1.client (tail o) (s.1.threads .reader)

theorem intake_start (order : ByteOrder) :
    System.Intake (System.start, []) order [] fun _ => [] where
  receiving := receiving_start
  numbered := by constructor <;> simp [System.start, Client.start, receivedOn]
  carried := Carried.nothing _
  reports := rfl
  frames := nofun
  unfinished _ := unfinished_of_lt (by simp)
  aimed := trivial
  aligned _ _ := rfl

theorem receivedOn_append (object : ℕ) (history : List Event) (e : Event) :
    receivedOn object (history ++ [e]) = receivedOn object history ++ e.receivedOn object := by
  simp [receivedOn]

theorem Event.receivedOn_of_exclusive (he : e.exclusive ≠ some .reader) (o : ℕ) :
    e.receivedOn o = [] := by
  cases e with
  | recv object result => exact absurd rfl he
  | _ => rfl

/-- What is reported was taken before anything that is taken from a later connection. -/
theorem System.Intake.latest {s : System × List TcpMessage}
    (h : System.Intake s order receipts tail) :
    ∀ d ∈ receipts, ∀ o, s.1.client.target = some o → d.1 ≤ o := by
  apply h.numbered.latest_of_carried h.carried
  intro d hd hnothing
  have hlong := (h.frames d hd).1
  rw [hnothing] at hlong
  cases hlong

theorem System.reported_of_other {s : System} {act : Act} (htid : act.tid ≠ some .reader) :
    s.reported env act = [] := by
  cases act with
  | thread tid outcome =>
      cases tid with
      | reader => exact absurd rfl htid
      | _ => rfl
  | pushWriteBuffer data => rfl

theorem intake_of_others {s t : System × List TcpMessage} {act : Act}
    (h : System.Intake s order receipts tail) (hreceiving : System.Receiving order t)
    (hsystem : s.1.step env act = some t.1) (htrace : t.2 = s.2 ++ s.1.reported env act)
    (hevent : s.1.eventOf env act = some e) (hguard : KeepsReading env s act)
    (htid : act.tid ≠ some .reader) (hexclusive : e.exclusive ≠ some .reader)
    (hstays : t.1.threads .reader = s.1.threads .reader) :
    System.Intake t order receipts tail := by
  obtain ⟨hclient, hhistory, -⟩ := System.focus_of_event .reader hsystem hevent
  obtain ⟨-, hkeeps⟩ := hguard.2 e hevent
  have hnumbering := numbering_of_step hsystem hevent
  have hcontent : (fun o => receivedOn o t.1.history) = fun o => receivedOn o s.1.history := by
    funext o
    rw [hhistory, receivedOn_append, e.receivedOn_of_exclusive hexclusive, List.append_nil]
  constructor
  · exact hreceiving
  · rw [hclient, hcontent]
    exact h.numbered.move hnumbering
  · rw [hcontent]
    exact h.carried
  · rw [htrace, System.reported_of_other htid, List.append_nil]
    exact h.reports
  · exact h.frames
  · exact h.unfinished
  · have haimed := h.aimed
    rw [hstays, hclient]
    revert haimed hkeeps
    cases s.1.threads .reader with
    | recv f fd =>
        intro hkeeps haimed
        exact Eq.trans haimed (hkeeps rfl).1.symm
    | _ => exact fun _ _ => trivial
  · rw [hstays, hclient]
    apply h.numbered.aligned_after
      (A := fun c bytes => ReaderPc.Aligned order c bytes (s.1.threads .reader)) hnumbering
      h.carried _ _ hkeeps h.aligned
    · intro bytes hsocketObject haligned
      exact haligned.congr hsocketObject
    · intro hmid
      exact ReaderPc.aligned_nil hmid h.receiving.reader

/-- What the reader receives comes from the connection that `socketObject` leads to. -/
theorem receivedOn_eq_nil_or {outcome : Outcome}
    (hstep : readerStep env c pc outcome = some (e, pc')) (haimed : pc.AimedAt c) (o : ℕ) :
    e.receivedOn o = [] ∨ c.target = some o := by
  cases pc with
  | recv f fd =>
      cases outcome <;> try cases hstep
      rename_i result
      obtain ⟨-, hnext⟩ := Option.ite_none_right_eq_some.mp hstep
      cases hnext
      cases result with
      | error => exact Or.inl rfl
      | data chunk =>
          rw [Client.target, ← haimed, Event.receivedOn]
          split
          · exact Or.inr ‹_›
          · exact Or.inl rfl
  | failing what point =>
      cases outcome <;> cases hstep
      cases point <;> exact Or.inl rfl
  | _ => cases outcome <;> cases hstep <;> exact Or.inl rfl

theorem intake_step {s t : System × List TcpMessage} {act : Act}
    (h : System.Intake s env.order receipts tail) (hguard : KeepsReading env s act)
    (hstep : observed (System.stepWhole env) (System.reported env) s act = some t) :
    ∃ receipts' tail', System.Intake t env.order receipts' tail' := by
  have hreceiving := receiving_step h.receiving hguard.1 hstep
  obtain ⟨hwholeStep, htrace⟩ := observed_cases hstep
  obtain ⟨hwhole, hsystem⟩ := Option.ite_none_right_eq_some.mp hwholeStep
  by_cases htid : act.tid = some .reader
  · obtain ⟨outcome, rfl⟩ := Act.eq_of_tid htid
    obtain ⟨⟨e, pc⟩, hthread, hnext⟩ := Option.map_eq_some_iff.mp hsystem
    have hevent : s.1.eventOf env (.thread .reader outcome) = some e :=
      Option.map_eq_some_iff.mpr ⟨_, hthread, rfl⟩
    have hclient : t.1.client = s.1.client.after e := by
      rw [← hnext]
      rfl
    have hhistory : t.1.history = s.1.history ++ [e] := by
      rw [← hnext]
      rfl
    have hpc : t.1.threads .reader = pc := by
      rw [← hnext]
      exact Function.update_self Tid.reader pc s.1.threads
    have hcontent : (fun o => receivedOn o t.1.history) =
        fun o => receivedOn o s.1.history ++ e.receivedOn o := by
      funext o
      rw [hhistory, receivedOn_append]
    obtain ⟨new, tail', hflow⟩ := reader_flow hthread (hguard.1 rfl) hwhole
      (hguard.2 e hevent).1 h.carried h.aimed h.aligned h.latest
    refine ⟨receipts ++ new, tail', hreceiving, ?_, ?_, ?_, ?_, ?_, ?_, ?_⟩
    · rw [hclient, hcontent]
      apply Numbered.move _ (numbering_of_step hsystem hevent)
      apply h.numbered.send
      intro o
      apply (receivedOn_eq_nil_or hthread h.aimed o).imp_left
      intro hnothing
      rw [hnothing, List.append_nil]
    · rw [hcontent]
      exact hflow.carried
    · rw [List.map_append, h.reports, hflow.reports, htrace]
      rfl
    · intro d hd
      rcases List.mem_append.mp hd with hearlier | hnew
      · exact h.frames d hearlier
      · exact hflow.frames d hnew
    · intro o
      rcases hflow.unfinished o with hsame | hunfinished
      · rw [hsame]
        exact h.unfinished o
      · exact hunfinished
    · rw [hclient, hpc]
      exact hflow.aimed
    · rw [hclient, hpc]
      exact hflow.aligned
  · obtain ⟨e, hevent, -, -, ⟨hown, -⟩ | ⟨-, hexclusive, hstays⟩⟩ := System.focus .reader hsystem
    · exact absurd hown htid
    · exact ⟨receipts, tail, intake_of_others h hreceiving hsystem htrace hevent hguard htid
        hexclusive hstays⟩

theorem intake_of_keepsReading {s : System × List TcpMessage}
    (hrun : Guarded (observed (System.stepWhole env) (System.reported env)) (KeepsReading env)
      (System.start, []) s) :
    ∃ receipts tail, System.Intake s env.order receipts tail := by
  apply hrun.invariant ⟨[], _, intake_start env.order⟩
  rintro s act t ⟨receipts, tail, hintake⟩ hguard hstep
  exact intake_step hintake hguard hstep

theorem System.Intake.frames_onChannel {s : System × List TcpMessage}
    (h : System.Intake s order receipts tail) (object : ℕ) :
    ∀ bytes ∈ (onChannel object receipts).map (·.bytes order), IsFrame order bytes := by
  intro bytes hbytes
  obtain ⟨m, hm, rfl⟩ := List.mem_map.mp hbytes
  obtain ⟨d, hd, rfl⟩ := List.mem_map.mp hm
  exact h.frames d (List.mem_of_mem_filter hd)

theorem prefix_of_frames {frames frames' : List (List Byte)}
    (hframes : ∀ bytes ∈ frames, IsFrame order bytes)
    (hframes' : ∀ bytes ∈ frames', IsFrame order bytes) (h : frames.flatten <+: frames'.flatten) :
    frames <+: frames' := by
  have hcode := selfDelimiting_frames order
  apply hcode.prefix_of_prefix hframes hframes'
  rwa [List.flatMap_id, List.flatMap_id]

theorem System.Intake.receives {s : System × List TcpMessage}
    (h : System.Intake s order receipts tail) : System.Receives s order receipts := by
  have hcarries : ∀ messages : List TcpMessage, (∀ m ∈ messages, ∃ data, m.Carries data) →
      ∀ bytes ∈ messages.map (·.frame order), IsFrame order bytes := by
    intro messages hmessages bytes hbytes
    obtain ⟨m, hm, rfl⟩ := List.mem_map.mp hbytes
    obtain ⟨data, hdata⟩ := hmessages m hm
    exact hdata.isFrame order
  have hfirst : ∀ object, ∀ messages : List TcpMessage, (∀ m ∈ messages, ∃ data, m.Carries data) →
      receivedOn object s.1.history <+: (messages.map (·.frame order)).flatten →
      (onChannel object receipts).map (·.bytes order) <+: messages.map (·.frame order) := by
    intro object messages hmessages hbegins
    apply prefix_of_frames (h.frames_onChannel object) (hcarries messages hmessages)
    apply List.IsPrefix.trans _ hbegins
    exact ⟨tail object, (h.carried.content object).symm⟩
  refine ⟨h.reports, h.carried.inOrder, ?_, hfirst, ?_⟩
  · intro object
    exact ⟨tail object, h.carried.content object, h.unfinished object⟩
  · intro object messages hmessages hwhole
    obtain ⟨rest, hrest⟩ := hfirst object messages hmessages (hwhole ▸ List.prefix_rfl)
    -- What is left of the sent frames is the unfinished one.
    have htail : tail object = rest.flatten := by
      have hcontent := (h.carried.content object).symm.trans hwhole
      rw [← hrest, List.flatten_append] at hcontent
      exact List.append_cancel_left hcontent
    have hunfinished : Unfinished order rest.flatten := htail ▸ h.unfinished object
    have hnothing : rest = [] := by
      apply eq_nil_of_unfinished _ hunfinished
      intro bytes hbytes
      apply hcarries messages hmessages
      rw [← hrest]
      exact List.mem_append_right _ hbytes
    rw [← hrest, hnothing, List.append_nil]

/-- No frame is lost, made up or cut wrongly, over any number of connections: in every run in
which header fields arrive whole, `readData` finds the client connected, and no connection is
replaced under a frame, the reader reports, connection by connection, the first messages that
were sent to it. -/
theorem receives_of_keepsReading {s : System × List TcpMessage}
    (hrun : Guarded (observed (System.stepWhole env) (System.reported env)) (KeepsReading env)
      (System.start, []) s) :
    ∃ receipts, System.Receives s env.order receipts := by
  obtain ⟨receipts, tail, hintake⟩ := intake_of_keepsReading hrun
  exact ⟨receipts, hintake.receives⟩

/-- The reader takes a header and a payload of two bytes, in two pieces. -/
def readTwoBytes : List Act :=
  [.thread .reader .plain, .thread .reader (.holds 0 0), .thread .reader .plain,
    .thread .reader (.receives (.data [2, 0, 0, 0, 0, 0, 0, 0])), .thread .reader .plain,
    .thread .reader (.receives (.data [1, 0, 0, 0])), .thread .reader .plain,
    .thread .reader (.receives (.data [65])), .thread .reader .plain,
    .thread .reader (.receives (.data [66]))]

/-- A frame is read; the next one is given up when `recv` fails behind its header, and a third
one comes from a new connection. -/
def readAcross : List Act :=
  connect 5 6 ++ readTwoBytes ++ readTwoBytes.take 7 ++ [.thread .reader (.receives .error)] ++
    List.replicate 5 (.thread .reader .plain) ++ [.thread .controller .plain] ++ connect 5 6 ++
    readTwoBytes

theorem receives_of_keepsReading_readAcross :
    ∃ s receipts, runActs (observed (System.stepWhole Environment.plain)
        (System.reported Environment.plain)) (KeepsReading Environment.plain) (System.start, [])
        readAcross = some s ∧ System.Receives s .little receipts ∧ receipts.length = 2 := by
  obtain ⟨s, hrun, hreports⟩ : ∃ s, runActs (observed (System.stepWhole Environment.plain)
      (System.reported Environment.plain)) (KeepsReading Environment.plain) (System.start, [])
        readAcross = some s ∧ s.2.length = 2 := by
    set_option maxRecDepth 10000 in
    exact ⟨_, rfl, by decide⟩
  obtain ⟨receipts, hreceives⟩ := receives_of_keepsReading (guarded_of_runActs hrun)
  refine ⟨s, receipts, hrun, hreceives, ?_⟩
  have hlength := congrArg List.length hreceives.reports
  rw [List.length_map, hreports] at hlength
  exact hlength

end ControlEngine
