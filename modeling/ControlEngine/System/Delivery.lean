import ControlEngine.Support.Channels
import ControlEngine.System.Interleaving
import ControlEngine.System.Ownership

/-!
# Delivery over many connections

`sendData` ignores nothing that a `send` reports, and the writer ignores everything that
`sendData` reports.  So a message is sent on the connection that the client has at that time,
or it is given up: it is not sent again, and those behind it are sent behind it, on this
connection or on a later one.

Every object that the kernel creates for the client has a number of its own, counted up, and
the one behind `socketObject` is, while it is open, the latest that the client has sent on.
That is why the connections, taken in the order of their numbers, have carried the messages in
the order of their pushes, each of them at most once, and behind them at most the beginning of
one that was given up or that the writer still holds.
-/

namespace ControlEngine

/-- The object behind `socketObject`. -/
def Client.target (c : Client) : Option ℕ := c.descriptors c.socketObject

/-- A `send` of a frame fails, or transmits the whole field and to an open connection; a ping
fails. -/
def Event.whole : Event → Bool
  | .send (.frame _ _) object bytes n => n = -1 ∨ (object ≠ none ∧ n = bytes.length)
  | .send .ping _ _ n => n = -1
  | _ => true

/-- No `send` cuts a field short, no ping is transmitted, and while a frame is under way its
connection may be closed, but not replaced. -/
def KeepsFrames (env : Environment) (s : System) (act : Act) : Prop :=
  ∀ e ∈ s.eventOf env act, e.whole = true ∧
    (WriterPc.inFlight (s.threads .writer) = true →
      (s.client.after e).socketObject = s.client.socketObject ∧
        ((s.client.after e).target = s.client.target ∨ (s.client.after e).target = none))

instance (env : Environment) (s : System) (act : Act) : Decidable (KeepsFrames env s act) :=
  Option.decidableForallMem _

/-- A message that `sendData` has sent and is about to return for. -/
def WriterPc.complete : WriterPc → List TcpMessage
  | .unlock m result => if 0 ≤ result then [m] else []
  | _ => []

/-- The fields before the payload, or the first of them. -/
def HeaderOf (order : ByteOrder) (m : TcpMessage) (tail : List Byte) : Prop :=
  tail = m.partBytes order .size ∨ tail = m.partBytes order .size ++ m.partBytes order .type

/-- `sendData` has returned a failure for the message, or it has neither returned for it nor
sent it whole. -/
def System.Undelivered (s : System) (m : TcpMessage) : Prop :=
  (∃ result < 0, (m, result) ∈ returned s.history) ∨
    m ∈ WriterPc.held (s.threads .writer) ∧ WriterPc.complete (s.threads .writer) = []

/-- The messages that were delivered, each with its connection: they are those that `sendData`
has returned for without a failure, or is about to; none is delivered twice, and the order is
that of the pushes, over all connections; on each connection are their frames, and at most the
first fields of one that is not delivered; and wherever `recv` cuts what is on a connection,
the header fields excepted, `readData` reads back exactly these messages. -/
structure System.Delivers (s : System) (receiver : Allocator) (order : ByteOrder)
    (deliveries : List (ℕ × TcpMessage)) : Prop where
  sent : deliveries.map Prod.snd = sent s.history ++ WriterPc.complete (s.threads .writer)
  once : (deliveries.map Prod.snd).Sublist (pushed s.history)
  inOrder : (deliveries.map Prod.fst).Pairwise (· ≤ ·)
  stream : ∀ object, ∃ tail, bytesOn object s.history =
    ((onChannel object deliveries).map (·.frame order)).flatten ++ tail ∧
      (tail = [] ∨ ∃ m ∈ pushed s.history, s.Undelivered m ∧ HeaderOf order m tail)
  reads : ∀ object cut, HeadersUncut order cut 0 (onChannel object deliveries) →
    ReadsBack receiver order ⟨bytesOn object s.history, cut, .blocks⟩ 0
      (onChannel object deliveries)

/-! ## The numbers of the objects -/

/-- What an event does to the descriptors, and to the one that the controller has obtained. -/
inductive Numbering (c : Client) : Event → Option Fd → Option Fd → Prop
  | close {fd : Fd} {object : Option ℕ} {obtained : Option Fd} :
      Numbering c (.close fd object) obtained obtained
  | socket {fd : Fd} (hfd : 0 ≤ fd) (hfree : c.descriptors fd = none) :
      Numbering c (.socket fd c.created) none (some fd)
  | accept {listener : Option ℕ} {fd : Fd} (hfd : 0 ≤ fd) (hfree : c.descriptors fd = none) :
      Numbering c (.accept listener fd c.created) none (some fd)
  | assign {fd : Fd} {obtained : Option Fd} (hown : 0 ≤ fd → obtained = some fd) :
      Numbering c (.assignSocketObject fd) obtained none
  | still {e : Event} {obtained : Option Fd}
      (hdescriptors : (c.after e).descriptors = c.descriptors)
      (hsocketObject : (c.after e).socketObject = c.socketObject)
      (hcreated : (c.after e).created = c.created) :
      Numbering c e obtained obtained

variable {env : Environment} {order : ByteOrder} {c : Client} {e : Event}
variable {s s' : System} {act : Act}

theorem numbering_of_controllerMove {pc pc' : ControllerPc} (h : ControllerMove env c pc e pc') :
    Numbering c e (Tid.controller.obtained pc) (Tid.controller.obtained pc') := by
  cases h with
  | @socket fd hfd hfree =>
      have hobtained : Tid.controller.obtained (ControllerPc.storeSocket fd) = some fd :=
        if_pos hfd
      rw [hobtained]
      exact .socket hfd hfree
  | @storeSocket fd call =>
      apply Numbering.assign
      intro hfd
      exact if_pos hfd
  | accept ht hne hfree => exact .accept ht hfree
  | closeListener => exact .close
  | storeAccepted => exact .assign fun _ => rfl
  | closing hclose =>
      cases hclose with
      | clear => exact .still rfl rfl rfl
      | fetch => exact .still rfl rfl rfl
      | close => exact .close
  | _ => exact .still rfl rfl rfl

/-- The other threads close descriptors, and no more. -/
theorem numbering_of_others (hexclusive : e.exclusive ≠ some .controller)
    (obtained : Option Fd) : Numbering c e obtained obtained := by
  cases e with
  | assignSocketObject fd => exact absurd rfl hexclusive
  | socket fd object => exact absurd rfl hexclusive
  | accept listener fd object => exact absurd rfl hexclusive
  | close fd object => exact .close
  | _ => exact .still rfl rfl rfl

theorem numbering_of_step (hstep : s.step env act = some s') (hevent : s.eventOf env act = some e) :
    Numbering s.client e (Tid.controller.obtained (s.threads .controller))
      (Tid.controller.obtained (s'.threads .controller)) := by
  obtain ⟨-, -, hcontroller⟩ := System.focus_of_event .controller hstep hevent
  rcases hcontroller with ⟨-, outcome, hthread⟩ | ⟨-, hexclusive, hstays⟩
  · exact numbering_of_controllerMove (controllerMove_of_step hthread)
  · rw [hstays]
    exact numbering_of_others hexclusive _

/-- The open descriptors lead to different objects, and the object behind `socketObject` is the
latest that anything was sent on.  The one that the controller has obtained is the newest, and
nothing was sent on it, unless its number is in `socketObject` already. -/
structure Numbered (c : Client) (obtained : Option Fd) (content : ℕ → List Byte) : Prop where
  nonneg : ∀ fd o, c.descriptors fd = some o → 0 ≤ fd
  once : ∀ fd fd' o, c.descriptors fd = some o → c.descriptors fd' = some o → fd = fd'
  created : ∀ fd o, c.descriptors fd = some o → o < c.created
  obtained : ∀ fd o, obtained = some fd → c.descriptors fd = some o →
    o + 1 = c.created ∧ (fd = c.socketObject ∨ content o = [])
  existing : ∀ o, content o ≠ [] → o < c.created
  latest : ∀ o o', content o ≠ [] → c.target = some o' → o ≤ o'

namespace Numbered

variable {obtained obtained' : Option Fd} {content content' : ℕ → List Byte}

/-- What is sent, is sent to the object behind `socketObject`. -/
theorem send (h : Numbered c obtained content)
    (hcontent : ∀ o, content' o = content o ∨ c.target = some o) :
    Numbered c obtained content' := by
  obtain ⟨hnonneg, honce, hcreated, hobtained, hexisting, hlatest⟩ := h
  simp only [Client.target] at hcontent hlatest
  refine ⟨hnonneg, honce, hcreated, ?_, ?_, ?_⟩
  · grind
  · grind
  · simp only [Client.target]
    grind

theorem move (h : Numbered c obtained content) (hmove : Numbering c e obtained obtained') :
    Numbered (c.after e) obtained' content := by
  obtain ⟨hnonneg, honce, hcreated, hobtained, hexisting, hlatest⟩ := h
  simp only [Client.target] at hlatest
  cases hmove with
  | close =>
      constructor <;> simp only [Client.after, Client.target] <;> grind [Function.update_apply]
  | socket hfd hfree =>
      constructor <;> simp only [Client.after, Client.target] <;> grind [Function.update_apply]
  | accept hfd hfree =>
      constructor <;> simp only [Client.after, Client.target] <;> grind [Function.update_apply]
  | assign hown => constructor <;> simp only [Client.after, Client.target] <;> grind
  | still hdescriptors hsocketObject hcreated =>
      constructor <;> simp only [Client.target, hdescriptors, hsocketObject, hcreated] <;> grind

/-- The object behind `socketObject` stays, is gone, or is one that nothing was sent on. -/
theorem target_after (h : Numbered c obtained content) (hmove : Numbering c e obtained obtained') :
    ((c.after e).socketObject = c.socketObject ∧ (c.after e).target = c.target) ∨
      (c.after e).target = none ∨ ∃ o, (c.after e).target = some o ∧ content o = [] := by
  have hnew : content c.created = [] := by
    by_contra hcontent
    exact absurd (h.existing _ hcontent) (lt_irrefl _)
  have hopened : ∀ (fd : Fd) (c' : Client), c'.socketObject = c.socketObject →
      c'.descriptors = Function.update c.descriptors fd (some c.created) →
      (c'.socketObject = c.socketObject ∧ c'.target = c.target) ∨
        c'.target = none ∨ ∃ o, c'.target = some o ∧ content o = [] := by
    intro fd c' hsocketObject hdescriptors
    rw [Client.target, hsocketObject, hdescriptors]
    by_cases hfd : c.socketObject = fd
    · right; right
      exact ⟨c.created, by rw [hfd, Function.update_self], hnew⟩
    · left
      exact ⟨rfl, Function.update_of_ne hfd _ _⟩
  cases hmove with
  | @close fd object obtained =>
      by_cases hfd : c.socketObject = fd
      · right; left
        simp [Client.target, Client.after, hfd]
      · left
        simp [Client.target, Client.after, hfd]
  | @socket fd hfd hfree => exact hopened fd _ rfl rfl
  | @accept listener fd hfd hfree => exact hopened fd _ rfl rfl
  | @assign fd obtained hown =>
      have htarget : (c.after (.assignSocketObject fd)).target = c.descriptors fd := rfl
      cases hobject : c.descriptors fd with
      | none => exact Or.inr (Or.inl (htarget.trans hobject))
      | some o =>
          have hstored := hown (h.nonneg fd o hobject)
          rcases (h.obtained fd o hstored hobject).2 with rfl | hcontent
          · exact Or.inl ⟨rfl, rfl⟩
          · exact Or.inr (Or.inr ⟨o, htarget.trans hobject, hcontent⟩)
  | still hdescriptors hsocketObject hcreated =>
      left
      rw [Client.target, hdescriptors, hsocketObject]
      exact ⟨rfl, rfl⟩

variable {μ : Type*} {encode : μ → List Byte} {deliveries : List (ℕ × μ)} {tail : ℕ → List Byte}

/-- What is delivered was carried before anything that is carried on a later connection. -/
theorem latest_of_carried (h : Numbered c obtained content)
    (hcarried : Carried encode content deliveries tail)
    (hencode : ∀ d ∈ deliveries, encode d.2 ≠ []) :
    ∀ d ∈ deliveries, ∀ o, c.target = some o → d.1 ≤ o := by
  intro d hd o htarget
  apply h.latest d.1 o _ htarget
  exact hcarried.content_ne_nil hd (hencode d hd)

/-- What a thread relies on about the tail of its connection is kept by the others, if it only
depends on `socketObject`, and holds of a connection that nothing was carried on unless a frame
is under way; and then the connection is not replaced. -/
theorem aligned_after {A : Client → List Byte → Prop} {underWay : Bool}
    (h : Numbered c obtained content) (hmove : Numbering c e obtained obtained')
    (hcarried : Carried encode content deliveries tail)
    (hcongr : ∀ bytes, (c.after e).socketObject = c.socketObject → A c bytes →
      A (c.after e) bytes)
    (hfresh : underWay = false → A (c.after e) [])
    (hkeeps : underWay = true → (c.after e).socketObject = c.socketObject ∧
      ((c.after e).target = c.target ∨ (c.after e).target = none))
    (haligned : ∀ o, c.target = some o → A c (tail o)) :
    ∀ o, (c.after e).target = some o → A (c.after e) (tail o) := by
  intro o htarget
  have hsame : (c.after e).socketObject = c.socketObject → (c.after e).target = c.target →
      A (c.after e) (tail o) := by
    intro hsocketObject hunmoved
    exact hcongr _ hsocketObject (haligned o (hunmoved ▸ htarget))
  rcases h.target_after hmove with ⟨hsocketObject, hunmoved⟩ | hgone | ⟨o', ho', hnew⟩
  · exact hsame hsocketObject hunmoved
  · rw [hgone] at htarget
    cases htarget
  · -- A connection that was replaced has no frame under way.
    cases hflight : underWay with
    | true =>
        obtain ⟨hsocketObject, hunmoved | hgone⟩ := hkeeps hflight
        · exact hsame hsocketObject hunmoved
        · rw [hgone] at htarget
          cases htarget
    | false =>
        obtain rfl : o' = o := Option.some.inj (ho'.symm.trans htarget)
        rw [hcarried.tail_eq_nil hnew]
        exact hfresh hflight

end Numbered

/-- A connection that is still there was not the one that was closed. -/
theorem Client.target_after_close {fd : Fd} {object : Option ℕ} {o : ℕ}
    (htarget : (c.after (.close fd object)).target = some o) :
    c.socketObject ≠ fd ∧ c.target = some o := by
  have hother : c.socketObject ≠ fd := by
    rintro rfl
    simp [Client.target, Client.after] at htarget
  refine ⟨hother, ?_⟩
  rw [← htarget]
  exact (Function.update_of_ne hother none c.descriptors).symm

/-- The tail of the current connection, after it has changed. -/
theorem Client.update_target {tail : ℕ → List Byte} {o : ℕ} (htarget : c.target = some o)
    (text : List Byte) (i : ℕ) (hi : c.target = some i) : Function.update tail o text i = text := by
  rw [Option.some.inj (hi.symm.trans htarget), Function.update_self]

/-! ## The frame under way -/

/-- The messages for which a call of `sendData` returns without a failure. -/
def Event.sent (e : Event) : List TcpMessage :=
  (e.returned.filter fun r => 0 ≤ r.2).map Prod.fst

theorem sent_append (history : List Event) (e : Event) :
    sent (history ++ [e]) = sent history ++ e.sent := by
  rw [sent, returned_append, List.filter_append, List.map_append]
  rfl

/-- The writer sends to the object behind `socketObject`. -/
def WriterPc.AimedAt (c : Client) : WriterPc → Prop
  | .send _ _ fd => fd = c.socketObject
  | _ => True

/-- What may be at the end of what was sent on the connection that `socketObject` leads to. -/
def WriterPc.Aligned (order : ByteOrder) (c : Client) (tail : List Byte) : WriterPc → Prop
  | .failing _ (.close fd) => c.socketObject = fd ∨ tail = []
  | .failing _ _ => True
  | .unlock _ _ => tail = []
  | pc => tail = pc.transmitted order

variable {pc pc' : WriterPc} {content : ℕ → List Byte} {deliveries new : List (ℕ × TcpMessage)}
variable {tail tail' : ℕ → List Byte} {c' : Client}

theorem WriterPc.Aligned.congr {bytes : List Byte} (h : pc.Aligned order c bytes)
    (hsame : c'.socketObject = c.socketObject) : pc.Aligned order c' bytes := by
  cases pc with
  | failing m point =>
      cases point with
      | close fd => exact h.imp_left hsame.trans
      | _ => trivial
  | _ => exact h

/-- On a connection on which nothing was sent no frame is under way. -/
theorem WriterPc.aligned_nil (h : pc.inFlight = false) : pc.Aligned order c [] := by
  cases pc with
  | fetch m part =>
      cases part with
      | size => rfl
      | _ => cases h
  | send m part fd => cases h
  | failing m point =>
      cases point with
      | close fd => exact Or.inr rfl
      | _ => trivial
  | _ => rfl

/-- The call of `sendData` has failed, and is about to return that. -/
def WriterPc.givesUp : WriterPc → Bool
  | .failing _ _ => true
  | .unlock _ result => result < 0
  | _ => false

/-- Why a message has left its first fields on a connection: `sendData` has returned a failure
for it, or is about to, or it is still sending the message there, unless the connection is
closed. -/
inductive LeftBy (done : List (TcpMessage × ℤ)) (pc : WriterPc) (target : Option ℕ) (o : ℕ)
    (m : TcpMessage) : Prop
  | failed {result : ℤ} (hfailed : result < 0) (hdone : (m, result) ∈ done)
  | failing (hheld : m ∈ pc.held) (hgives : pc.givesUp = true)
  | underWay (hheld : m ∈ pc.held) (hflight : pc.inFlight = true)
      (htarget : target = some o ∨ target = none)

/-- Each tail is empty, or what a message has left there. -/
def Short (order : ByteOrder) (done : List (TcpMessage × ℤ)) (pc : WriterPc)
    (target : Option ℕ) (tail : ℕ → List Byte) : Prop :=
  ∀ o, tail o = [] ∨ ∃ m, LeftBy done pc target o m ∧ HeaderOf order m (tail o)

variable {done : List (TcpMessage × ℤ)} {target target' : Option ℕ} {o : ℕ} {m : TcpMessage}

/-- While a frame is under way its connection stays, or is closed. -/
theorem LeftBy.of_others (h : LeftBy done pc target o m)
    (hkeeps : pc.inFlight = true → target' = target ∨ target' = none) :
    LeftBy done pc target' o m := by
  cases h with
  | failed hfailed hdone => exact .failed hfailed hdone
  | failing hheld hgives => exact .failing hheld hgives
  | underWay hheld hflight htarget =>
      refine .underWay hheld hflight ?_
      rcases hkeeps hflight with hsame | hgone
      · rw [hsame]
        exact htarget
      · exact Or.inr hgone

/-- A frame that is sent on one connection has left nothing on another one. -/
theorem LeftBy.of_send {part : FramePart} {fd : Fd} {m' : TcpMessage} {i : ℕ}
    (h : LeftBy done (.send m part fd) (some o) i m') (hne : i ≠ o) (pc' : WriterPc) :
    LeftBy done pc' target' i m' := by
  cases h with
  | failed hfailed hdone => exact .failed hfailed hdone
  | failing hheld hgives => cases hgives
  | underWay hheld hflight htarget =>
      rcases htarget with htarget | htarget
      · exact absurd (Option.some.inj htarget).symm hne
      · cases htarget

theorem WriterMove.leftBy (h : WriterMove env c pc e pc')
    (hfails : ∀ call object bytes n, e = .send call object bytes n → n = -1)
    (hleft : LeftBy done pc c.target o m) :
    LeftBy (done ++ e.returned) pc' (c.after e).target o m := by
  cases hleft with
  | failed hfailed hdone => exact .failed hfailed (List.mem_append_left _ hdone)
  | failing hheld hgives =>
      cases h with
      | closing hclose => cases hclose <;> exact .failing hheld rfl
      | @unlock m' result =>
          rw [List.mem_singleton.mp hheld]
          refine .failed (of_decide_eq_true hgives) (List.mem_append_right _ ?_)
          exact List.mem_singleton_self _
      | _ => cases hgives
  | underWay hheld hflight htarget =>
      cases h with
      | fetch => exact .underWay hheld rfl htarget
      | send hn hlength =>
          have hfailed := hfails _ _ _ _ rfl
          omega
      | sendFails => exact .failing hheld rfl
      | _ => cases hflight

/-- What a step of the writer does to the deliveries and the tails. -/
structure WriterFlow (order : ByteOrder) (content : ℕ → List Byte)
    (deliveries : List (ℕ × TcpMessage)) (tail : ℕ → List Byte) (target : Option ℕ)
    (pc pc' : WriterPc) (e : Event) (c' : Client) (new : List (ℕ × TcpMessage))
    (tail' : ℕ → List Byte) : Prop where
  carried : Carried (·.frame order) (fun o => content o ++ e.bytesOn o) (deliveries ++ new) tail'
  messages : pc.complete ++ new.map Prod.snd = e.sent ++ pc'.complete
  short : ∀ done, Short order done pc target tail →
    Short order (done ++ e.returned) pc' c'.target tail'
  aimed : pc'.AimedAt c'
  aligned : ∀ o, c'.target = some o → pc'.Aligned order c' (tail' o)

theorem writerFlow_of_nothing (hcarried : Carried (·.frame order) content deliveries tail)
    (hnothing : ∀ o, e.bytesOn o = [])
    (hleft : ∀ done o m, LeftBy done pc target o m →
      LeftBy (done ++ e.returned) pc' c'.target o m)
    (hmessages : pc.complete = e.sent ++ pc'.complete)
    (haimed : pc'.AimedAt c') (haligned : ∀ o, c'.target = some o → pc'.Aligned order c' (tail o)) :
    WriterFlow order content deliveries tail target pc pc' e c' [] tail where
  carried := by
    simp only [hnothing, List.append_nil]
    exact hcarried
  messages := by
    rw [List.map_nil, List.append_nil]
    exact hmessages
  short done hshort o := by
    apply (hshort o).imp_right
    rintro ⟨m, hm, hheader⟩
    exact ⟨m, hleft done o m hm, hheader⟩
  aimed := haimed
  aligned := haligned

theorem writerFlow_send {m : TcpMessage} {part : FramePart} {fd : Fd} {o : ℕ}
    (hcarried : Carried (·.frame env.order) content deliveries tail)
    (haimed : fd = c.socketObject) (htarget : c.target = some o)
    (haligned : tail o = (WriterPc.send m part fd).transmitted env.order)
    (hlatest : ∀ d ∈ deliveries, d.1 ≤ o) :
    ∃ new tail', WriterFlow env.order content deliveries tail c.target (.send m part fd)
      (WriterPc.afterSend m (m.partBytes env.order part).length part)
      (.send (.frame m part) (c.descriptors fd) (m.partBytes env.order part)
        (m.partBytes env.order part).length) c new tail' := by
  have hcontent : ∀ i, content i ++ Event.bytesOn i (.send (.frame m part) (c.descriptors fd)
      (m.partBytes env.order part) (m.partBytes env.order part).length) =
      content i ++ if i = o then m.partBytes env.order part else [] := by
    intro i
    have hobject : c.descriptors fd = some o := by rw [haimed]; exact htarget
    by_cases hi : i = o
    · simp [Event.bytesOn, hobject, hi]
    · simp [Event.bytesOn, hobject, hi, Ne.symm hi]
  have hextended := hcarried.extend (m.partBytes env.order part) hcontent
  -- The tail of the current connection is the frame so far, the other ones stay.
  have hothers : ∀ done pc' i, i ≠ o → Short env.order done (.send m part fd) c.target tail →
      ∀ text, Function.update tail o text i = [] ∨ ∃ m', LeftBy done pc' c.target i m' ∧
        HeaderOf env.order m' (Function.update tail o text i) := by
    intro done pc' i hi hshort text
    rw [Function.update_of_ne hi]
    apply (hshort i).imp_right
    rintro ⟨m', hleft, hheader⟩
    rw [htarget] at hleft
    exact ⟨m', hleft.of_send hi pc', hheader⟩
  have hshort : ∀ (pc' : WriterPc) (text : List Byte), m ∈ pc'.held → pc'.inFlight = true →
      HeaderOf env.order m text → ∀ done, Short env.order done (.send m part fd) c.target tail →
      Short env.order (done ++ []) pc' c.target (Function.update tail o text) := by
    intro pc' text hheld hflight htext done hshort i
    rw [List.append_nil]
    by_cases hi : i = o
    · subst hi
      rw [Function.update_self]
      exact Or.inr ⟨m, .underWay hheld hflight (Or.inl htarget), htext⟩
    · exact hothers done pc' i hi hshort text
  cases part with
  | size =>
      rw [haligned] at hextended
      exact ⟨[], _, by rwa [List.append_nil], rfl,
        hshort (.fetch m .type) _ (List.mem_singleton_self m) rfl (Or.inl rfl), trivial,
        Client.update_target htarget _⟩
  | type =>
      rw [haligned] at hextended
      exact ⟨[], _, by rwa [List.append_nil], rfl,
        hshort (.fetch m .payload) _ (List.mem_singleton_self m) rfl (Or.inr rfl), trivial,
        Client.update_target htarget _⟩
  | payload =>
      have hwhole : Function.update tail o (tail o ++ m.partBytes env.order .payload) o =
          m.frame env.order := by
        rw [Function.update_self, haligned]
        rfl
      have hdelivered := hextended.deliver hlatest hwhole
      rw [Function.update_idem] at hdelivered
      refine ⟨[(o, m)], _, hdelivered, ?_, ?_, trivial, Client.update_target htarget _⟩
      · simp [WriterPc.complete, WriterPc.afterSend, Event.sent, Event.returned]
      · intro done hshort i
        by_cases hi : i = o
        · subst hi
          exact Or.inl (Function.update_self _ _ _)
        · exact (List.append_nil done).symm ▸ hothers done _ i hi hshort []

theorem WriterMove.bytesOn_eq_nil_or (h : WriterMove env c pc e pc') (haimed : pc.AimedAt c)
    (o : ℕ) : e.bytesOn o = [] ∨ c.target = some o := by
  cases h with
  | send hn hlength =>
      rw [Client.target, ← haimed]
      rw [Event.bytesOn]
      split
      · exact Or.inr ‹_›
      · exact Or.inl rfl
  | sendFails => exact Or.inl (by simp [Event.bytesOn])
  | closing hclose => cases hclose <;> exact Or.inl rfl
  | _ => exact Or.inl rfl

theorem WriterMove.flow (h : WriterMove env c pc e pc') (hwhole : e.whole = true)
    (hcarried : Carried (·.frame env.order) content deliveries tail) (haimed : pc.AimedAt c)
    (haligned : ∀ o, c.target = some o → pc.Aligned env.order c (tail o))
    (hlatest : ∀ d ∈ deliveries, ∀ o, c.target = some o → d.1 ≤ o) :
    ∃ new tail', WriterFlow env.order content deliveries tail c.target pc pc' e (c.after e) new
      tail' := by
  have hleft : (∀ call object bytes n, e = .send call object bytes n → n = -1) → ∀ done o m,
      LeftBy done pc c.target o m →
      LeftBy (done ++ e.returned) pc' (c.after e).target o m :=
    fun hfails done o m => h.leftBy hfails
  cases h with
  | @send m part fd n hn hlength =>
      simp only [Event.whole, decide_eq_true_eq] at hwhole
      obtain ⟨hopen, rfl⟩ := hwhole.resolve_left (by omega)
      obtain ⟨o, ho⟩ := Option.ne_none_iff_exists'.mp hopen
      have htarget : c.target = some o := by
        rw [Client.target, ← haimed]
        exact ho
      exact writerFlow_send hcarried haimed htarget (haligned o htarget)
        fun d hd => hlatest d hd o htarget
  | sendFails =>
      have hfails := hleft fun _ _ _ n hsend => by cases hsend; rfl
      refine ⟨[], tail, writerFlow_of_nothing hcarried ?_ hfails rfl trivial
        fun o htarget => trivial⟩
      intro o
      simp [Event.bytesOn]
  | @closing m point e next hclose =>
      have hfails := hleft fun _ _ _ n hsend => by subst hsend; cases hclose
      cases hclose with
      | clear => exact ⟨[], tail, writerFlow_of_nothing hcarried (fun o => rfl) hfails rfl trivial
          fun o htarget => trivial⟩
      | fetch => exact ⟨[], tail, writerFlow_of_nothing hcarried (fun o => rfl) hfails rfl trivial
          fun o htarget => Or.inl rfl⟩
      | @close fd =>
          refine ⟨[], tail, writerFlow_of_nothing hcarried (fun o => rfl) hfails rfl trivial ?_⟩
          intro o htarget
          obtain ⟨hother, hsame⟩ := Client.target_after_close htarget
          exact (haligned o hsame).resolve_left hother
  | @fetch m part =>
      have hfails := hleft fun _ _ _ n hsend => by cases hsend
      refine ⟨[], tail, writerFlow_of_nothing hcarried (fun o => rfl) hfails rfl rfl ?_⟩
      intro o htarget
      refine (haligned o htarget).trans ?_
      cases part <;> rfl
  | @unlock m result =>
      have hfails := hleft fun _ _ _ n hsend => by cases hsend
      refine ⟨[], tail, writerFlow_of_nothing hcarried (fun o => rfl) hfails ?_ trivial haligned⟩
      by_cases hresult : 0 ≤ result <;>
        simp [WriterPc.complete, Event.sent, Event.returned, hresult]
  | _ =>
      have hfails := hleft fun _ _ _ n hsend => by cases hsend
      exact ⟨[], tail, writerFlow_of_nothing hcarried (fun o => rfl) hfails rfl trivial haligned⟩

/-! ## Every run -/

/-- The invariant. -/
structure System.Flow (s : System) (order : ByteOrder) (deliveries : List (ℕ × TcpMessage))
    (tail : ℕ → List Byte) : Prop where
  numbered : Numbered s.client (Tid.controller.obtained (s.threads .controller))
    fun o => bytesOn o s.history
  carried : Carried (·.frame order) (fun o => bytesOn o s.history) deliveries tail
  messages : deliveries.map Prod.snd = sent s.history ++ WriterPc.complete (s.threads .writer)
  short : Short order (returned s.history) (s.threads .writer) s.client.target tail
  aimed : WriterPc.AimedAt s.client (s.threads .writer)
  aligned : ∀ o, s.client.target = some o →
    WriterPc.Aligned order s.client (tail o) (s.threads .writer)

theorem flow_start (order : ByteOrder) : System.start.Flow order [] fun _ => [] where
  numbered := by constructor <;> simp [System.start, Client.start, bytesOn]
  carried := Carried.nothing _
  messages := rfl
  short _ := Or.inl rfl
  aimed := trivial
  aligned _ _ := rfl

theorem Event.bytesOn_of_whole (hwhole : e.whole = true) (hexclusive : e.exclusive ≠ some .writer)
    (o : ℕ) : e.bytesOn o = [] := by
  cases e with
  | send call object bytes n =>
      cases call with
      | frame m part => exact absurd rfl hexclusive
      | ping =>
          obtain rfl : n = -1 := by simpa [Event.whole] using hwhole
          simp [Event.bytesOn]
  | _ => rfl

/-- What is delivered was sent before anything that is sent on a later connection. -/
theorem System.Flow.latest (h : s.Flow order deliveries tail) :
    ∀ d ∈ deliveries, ∀ o, s.client.target = some o → d.1 ≤ o := by
  apply h.numbered.latest_of_carried h.carried
  intro d hd hnothing
  have hlength := congrArg List.length hnothing
  simp [TcpMessage.frame, TcpMessage.partBytes] at hlength

theorem flow_of_others (h : s.Flow order deliveries tail) (hstep : s.step env act = some s')
    (hevent : s.eventOf env act = some e) (hguard : KeepsFrames env s act)
    (hexclusive : e.exclusive ≠ some .writer)
    (hstays : s'.threads .writer = s.threads .writer) : s'.Flow order deliveries tail := by
  obtain ⟨hclient, hhistory, -⟩ := System.focus_of_event .writer hstep hevent
  obtain ⟨hwhole, hkeeps⟩ := hguard e hevent
  obtain ⟨hreturned, -⟩ := e.balance (c := s.client) hexclusive
  have hnumbering := numbering_of_step hstep hevent
  have hcontent : (fun o => bytesOn o s'.history) = fun o => bytesOn o s.history := by
    funext o
    rw [hhistory, bytesOn_append]
    simp [bytesOn, e.bytesOn_of_whole hwhole hexclusive]
  constructor
  · rw [hclient, hcontent]
    exact h.numbered.move hnumbering
  · rw [hcontent]
    exact h.carried
  · rw [hhistory, sent_append, Event.sent, hreturned, hstays]
    simpa using h.messages
  · intro o
    apply (h.short o).imp_right
    rintro ⟨m, hleft, htail⟩
    rw [hhistory, returned_append, hreturned, List.append_nil, hstays, hclient]
    exact ⟨m, hleft.of_others fun hflight => (hkeeps hflight).2, htail⟩
  · have haimed := h.aimed
    rw [hstays, hclient]
    revert haimed hkeeps
    cases s.threads .writer with
    | send m part fd =>
        intro hkeeps haimed
        exact Eq.trans haimed (hkeeps rfl).1.symm
    | _ => exact fun _ _ => trivial
  · rw [hstays, hclient]
    apply h.numbered.aligned_after
      (A := fun c bytes => WriterPc.Aligned order c bytes (s.threads .writer)) hnumbering h.carried
      _ WriterPc.aligned_nil hkeeps h.aligned
    intro bytes hsocketObject haligned
    exact haligned.congr hsocketObject

theorem flow_step (h : s.Flow env.order deliveries tail) (hguard : KeepsFrames env s act)
    (hstep : s.step env act = some s') :
    ∃ deliveries' tail', s'.Flow env.order deliveries' tail' := by
  obtain ⟨e, hevent, hclient, hhistory, hwriter | hother⟩ := System.focus .writer hstep
  · obtain ⟨-, outcome, hthread⟩ := hwriter
    obtain ⟨hwhole, -⟩ := hguard e hevent
    obtain ⟨new, tail', hflow⟩ := (writerMove_of_step hthread).flow hwhole h.carried h.aimed
      h.aligned h.latest
    have hcontent : (fun o => bytesOn o s'.history) =
        fun o => bytesOn o s.history ++ e.bytesOn o := by
      funext o
      rw [hhistory, bytesOn_append]
      simp [bytesOn]
    refine ⟨deliveries ++ new, tail', ?_, ?_, ?_, ?_, ?_, ?_⟩
    · rw [hclient, hcontent]
      apply Numbered.move _ (numbering_of_step hstep hevent)
      apply h.numbered.send
      intro o
      apply ((writerMove_of_step hthread).bytesOn_eq_nil_or h.aimed o).imp_left
      intro hnothing
      rw [hnothing, List.append_nil]
    · rw [hcontent]
      exact hflow.carried
    · rw [List.map_append, h.messages, List.append_assoc, hflow.messages, hhistory, sent_append,
        List.append_assoc]
    · rw [hhistory, returned_append, hclient]
      exact hflow.short _ h.short
    · rw [hclient]
      exact hflow.aimed
    · rw [hclient]
      exact hflow.aligned
  · obtain ⟨-, hexclusive, hstays⟩ := hother
    exact ⟨deliveries, tail, flow_of_others h hstep hevent hguard hexclusive hstays⟩

theorem flow_of_keepsFrames (hrun : Guarded (System.step env) (KeepsFrames env) System.start s) :
    ∃ deliveries tail, s.Flow env.order deliveries tail := by
  apply hrun.invariant ⟨[], _, flow_start env.order⟩
  rintro s act t ⟨deliveries, tail, hflow⟩ hguard hstep
  exact flow_step hflow hguard hstep

theorem System.Flow.once (h : s.Flow order deliveries tail) (hbalanced : s.Balanced) :
    (deliveries.map Prod.snd).Sublist (pushed s.history) := by
  rw [h.messages, hbalanced]
  apply List.Sublist.trans _ (List.sublist_append_left _ _)
  apply List.Sublist.append
  · exact (List.filter_sublist).map _
  · cases s.threads .writer with
    | unlock m result =>
        rw [WriterPc.complete]
        split
        · exact List.Sublist.refl _
        · exact List.nil_sublist _
    | _ => exact List.nil_sublist _

/-- What is on a connection can be read back from it. -/
theorem System.Flow.reads {receiver : Allocator}
    (hreceiver : ∀ size : SizeT, size.toNat < 2 ^ 63 → receiver.Provides size)
    (h : s.Flow order deliveries tail) (hreaches : Reaches (System.step env) System.start s)
    (object : ℕ) (cut : ℕ → Bool)
    (huncut : HeadersUncut order cut 0 (onChannel object deliveries)) :
    ReadsBack receiver order ⟨bytesOn object s.history, cut, .blocks⟩ 0
      (onChannel object deliveries) := by
  apply readsBack_of_headersUncut hreceiver _ (h.carried.content object) huncut
  intro m hm
  apply pushesStrings_of_reaches hreaches
  apply (h.once (balanced_of_reaches hreaches)).subset
  obtain ⟨d, hd, rfl⟩ := List.mem_map.mp hm
  exact List.mem_map_of_mem (List.mem_of_mem_filter hd)

theorem LeftBy.undelivered (h : LeftBy (returned s.history) (s.threads .writer) target o m) :
    s.Undelivered m := by
  cases h with
  | failed hfailed hdone => exact Or.inl ⟨_, hfailed, hdone⟩
  | failing hheld hgives =>
      refine Or.inr ⟨hheld, ?_⟩
      cases hpc : s.threads .writer with
      | unlock m' result =>
          rw [hpc] at hgives
          exact if_neg (not_le.mpr (of_decide_eq_true hgives))
      | _ => rfl
  | underWay hheld hflight htarget =>
      refine Or.inr ⟨hheld, ?_⟩
      cases hpc : s.threads .writer with
      | unlock m' result =>
          rw [hpc] at hflight
          cases hflight
      | _ => rfl

theorem System.Undelivered.mem_pushed (h : s.Undelivered m) (hbalanced : s.Balanced) :
    m ∈ pushed s.history := by
  rw [hbalanced, List.append_assoc]
  rcases h with ⟨result, -, hreturned⟩ | ⟨hheld, -⟩
  · exact List.mem_append_left _ (List.mem_map_of_mem hreturned)
  · exact List.mem_append_right _ (List.mem_append_left _ hheld)

theorem System.Flow.delivers {receiver : Allocator}
    (hreceiver : ∀ size : SizeT, size.toNat < 2 ^ 63 → receiver.Provides size)
    (h : s.Flow env.order deliveries tail) (hreaches : Reaches (System.step env) System.start s) :
    s.Delivers receiver env.order deliveries where
  sent := h.messages
  once := h.once (balanced_of_reaches hreaches)
  inOrder := h.carried.inOrder
  stream object := by
    refine ⟨tail object, h.carried.content object, (h.short object).imp_right ?_⟩
    rintro ⟨m, hleft, hheader⟩
    have hundelivered := hleft.undelivered
    exact ⟨m, hundelivered.mem_pushed (balanced_of_reaches hreaches), hundelivered, hheader⟩
  reads := h.reads hreceiver hreaches

/-- At most once and in order, over any number of connections: in every run in which no `send`
cuts a field short, no ping is transmitted, and no connection is replaced under a frame, the
messages that `sendData` returns for without a failure are delivered, each on one connection,
in the order in which they were pushed. -/
theorem delivers_of_keepsFrames {receiver : Allocator}
    (hreceiver : ∀ size : SizeT, size.toNat < 2 ^ 63 → receiver.Provides size)
    (hrun : Guarded (System.step env) (KeepsFrames env) System.start s) :
    ∃ deliveries, s.Delivers receiver env.order deliveries := by
  obtain ⟨deliveries, tail, hflow⟩ := flow_of_keepsFrames hrun
  exact ⟨deliveries, hflow.delivers hreceiver hrun.reaches⟩

/-- A message is sent, the next one is given up when its first `send` fails, and a third one is
sent on a new connection. -/
def deliverAcross : List Act :=
  sendOneByte ++ sendFails.drop (connect 5 6).length ++ [.thread .controller .plain] ++ sendOneByte

theorem delivers_of_keepsFrames_deliverAcross :
    ∃ s deliveries, runActs (System.step Environment.plain) (KeepsFrames Environment.plain)
        System.start deliverAcross = some s ∧
      s.Delivers Allocator.zeroed .little deliveries ∧
      (pushed s.history).length = 3 ∧ deliveries.length = 2 := by
  obtain ⟨s, hrun, hpushed, hsent⟩ : ∃ s,
      runActs (System.step Environment.plain) (KeepsFrames Environment.plain) System.start
        deliverAcross = some s ∧ (pushed s.history).length = 3 ∧
        (sent s.history ++ WriterPc.complete (s.threads .writer)).length = 2 := by
    set_option maxRecDepth 10000 in
    exact ⟨_, rfl, by decide, by decide⟩
  obtain ⟨deliveries, hdelivers⟩ := delivers_of_keepsFrames
    (fun _ hsize => Allocator.zeroed_provides hsize) (guarded_of_runActs hrun)
  refine ⟨s, deliveries, hrun, hdelivers, hpushed, ?_⟩
  have hlength := congrArg List.length hdelivers.sent
  rw [List.length_map, hsent] at hlength
  exact hlength

end ControlEngine
