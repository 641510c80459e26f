import ControlEngine.Socket.Framing
import ControlEngine.System.Accounting
import ControlEngine.System.Connection

/-!
# The stream of one connection

On an established connection the writer transmits frames, field by field and under
`sendMutex`, and the connection controller transmits pings, without the mutex and
without a header.  `Streaming` follows what the writer contributes: the frames of the
messages that `sendData` has returned for, and the fields of the current one that are
sent already.  A receiver finds these frames in the stream if and only if no ping has
been sent.
-/

namespace ControlEngine

/-! ## The bytes on a connection -/

/-- The bytes that an event puts on a connection. -/
def Event.bytesOn (object : ℕ) : Event → List Byte
  | .send _ o bytes n => if o = some object then bytes.take n.toNat else []
  | _ => []

/-- The bytes that were put on a connection, in order. -/
def bytesOn (object : ℕ) (history : List Event) : List Byte :=
  history.flatMap (Event.bytesOn object)

/-- A `send` of `ping`. -/
def Event.isPing : Event → Bool
  | .send .ping _ _ _ => true
  | _ => false

/-- The bytes on a connection without those of the pings. -/
def frameBytesOn (object : ℕ) (history : List Event) : List Byte :=
  bytesOn object (history.filter fun e => !e.isPing)

/-- The fields of the current frame that the writer has sent. -/
def WriterPc.transmitted (order : ByteOrder) : WriterPc → List Byte
  | .fetch m .type | .send m .type _ => m.partBytes order .size
  | .fetch m .payload | .send m .payload _ =>
      m.partBytes order .size ++ m.partBytes order .type
  | .unlock m _ => m.frame order
  | _ => []

/-- The messages that `sendData` has returned for. -/
def finished (history : List Event) : List TcpMessage := (returned history).map Prod.fst

/-- What has happened after `s₀`. -/
def System.since (s₀ s : System) : List Event := s.history.drop s₀.history.length

/-- The stream of a connection that was established in `s₀` consists of the frames of the
messages that were passed to `sendData`, the last one perhaps not whole yet, and `readData`
reads them back wherever `recv` cuts the stream, the header fields excepted. -/
structure System.Framed (s : System) (s₀ : System) (object : ℕ) (receiver : Allocator)
    (order : ByteOrder) : Prop where
  stream : bytesOn object (s₀.since s) =
    ((finished (s₀.since s)).map (·.frame order)).flatten ++
      WriterPc.transmitted order (s.threads .writer)
  reads : ∀ cut, HeadersUncut order cut 0 (finished (s₀.since s)) →
    ReadsBack receiver order ⟨bytesOn object (s₀.since s), cut, .blocks⟩ 0
      (finished (s₀.since s))

@[simp] theorem bytesOn_append (object : ℕ) (before after : List Event) :
    bytesOn object (before ++ after) = bytesOn object before ++ bytesOn object after := by
  simp [bytesOn]

theorem frameBytesOn_append (object : ℕ) (history : List Event) (e : Event) :
    frameBytesOn object (history ++ [e]) =
      frameBytesOn object history ++ if e.isPing then [] else e.bytesOn object := by
  rw [frameBytesOn, List.filter_append, bytesOn_append, frameBytesOn]
  cases hping : e.isPing <;> simp [hping, bytesOn]

theorem finished_append (history : List Event) (e : Event) :
    finished (history ++ [e]) = finished history ++ e.returned.map Prod.fst := by
  simp [finished]

/-- Pings only add bytes. -/
theorem length_frameBytesOn_le (object : ℕ) (history : List Event) :
    (frameBytesOn object history).length ≤ (bytesOn object history).length := by
  induction history with
  | nil => exact le_rfl
  | cons e history ih =>
      cases hping : e.isPing with
      | true =>
          have hcons : frameBytesOn object (e :: history) = frameBytesOn object history := by
            simp [frameBytesOn, hping]
          rw [hcons, bytesOn, List.flatMap_cons, List.length_append]
          exact ih.trans (Nat.le_add_left _ _)
      | false =>
          have hcons : frameBytesOn object (e :: history) =
              e.bytesOn object ++ frameBytesOn object history := by
            simp [frameBytesOn, bytesOn, hping]
          rw [hcons, bytesOn, List.flatMap_cons, List.length_append, List.length_append]
          exact Nat.add_le_add_left ih _

/-- If every ping has put bytes on the connection, the bytes are those of the frames only
when there was none. -/
theorem bytesOn_eq_frameBytesOn_iff {object : ℕ} {history : List Event}
    (hpings : ∀ e ∈ history, e.isPing = true → e.bytesOn object ≠ []) :
    bytesOn object history = frameBytesOn object history ↔
      ∀ e ∈ history, e.isPing = false := by
  constructor
  · intro heq e he
    by_contra hping
    obtain ⟨before, after, rfl⟩ := List.append_of_mem he
    have hbytes := List.length_pos_of_ne_nil (hpings e he (by simpa using hping))
    have hbefore := length_frameBytesOn_le object before
    have hafter := length_frameBytesOn_le object after
    have hlength := congrArg List.length heq
    have hsplit : bytesOn object (before ++ e :: after) =
        bytesOn object before ++ e.bytesOn object ++ bytesOn object after := by
      simp [bytesOn]
    have hsplitFrames : frameBytesOn object (before ++ e :: after) =
        frameBytesOn object before ++ frameBytesOn object after := by
      simp [frameBytesOn, hping]
    rw [hsplit, hsplitFrames] at hlength
    simp only [List.length_append] at hlength
    omega
  · intro hnone
    rw [frameBytesOn, List.filter_eq_self.mpr]
    intro e he
    simp [hnone e he]

/-! ## An established connection -/

/-- The controller has just accepted the connection to `object` and set the status, and no
`sendData` is under way. -/
structure System.Established (s : System) (object : ℕ) : Prop where
  connected : s.client.connectionStatus = true
  target : s.client.descriptors s.client.socketObject = some object
  controller : s.threads .controller = ControllerPc.testStatus .CONNECTED
  writer : WriterPc.held (s.threads .writer) = []

/-- A `send` transmits all its bytes. -/
def Event.accepted : Event → Bool
  | .send _ _ bytes n => n = bytes.length
  | _ => true

/-- The connection stays as it is, and every `send` accepts all its bytes. -/
def StaysEstablished (env : Environment) (s : System) (act : Act) : Prop :=
  ∀ e ∈ s.eventOf env act, (s.client.after e).connectionStatus = true ∧
    s.client.SameTarget (s.client.after e) ∧ e.accepted = true

instance (env : Environment) (s : System) (act : Act) : Decidable (StaysEstablished env s act) :=
  Option.decidableForallMem _

/-- The writer has read the number that is in `socketObject`, and nothing has failed. -/
def WriterPc.OnTarget (c : Client) : WriterPc → Prop
  | .send _ _ fd => fd = c.socketObject
  | .failing _ _ => False
  | _ => True

/-- The controller has read the number that is in `socketObject`. -/
def ControllerPc.OnTarget (c : Client) : ControllerPc → Prop
  | .pingSend fd => fd = c.socketObject
  | _ => True

variable {env : Environment} {c c' : Client} {e : Event} {object : ℕ} {s₀ s s' : System}
variable {act : Act}

/-- A step of the writer on an established connection moves bytes from the current frame
to the stream. -/
theorem WriterMove.transmit {pc pc' : WriterPc} (h : WriterMove env c pc e pc')
    (hpc : pc.OnTarget c) (hconnected : c.connectionStatus = true)
    (htarget : c.descriptors c.socketObject = some object) (haccepted : e.accepted = true) :
    pc'.OnTarget c ∧ e.isPing = false ∧
      pc.transmitted env.order ++ e.bytesOn object =
        ((e.returned.map Prod.fst).map (·.frame env.order)).flatten ++
          pc'.transmitted env.order := by
  cases h with
  | refuse hnot =>
      rw [hconnected] at hnot
      cases hnot
  | @fetch m part =>
      refine ⟨rfl, rfl, ?_⟩
      cases part <;> simp [WriterPc.transmitted, Event.bytesOn, Event.returned]
  | @send m part fd n hn hlength =>
      obtain rfl : fd = c.socketObject := hpc
      have hall : n = (m.partBytes env.order part).length := by
        simpa [Event.accepted] using haccepted
      have hbytes : Event.bytesOn object (.send (.frame m part)
          (c.descriptors c.socketObject) (m.partBytes env.order part) n) =
          m.partBytes env.order part := by
        simp [Event.bytesOn, htarget, hall]
      rw [hbytes]
      cases part with
      | size => exact ⟨trivial, rfl, rfl⟩
      | type => exact ⟨trivial, rfl, rfl⟩
      | payload => exact ⟨trivial, rfl, rfl⟩
  | sendFails => simp [Event.accepted] at haccepted
  | closing hclose => exact hpc.elim
  | @unlock m result =>
      refine ⟨trivial, rfl, ?_⟩
      simp [WriterPc.transmitted, Event.bytesOn, Event.returned]
  | _ => exact ⟨trivial, rfl, rfl⟩

/-- A step of the controller on an established connection sends, if anything, a whole
ping. -/
theorem ControllerMove.transmit {pc pc' : ControllerPc} (h : ControllerMove env c pc e pc')
    (hpc : pc.OnTarget c) (htarget : c.descriptors c.socketObject = some object)
    (haccepted : e.accepted = true) :
    pc'.OnTarget c ∧ (e.isPing = true → e.bytesOn object ≠ []) := by
  cases h with
  | pingSend hn hlength =>
      refine ⟨trivial, fun _ => ?_⟩
      obtain rfl := hpc
      simp only [Event.accepted, decide_eq_true_eq] at haccepted
      simp [Event.bytesOn, htarget, haccepted, pingBytes]
  | pingFails => simp [Event.accepted] at haccepted
  | closing hclose =>
      rename_i next
      cases next <;> cases hclose <;> exact ⟨trivial, fun hping => by cases hping⟩
  | pingFetch => exact ⟨rfl, fun hping => by cases hping⟩
  | _ => exact ⟨trivial, fun hping => by cases hping⟩

theorem Event.bytesOn_of_exclusive_ne (hwriter : e.exclusive ≠ some .writer)
    (hping : e.isPing = false) : e.bytesOn object = [] := by
  cases e with
  | send call o bytes n =>
      cases call with
      | frame m part => exact absurd rfl hwriter
      | ping => cases hping
  | _ => rfl

/-- The invariant of an established connection. -/
structure System.Streaming (s : System) (s₀ : System) (object : ℕ) (order : ByteOrder) :
    Prop where
  later : s₀.history.length ≤ s.history.length
  connected : s.client.connectionStatus = true
  target : s.client.descriptors s.client.socketObject = some object
  controller : ControllerPc.OnTarget s.client (s.threads .controller)
  writer : WriterPc.OnTarget s.client (s.threads .writer)
  pings : ∀ e ∈ s₀.since s, e.isPing = true → e.bytesOn object ≠ []
  frames : frameBytesOn object (s₀.since s) =
    ((finished (s₀.since s)).map (·.frame order)).flatten ++
      WriterPc.transmitted order (s.threads .writer)

theorem System.Established.streaming {order : ByteOrder} (h : s₀.Established object) :
    s₀.Streaming s₀ object order := by
  have hnothing : s₀.since s₀ = [] := by simp [System.since]
  refine ⟨le_rfl, h.connected, h.target, ?_, ?_, ?_, ?_⟩
  · rw [h.controller]
    trivial
  · have hidle := h.writer
    cases hpc : s₀.threads .writer with
    | send => rw [hpc] at hidle; cases hidle
    | failing => rw [hpc] at hidle; cases hidle
    | _ => trivial
  · rw [hnothing]
    intro e he
    cases he
  · have hidle := h.writer
    rw [hnothing]
    cases hpc : s₀.threads .writer with
    | pollStatus => rfl
    | pollSize => rfl
    | pop => rfl
    | _ => rw [hpc] at hidle; cases hidle

theorem WriterPc.OnTarget.congr {pc : WriterPc} (h : pc.OnTarget c) (hsame : c.SameTarget c') :
    pc.OnTarget c' := by
  cases pc with
  | send m part fd => exact h.trans hsame.1.symm
  | _ => exact h

theorem ControllerPc.OnTarget.congr {pc : ControllerPc} (h : pc.OnTarget c)
    (hsame : c.SameTarget c') : pc.OnTarget c' := by
  cases pc with
  | pingSend fd => exact h.trans hsame.1.symm
  | _ => exact h

theorem streaming_step (h : s.Streaming s₀ object env.order)
    (hguard : StaysEstablished env s act) (hstep : s.step env act = some s') :
    s'.Streaming s₀ object env.order := by
  obtain ⟨e, hevent, hclient, hhistory, hwriter⟩ := System.focus .writer hstep
  obtain ⟨-, -, hcontroller⟩ := System.focus_of_event .controller hstep hevent
  obtain ⟨hconnected, hsame, haccepted⟩ := hguard e hevent
  have hsince : s₀.since s' = s₀.since s ++ [e] := by
    rw [System.since, hhistory, List.drop_append_of_le_length h.later]
    rfl
  rw [← hclient] at hconnected hsame
  have hcontroller' : ControllerPc.OnTarget s.client (s'.threads .controller) ∧
      (e.isPing = true → e.bytesOn object ≠ []) := by
    rcases hcontroller with ⟨-, outcome, hthread⟩ | ⟨-, hexclusive, hstays⟩
    · exact (controllerMove_of_step hthread).transmit h.controller h.target haccepted
    · refine ⟨by rw [hstays]; exact h.controller, ?_⟩
      intro hping
      cases e with
      | send call o bytes n =>
          cases call with
          | frame m part => cases hping
          | ping => exact absurd rfl hexclusive
      | _ => cases hping
  have hwriter' : WriterPc.OnTarget s.client (s'.threads .writer) ∧
      WriterPc.transmitted env.order (s.threads .writer) ++
          (if e.isPing then [] else e.bytesOn object) =
        ((e.returned.map Prod.fst).map (·.frame env.order)).flatten ++
          WriterPc.transmitted env.order (s'.threads .writer) := by
    rcases hwriter with ⟨-, outcome, hthread⟩ | ⟨-, hexclusive, hstays⟩
    · obtain ⟨htarget, hping, hbytes⟩ := (writerMove_of_step hthread).transmit h.writer
        h.connected h.target haccepted
      rw [hping]
      exact ⟨htarget, hbytes⟩
    · refine ⟨by rw [hstays]; exact h.writer, ?_⟩
      obtain ⟨hreturned, -⟩ := e.balance (c := s.client) hexclusive
      rw [hreturned, hstays]
      cases hping : e.isPing with
      | true => simp
      | false => simp [Event.bytesOn_of_exclusive_ne hexclusive hping]
  refine
    { later := by rw [hhistory, List.length_append]; exact h.later.trans (Nat.le_add_right _ _)
      connected := hconnected
      target := hsame.2.trans h.target
      controller := hcontroller'.1.congr hsame
      writer := hwriter'.1.congr hsame
      pings := ?_
      frames := ?_ }
  · rw [hsince]
    intro e' he
    rcases List.mem_append.mp he with hold | hnew
    · exact h.pings e' hold
    · rw [List.mem_singleton.mp hnew]
      exact hcontroller'.2
  · rw [hsince, frameBytesOn_append, finished_append, h.frames, List.append_assoc, hwriter'.2]
    simp only [List.map_append, List.flatten_append, List.append_assoc]

/-! ## The messages -/

theorem pushed_of_threadStep {t : Tid} {pc pc' : t.Pc} {outcome : Outcome}
    (h : threadStep env c t pc outcome = some (e, pc')) : e.pushed = [] := by
  cases t with
  | controller =>
      cases controllerMove_of_step h with
      | closing hclose => cases hclose <;> rfl
      | _ => rfl
  | writer => exact (writerMove_of_step h).balance.1
  | reader =>
      cases readerMove_of_step h with
      | closing hclose => cases hclose <;> rfl
      | _ => rfl
  | restart i =>
      cases restartMove_of_step h with
      | call => rfl
      | closing hclose => cases hclose <;> rfl

theorem carries_of_pushWriteBuffer {data : List Byte} {m : TcpMessage}
    (h : pushWriteBuffer env data = some m) : data.length < 2 ^ 63 ∧ m.Carries data := by
  obtain ⟨hshort, hmade⟩ := Option.ite_none_right_eq_some.mp h
  have hok : TcpMesageFromString env.alloc data = .ok m := by
    cases hresult : TcpMesageFromString env.alloc data with
    | error thrown =>
        rw [hresult] at hmade
        cases hmade
    | ok m' =>
        rw [hresult] at hmade
        cases hmade
        rfl
  exact ⟨hshort, carries_of_TcpMesageFromString (by omega) hok⟩

/-- Every pushed message carries a string. -/
def System.PushesStrings (s : System) : Prop :=
  ∀ m ∈ pushed s.history, ∃ data, data.length < 2 ^ 63 ∧ m.Carries data

theorem pushesStrings_step (h : s.PushesStrings) (hstep : s.step env act = some s') :
    s'.PushesStrings := by
  intro m hm
  rcases System.step_cases hstep with
    ⟨t, outcome, e, pc, -, hthread, -, rfl⟩ | ⟨data, m', -, hpush, -, rfl⟩
  · simp only [System.record, pushed_append, pushed_of_threadStep hthread,
      List.append_nil] at hm
    exact h m hm
  · simp only [System.record, pushed_append] at hm
    rcases List.mem_append.mp hm with hold | hnew
    · exact h m hold
    · obtain rfl : m = m' := List.mem_singleton.mp hnew
      exact ⟨data, carries_of_pushWriteBuffer hpush⟩

theorem pushesStrings_of_reaches (hrun : Reaches (System.step env) System.start s) :
    s.PushesStrings := by
  refine hrun.invariant ?_ fun _ _ _ h _ hstep => pushesStrings_step h hstep
  intro m hm
  cases hm

theorem carries_of_finished (s₀ : System) (hrun : Reaches (System.step env) System.start s) :
    ∀ m ∈ finished (s₀.since s), ∃ data, data.length < 2 ^ 63 ∧ m.Carries data := by
  intro m hm
  refine pushesStrings_of_reaches hrun m ?_
  rw [balanced_of_reaches hrun, List.append_assoc]
  refine List.mem_append_left _ ?_
  simp only [finished, returned, System.since, List.mem_map, List.mem_flatMap] at hm ⊢
  obtain ⟨r, ⟨e, he, hr⟩, hfirst⟩ := hm
  exact ⟨r, ⟨e, List.mem_of_mem_drop he, hr⟩, hfirst⟩

/-- The stream stays framed in exactly those runs on an established connection, every send
accepting all its bytes, in which `ping` sends nothing. -/
theorem framed_iff_no_ping {receiver : Allocator}
    (hreceiver : ∀ size : SizeT, size.toNat < 2 ^ 63 → receiver.Provides size)
    (hreaches : Reaches (System.step env) System.start s₀) (hestablished : s₀.Established object)
    (hrun : Guarded (System.step env) (StaysEstablished env) s₀ s) :
    s.Framed s₀ object receiver env.order ↔ ∀ e ∈ s₀.since s, e.isPing = false := by
  have hstreaming : s.Streaming s₀ object env.order :=
    hrun.invariant hestablished.streaming fun _ _ _ h hguard hstep =>
      streaming_step h hguard hstep
  have hcarries := carries_of_finished s₀ (hreaches.trans hrun.reaches)
  rw [← bytesOn_eq_frameBytesOn_iff hstreaming.pings, hstreaming.frames]
  constructor
  · intro hframed
    exact hframed.stream
  · intro hstream
    refine ⟨hstream, ?_⟩
    intro cut huncut
    have hiff : ReadsBack receiver env.order ⟨bytesOn object (s₀.since s), cut, .blocks⟩ 0
          (finished (s₀.since s)) ↔
        HeadersUncut env.order cut 0 (finished (s₀.since s)) := by
      refine readsBack_iff_headersUncut rfl ?_ ?_ hstream
      · intro m hm
        obtain ⟨data, -, hdata⟩ := hcarries m hm
        exact ⟨data, hdata⟩
      · intro m hm
        obtain ⟨data, hshort, hdata⟩ := hcarries m hm
        refine hreceiver _ ?_
        rw [hdata.size]
        exact hshort
    exact hiff.mpr huncut

theorem framed_iff_no_ping_sendOneByte :
    ∃ s₀ s, Reaches (System.step Environment.plain) System.start s₀ ∧
      s₀.Established 1 ∧
      runActs (System.step Environment.plain) (StaysEstablished Environment.plain) s₀
        (sendOneByte.drop 19) = some s ∧
      (s.Framed s₀ 1 Allocator.zeroed .little ↔ ∀ e ∈ s₀.since s, e.isPing = false) ∧
      (bytesOn 1 (s₀.since s)).length = 13 := by
  obtain ⟨s₀, s, hbefore, hestablished, hrun, hlength⟩ : ∃ s₀ s,
      runActs (System.step Environment.plain) (fun _ _ => True) System.start (connect 5 6) =
        some s₀ ∧
      s₀.Established 1 ∧
      runActs (System.step Environment.plain) (StaysEstablished Environment.plain) s₀
        (sendOneByte.drop 19) = some s ∧
      (bytesOn 1 (s₀.since s)).length = 13 :=
    ⟨_, _, rfl, ⟨rfl, rfl, rfl, rfl⟩, rfl, by decide⟩
  have hreaches := guarded_of_runActs hbefore
  exact ⟨s₀, s, hreaches, hestablished, hrun,
    framed_iff_no_ping (fun _ hsize => Allocator.zeroed_provides hsize) hreaches hestablished
      (guarded_of_runActs hrun), hlength⟩

/-- The controller pings between the size of a frame and its type. -/
def pingInside : List Act :=
  beginSend ++ [.thread .writer (.returns 8)] ++
    List.replicate 3 (.thread .controller .plain) ++ [.thread .controller (.returns 4)] ++
    [.thread .writer .plain, .thread .writer (.returns 4), .thread .writer .plain,
      .thread .writer (.returns 1), .thread .writer .plain]

theorem not_framed_pingInside :
    ∃ s₀ s, Reaches (System.step Environment.plain) System.start s₀ ∧
      s₀.Established 1 ∧
      Guarded (System.step Environment.plain) (StaysEstablished Environment.plain) s₀ s ∧
      WriterPc.held (s.threads .writer) = [] ∧
      ∀ receiver, ¬ s.Framed s₀ 1 receiver .little := by
  obtain ⟨s₀, s, hbefore, hestablished, hrun, hidle, hbytes, hframes⟩ : ∃ s₀ s,
      runActs (System.step Environment.plain) (fun _ _ => True) System.start (connect 5 6) =
        some s₀ ∧
      s₀.Established 1 ∧
      runActs (System.step Environment.plain) (StaysEstablished Environment.plain) s₀
        pingInside = some s ∧
      WriterPc.held (s.threads .writer) = [] ∧
      (bytesOn 1 (s₀.since s)).length = 17 ∧
      (((finished (s₀.since s)).map (·.frame .little)).flatten ++
        WriterPc.transmitted .little (s.threads .writer)).length = 13 :=
    ⟨_, _, rfl, ⟨rfl, rfl, rfl, rfl⟩, rfl, rfl, by decide, by decide⟩
  refine ⟨s₀, s, guarded_of_runActs hbefore, hestablished, guarded_of_runActs hrun, hidle, ?_⟩
  intro receiver hframed
  rw [hframed.stream, hframes] at hbytes
  cases hbytes

end ControlEngine
