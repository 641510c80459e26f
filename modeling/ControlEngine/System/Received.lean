import ControlEngine.System.Moves
import ControlEngine.Socket.Payload
import ControlEngine.Socket.Reassembly
import ControlEngine.Support.Trace

/-!
# What the reader reports as received

The reader logs a message as received whenever `readData` has returned.  `readData`
returns `0` when it has filled the message, and also when it finds the client not
connected, which another thread can bring about after the reader's own test.  Then the
message is reported with whatever its fields held.

The frames that were really consumed are read from the history: the bytes that `recv` has
returned since `readData` was entered are a frame as soon as there are as many of them as
their first eight announce.  Header fields are taken to arrive whole; the payload may
come in any pieces.
-/

namespace ControlEngine

/-! ## Reports and frames -/

/-- The message that `readData` has returned with. -/
def ReadProgress.reported : ReadProgress → List TcpMessage
  | .returned message => [message]
  | _ => []

/-- The messages that a step of the reader logs as received. -/
def ReaderPc.reported (env : Environment) (c : Client) : ReaderPc → Outcome → List TcpMessage
  | .enter, .holds messageSize messageType =>
      (readData c.connectionStatus (TcpMessage.fresh messageSize messageType)).reported
  | .recv f _, .receives result => (f.receive env.alloc env.order result).reported
  | _, _ => []

/-- The messages that an act logs as received. -/
def System.reported (env : Environment) (s : System) : Act → List TcpMessage
  | .thread .reader outcome => ReaderPc.reported env s.client (s.threads .reader) outcome
  | _ => []

/-- The bytes are a whole frame. -/
def IsFrame (order : ByteOrder) (bytes : List Byte) : Prop :=
  12 ≤ bytes.length ∧ bytes.length = 12 + (order.decode 64 (bytes.take 8)).toNat

instance (order : ByteOrder) (bytes : List Byte) : Decidable (IsFrame order bytes) :=
  inferInstanceAs (Decidable (_ ∧ _))

/-- The bytes received since `readData` was entered, and the frames before them, after
another event. -/
def Event.consume (order : ByteOrder) (s : List Byte × List (List Byte)) :
    Event → List Byte × List (List Byte)
  | .enterReadData => ([], s.2)
  | .recv _ (.data chunk) =>
      if IsFrame order (s.1 ++ chunk) then ([], s.2 ++ [s.1 ++ chunk]) else (s.1 ++ chunk, s.2)
  | _ => s

def consumed (order : ByteOrder) (history : List Event) : List Byte × List (List Byte) :=
  history.foldl (Event.consume order) ([], [])

/-- A message as the bytes of its frame. -/
def TcpMessage.bytes (order : ByteOrder) (m : TcpMessage) : List Byte :=
  order.encode 8 m.messageSize ++ order.encode 4 m.messageType ++ m.buffer.contents

/-- There is a report for each frame, and it is about the message in the frame. -/
structure System.ReportsFrames (order : ByteOrder) (s : System × List TcpMessage) : Prop where
  count : s.2.length = (consumed order s.1.history).2.length
  filled : s.2.map (TcpMessage.bytes order) = (consumed order s.1.history).2

/-! ## Header fields that arrive whole -/

/-- `recv` returns a header field whole, or nothing of it. -/
def ReaderPc.headerWhole : ReaderPc → Outcome → Bool
  | .recv f _, .receives (.data chunk) =>
      f.state = .MESSAGE || chunk.isEmpty || chunk.length = f.requested
  | _, _ => true

def System.headerWhole (s : System) : Act → Bool
  | .thread .reader outcome => ReaderPc.headerWhole (s.threads .reader) outcome
  | _ => true

/-- The system, as far as header fields arrive whole. -/
def System.stepWhole (env : Environment) (s : System) (act : Act) : Option System :=
  if s.headerWhole act then s.step env act else none

/-- `readData` finds the client connected. -/
def ReadsConnected (s : System × List TcpMessage) (act : Act) : Prop :=
  act.tid = some .reader → s.1.threads .reader = ReaderPc.enter →
    s.1.client.connectionStatus = true

variable {env : Environment} {order : ByteOrder}

@[simp] theorem consumed_append (history : List Event) (e : Event) :
    consumed order (history ++ [e]) = e.consume order (consumed order history) := by
  simp [consumed, List.foldl_append]

/-- Events that are not the reader's consume nothing. -/
theorem Event.consume_of_exclusive {e : Event} (he : e.exclusive ≠ some .reader)
    (s : List Byte × List (List Byte)) : e.consume order s = s := by
  cases e with
  | enterReadData => exact absurd rfl he
  | recv object result => exact absurd rfl he
  | _ => rfl

/-! ## One call of `recv` -/

/-- The bytes received so far and the variables of `readData` are in step. -/
inductive ReadFrame.InStep (order : ByteOrder) : List Byte → ReadFrame → Prop
  | size {f : ReadFrame} (hstate : f.state = .MESSAGE_SIZE) (hremaining : f.readRemaining = 8)
      (hfresh : f.message.buffer = Buffer.fresh) : ReadFrame.InStep order [] f
  | type {f : ReadFrame} {size : List Byte} (hlength : size.length = 8)
      (hstate : f.state = .MESSAGE_TYPE) (hremaining : f.readRemaining = 4)
      (hfresh : f.message.buffer = Buffer.fresh)
      (hsize : f.message.messageSize = order.decode 64 size) : ReadFrame.InStep order size f
  | payload {f : ReadFrame} {size type received : List Byte} (hlength : size.length = 8)
      (hlength' : type.length = 4)
      (hloop : Assembling received (order.decode 64 size) (order.decode 32 type) f) :
      ReadFrame.InStep order (size ++ type ++ received) f

/-- What a call of `recv` that returns data leads to. -/
inductive ReadFrame.Advances (order : ByteOrder) (current : List Byte) : ReadProgress → Prop
  | receiving {f : ReadFrame} (hunfinished : ¬ IsFrame order current)
      (hnext : f.InStep order current) : ReadFrame.Advances order current (.receiving f)
  | returned {m : TcpMessage} (hframe : IsFrame order current)
      (hbytes : m.bytes order = current) : ReadFrame.Advances order current (.returned m)
  | escaped {thrown : Thrown} {m : TcpMessage} (hunfinished : ¬ IsFrame order current) :
      ReadFrame.Advances order current (.escaped thrown m)

theorem isFrame_iff {size type received : List Byte} (hlength : size.length = 8)
    (hlength' : type.length = 4) :
    IsFrame order (size ++ type ++ received) ↔
      received.length = (order.decode 64 size).toNat := by
  have htake : (size ++ type ++ received).take 8 = size := by
    rw [List.append_assoc, ← hlength, List.take_left]
  simp only [IsFrame, htake, List.length_append]
  omega

/-- The first fields of a frame are no frame. -/
theorem not_isFrame_of_lt {bytes : List Byte} (hshort : bytes.length < 12) :
    ¬ IsFrame order bytes := by
  rintro ⟨hlong, -⟩
  omega

/-- While the payload loop runs, the frame is not whole. -/
theorem not_isFrame_of_assembling {size type received : List Byte} {t : BitVec 32} {f : ReadFrame}
    (hlength : size.length = 8) (hlength' : type.length = 4)
    (hloop : Assembling received (order.decode 64 size) t f) :
    ¬ IsFrame order (size ++ type ++ received) := by
  have hpending := hloop.pending
  have hremaining := hloop.remaining
  rw [isFrame_iff hlength hlength']
  omega

/-- A message that was assembled behind its header is the frame. -/
theorem bytes_of_assembled {size type payload : List Byte} {m : TcpMessage}
    (hlength : size.length = 8) (hlength' : type.length = 4)
    (hdone : Assembled payload (order.decode 64 size) (order.decode 32 type) m) :
    m.bytes order = size ++ type ++ payload := by
  rw [TcpMessage.bytes, hdone.messageSize, hdone.messageType, hdone.contents,
    order.encode_decode rfl hlength, order.encode_decode rfl hlength']

theorem advances_enterMessage {alloc : Allocator} {size type : List Byte} {m : TcpMessage}
    (hlength : size.length = 8) (hlength' : type.length = 4)
    (hfresh : m.buffer = Buffer.fresh) (hsize : m.messageSize = order.decode 64 size)
    (htype : m.messageType = order.decode 32 type) :
    ReadFrame.Advances order (size ++ type) (ReadFrame.enterMessage alloc m) := by
  have hiff : IsFrame order (size ++ type) ↔ (order.decode 64 size).toNat = 0 := by
    have hempty : IsFrame order (size ++ type ++ []) ↔
        ([] : List Byte).length = (order.decode 64 size).toNat := isFrame_iff hlength hlength'
    rw [List.append_nil, List.length_nil] at hempty
    rw [hempty, eq_comm]
  by_cases hprovides : alloc.Provides m.messageSize
  · rcases enterMessage_assembles hfresh hprovides with ⟨f, hf, hloop⟩ | ⟨m', hm', hdone⟩
    · rw [hsize, htype] at hloop
      have hnot := not_isFrame_of_assembling hlength hlength' hloop
      have hnext := ReadFrame.InStep.payload hlength hlength' hloop
      rw [List.append_nil] at hnot hnext
      rw [hf]
      exact .receiving hnot hnext
    · rw [hsize, htype] at hdone
      rw [hm']
      refine .returned (hiff.mpr hdone.complete.symm) ?_
      simpa using bytes_of_assembled hlength hlength' hdone
  · have hescapes : ReadFrame.enterMessage alloc m = .escaped (.literal mallocError) m := by
      rw [ReadFrame.enterMessage, hfresh, Buffer.allocate_fresh_of_not_provides hprovides]
    rw [hescapes]
    refine .escaped ?_
    rw [hiff, ← hsize]
    intro hzero
    exact hprovides (Or.inr (BitVec.eq_of_toNat_eq hzero))

theorem ReadFrame.receive_nil {alloc : Allocator} {f : ReadFrame} (hpending : f.readRemaining > 0) :
    f.receive alloc order (.data []) = .receiving f := by
  rw [ReadFrame.receive_data_eq, ReadFrame.accept_nil, if_pos hpending]

theorem ReadFrame.InStep.receive {current chunk : List Byte} {f : ReadFrame} (alloc : Allocator)
    (h : f.InStep order current) (hfits : chunk.length ≤ f.requested)
    (hwhole : f.state = .MESSAGE ∨ chunk = [] ∨ chunk.length = f.requested) :
    ReadFrame.Advances order (current ++ chunk) (f.receive alloc order (.data chunk)) := by
  cases h with
  | size hstate hremaining hfresh =>
      have hrequested : f.requested = 8 := by simp [ReadFrame.requested, hstate]
      rcases hwhole with hmessage | rfl | hall
      · rw [hstate] at hmessage
        cases hmessage
      · rw [ReadFrame.receive_nil (by rw [hremaining]; decide)]
        exact .receiving (not_isFrame_of_lt (by simp)) (.size hstate hremaining hfresh)
      · rw [hrequested] at hall
        rw [receive_size_whole hstate hremaining hall, List.nil_append]
        exact .receiving (not_isFrame_of_lt (by omega)) (.type hall rfl rfl hfresh rfl)
  | @type _ size hlength hstate hremaining hfresh hsize =>
      have hrequested : f.requested = 4 := by simp [ReadFrame.requested, hstate]
      rcases hwhole with hmessage | rfl | hall
      · rw [hstate] at hmessage
        cases hmessage
      · rw [ReadFrame.receive_nil (by rw [hremaining]; decide), List.append_nil]
        exact .receiving (not_isFrame_of_lt (by omega)) (.type hlength hstate hremaining hfresh hsize)
      · rw [hrequested] at hall
        rw [receive_type_whole hstate hremaining hall]
        exact advances_enterMessage hlength hall hfresh hsize rfl
  | @payload _ size type received hlength hlength' hloop =>
      rw [List.append_assoc]
      rcases hloop.receive alloc order (hfits.trans hloop.requested_le) with
        ⟨f', hf', hnext⟩ | ⟨m, hm, hdone⟩
      · rw [hf']
        exact .receiving (not_isFrame_of_assembling hlength hlength' hnext)
          (.payload hlength hlength' hnext)
      · rw [hm]
        exact .returned ((isFrame_iff hlength hlength').mpr hdone.complete)
          (bytes_of_assembled hlength hlength' hdone)

/-! ## The reader among the other threads -/

/-- What the reader relies on where `readData` is about to call `recv`. -/
def ReaderPc.InStep (order : ByteOrder) (current : List Byte) : ReaderPc → Prop
  | .fetch f | .recv f _ => f.InStep order current
  | _ => True

/-- Every frame so far has been reported, and the current one is in step. -/
structure System.Receiving (order : ByteOrder) (s : System × List TcpMessage) : Prop where
  filled : s.2.map (TcpMessage.bytes order) = (consumed order s.1.history).2
  reader : ReaderPc.InStep order (consumed order s.1.history).1 (s.1.threads .reader)

theorem System.Receiving.reportsFrames {s : System × List TcpMessage}
    (h : System.Receiving order s) : System.ReportsFrames order s where
  count := by rw [← h.filled, List.length_map]
  filled := h.filled

theorem receiving_start : System.Receiving order (System.start, []) where
  filled := rfl
  reader := trivial

/-- What the reader reports when `recv` has returned data, and where it goes from there. -/
theorem receives_of_advances {object : Option ℕ} {chunk : List Byte} {progress : ReadProgress}
    {reported : List TcpMessage} {s : List Byte × List (List Byte)}
    (h : ReadFrame.Advances order (s.1 ++ chunk) progress)
    (hfilled : reported.map (TcpMessage.bytes order) = s.2) :
    (reported ++ progress.reported).map (TcpMessage.bytes order) =
        ((Event.recv object (.data chunk)).consume order s).2 ∧
      ReaderPc.InStep order ((Event.recv object (.data chunk)).consume order s).1
        (ReaderPc.ofProgress progress) := by
  cases h with
  | receiving hunfinished hin =>
      simp only [Event.consume, hunfinished, if_false]
      exact ⟨by simpa [ReadProgress.reported] using hfilled, hin⟩
  | returned hframe hbytes =>
      simp only [Event.consume, hframe, if_true]
      exact ⟨by simp [ReadProgress.reported, hfilled, hbytes], trivial⟩
  | @escaped thrown m hunfinished =>
      simp only [Event.consume, hunfinished, if_false]
      refine ⟨by simpa [ReadProgress.reported] using hfilled, ?_⟩
      cases thrown <;> trivial

theorem reader_receives {c : Client} {pc pc' : ReaderPc} {outcome : Outcome} {e : Event}
    {reported : List TcpMessage} {s : List Byte × List (List Byte)}
    (hstep : readerStep env c pc outcome = some (e, pc'))
    (hconnected : pc = .enter → c.connectionStatus = true)
    (hwhole : ReaderPc.headerWhole pc outcome = true)
    (hfilled : reported.map (TcpMessage.bytes env.order) = s.2)
    (hreader : ReaderPc.InStep env.order s.1 pc) :
    (reported ++ ReaderPc.reported env c pc outcome).map (TcpMessage.bytes env.order) =
        (e.consume env.order s).2 ∧
      ReaderPc.InStep env.order (e.consume env.order s).1 pc' := by
  cases pc with
  | poll =>
      cases outcome <;> cases hstep
      refine ⟨by simpa [ReaderPc.reported, Event.consume] using hfilled, ?_⟩
      split <;> trivial
  | enter =>
      cases outcome <;> cases hstep
      rename_i messageSize messageType
      rw [hconnected rfl]
      refine ⟨?_, .size rfl rfl rfl⟩
      simpa [ReaderPc.reported, hconnected rfl, readData, ReadProgress.reported, Event.consume]
        using hfilled
  | fetch f =>
      cases outcome <;> cases hstep
      exact ⟨by simpa [ReaderPc.reported, Event.consume] using hfilled, hreader⟩
  | recv f fd =>
      cases outcome <;> try cases hstep
      rename_i result
      obtain ⟨hfits, hnext⟩ := Option.ite_none_right_eq_some.mp hstep
      cases hnext
      cases result with
      | error =>
          refine ⟨?_, trivial⟩
          simpa [ReaderPc.reported, ReadFrame.receive, ReadProgress.reported, Event.consume]
            using hfilled
      | data chunk =>
          have hchunk : chunk.length ≤ f.requested := by simpa [RecvResult.fits] using hfits
          have hheader : f.state = .MESSAGE ∨ chunk = [] ∨ chunk.length = f.requested := by
            simpa [ReaderPc.headerWhole, or_assoc] using hwhole
          exact receives_of_advances (ReadFrame.InStep.receive env.alloc hreader hchunk hheader)
            hfilled
  | failing what pc =>
      cases outcome <;> cases hstep
      have hclose := closeMove_closeSocket c pc
      have hsame : (closeSocket c pc).1.consume env.order s = s := by
        cases hclose <;> rfl
      refine ⟨by simpa [ReaderPc.reported, hsame] using hfilled, ?_⟩
      cases hclose <;> trivial
  | exited =>
      cases outcome <;> cases hstep
      exact ⟨by simpa [ReaderPc.reported, Event.consume] using hfilled, trivial⟩
  | terminated => cases outcome <;> cases hstep

theorem receiving_of_other {s t : System × List TcpMessage} {act : Act} {e : Event}
    (h : System.Receiving order s) (htid : act.tid ≠ some .reader)
    (hexclusive : e.exclusive ≠ some .reader) (hhistory : t.1.history = s.1.history ++ [e])
    (htrace : t.2 = s.2 ++ s.1.reported env act)
    (hsame : t.1.threads .reader = s.1.threads .reader) : System.Receiving order t := by
  have hnone : s.1.reported env act = [] := by
    cases act with
    | thread tid outcome => cases tid <;> first | rfl | exact absurd rfl htid
    | pushWriteBuffer data => rfl
  have hconsumed : consumed order t.1.history = consumed order s.1.history := by
    rw [hhistory, consumed_append, Event.consume_of_exclusive hexclusive]
  refine ⟨?_, ?_⟩
  · rw [htrace, hnone, List.append_nil, hconsumed]
    exact h.filled
  · rw [hsame, hconsumed]
    exact h.reader

theorem Act.eq_of_tid {act : Act} {tid : Tid} (htid : act.tid = some tid) :
    ∃ outcome, act = .thread tid outcome := by
  cases act with
  | thread t outcome =>
      cases htid
      exact ⟨outcome, rfl⟩
  | pushWriteBuffer data => cases htid

theorem receiving_step {s t : System × List TcpMessage} {act : Act}
    (h : System.Receiving env.order s) (hguard : ReadsConnected s act)
    (hstep : observed (System.stepWhole env) (System.reported env) s act = some t) :
    System.Receiving env.order t := by
  obtain ⟨hwholeStep, htrace⟩ := observed_cases hstep
  obtain ⟨hwhole, hsystem⟩ := Option.ite_none_right_eq_some.mp hwholeStep
  by_cases htid : act.tid = some .reader
  · obtain ⟨outcome, rfl⟩ := Act.eq_of_tid htid
    obtain ⟨⟨e, pc⟩, hthread, hnext⟩ := Option.map_eq_some_iff.mp hsystem
    have hreader := reader_receives hthread (hguard rfl) hwhole h.filled h.reader
    have hhistory : t.1.history = s.1.history ++ [e] := by
      rw [← hnext]
      rfl
    have hpc : t.1.threads .reader = pc := by
      rw [← hnext]
      exact Function.update_self Tid.reader pc s.1.threads
    refine ⟨?_, ?_⟩
    · rw [htrace, hhistory, consumed_append]
      exact hreader.1
    · rw [hhistory, consumed_append, hpc]
      exact hreader.2
  · obtain ⟨e, -, -, hhistory, ⟨hown, -⟩ | ⟨-, hexclusive, hsame⟩⟩ := System.focus .reader hsystem
    · exact absurd hown htid
    · exact receiving_of_other h htid hexclusive hhistory htrace hsame

/-- A report without a frame is one too many. -/
theorem readsConnected_of_reportsFrames {s t : System × List TcpMessage} {act : Act}
    (h : System.Receiving env.order s)
    (hstep : observed (System.stepWhole env) (System.reported env) s act = some t)
    (hreports : System.ReportsFrames env.order t) : ReadsConnected s act := by
  intro htid henter
  by_contra hnot
  obtain ⟨outcome, rfl⟩ := Act.eq_of_tid htid
  obtain ⟨hwholeStep, htrace⟩ := observed_cases hstep
  obtain ⟨-, hsystem⟩ := Option.ite_none_right_eq_some.mp hwholeStep
  obtain ⟨⟨e, pc⟩, hthread, hnext⟩ := Option.map_eq_some_iff.mp hsystem
  have hreader : readerStep env s.1.client .enter outcome = some (e, pc) := by
    rw [← henter]
    exact hthread
  have hreported : ∃ message, s.1.reported env (.thread .reader outcome) = [message] := by
    simp only [System.reported]
    rw [henter]
    cases outcome <;> cases hreader
    exact ⟨_, by simp only [ReaderPc.reported, readData, hnot]; rfl⟩
  have hconsumed : (consumed env.order t.1.history).2 = (consumed env.order s.1.history).2 := by
    have hhistory : t.1.history = s.1.history ++ [e] := by
      rw [← hnext]
      rfl
    rw [hhistory, consumed_append]
    cases outcome <;> cases hreader
    rfl
  obtain ⟨message, hmessage⟩ := hreported
  have hcount := hreports.count
  have hbefore := h.reportsFrames.count
  rw [htrace, hmessage, hconsumed, List.length_append, List.length_singleton] at hcount
  omega

/-- Whatever the other threads do, the reader reports exactly the frames that it has
consumed if and only if every call of `readData` finds the client connected. -/
theorem reportsFrames_iff_readsConnected (env : Environment) (acts : List Act) :
    Along (observed (System.stepWhole env) (System.reported env)) (System.ReportsFrames env.order)
        (System.start, []) acts ↔
      Permitted (observed (System.stepWhole env) (System.reported env)) ReadsConnected
        (System.start, []) acts := by
  have hstart : System.Receiving env.order (System.start, []) := receiving_start
  refine along_iff_permitted acts hstart ?_ ?_ ?_
  · exact fun s h => h.reportsFrames
  · exact fun s act t h hguard hstep => receiving_step h hguard hstep
  · exact fun s act t h hstep hreports => readsConnected_of_reportsFrames h hstep hreports

/-- The socket is closed between the reader's test and that of `readData`. -/
def closeBetweenTests : List Act :=
  connect 5 6 ++
    [.thread .reader .plain, .thread (.restart 0) .plain, .thread (.restart 0) .plain,
      .thread .reader (.holds 0 0)]

theorem not_reportsFrames_closeBetweenTests :
    ∃ s, Reaches (observed (System.stepWhole Environment.plain)
        (System.reported Environment.plain)) (System.start, []) s ∧
      s.2.length = 1 ∧ (consumed .little s.1.history).2.length = 0 ∧
      ¬ System.ReportsFrames .little s := by
  obtain ⟨s, hrun, hreports, hframes⟩ : ∃ s, runActs (observed
      (System.stepWhole Environment.plain) (System.reported Environment.plain))
        (fun _ _ => True) (System.start, []) closeBetweenTests = some s ∧ s.2.length = 1 ∧
        (consumed .little s.1.history).2.length = 0 := ⟨_, rfl, by decide, by decide⟩
  refine ⟨s, guarded_of_runActs hrun, hreports, hframes, ?_⟩
  intro hall
  rw [hall.count, hframes] at hreports
  cases hreports

end ControlEngine
