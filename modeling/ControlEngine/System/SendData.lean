import ControlEngine.System.Interleaving

/-!
# One call of `sendData` after the other

`sendData` transmits a frame in three calls of `send` and takes each of them for
successful unless it returns `-1`.  A `send` that accepts only the first bytes of
what it is given is such a success, so the rest of a field is never transmitted,
and the next frame follows on the same connection.

Here a call is one step from its first statement to its return, as the caller
sees it when no other thread interferes; `writerPath_sendData` connects it with
the steps of the writer.
-/

namespace ControlEngine

/-- The values that `send` can return for some bytes: `-1`, or the number of bytes
that were accepted, at least one of them if there are any. -/
def SendReturns (bytes : List Byte) (n : ℤ) : Prop :=
  n = -1 ∨ (min 1 bytes.length ≤ n ∧ n ≤ bytes.length)

instance (bytes : List Byte) (n : ℤ) : Decidable (SendReturns bytes n) :=
  inferInstanceAs (Decidable (_ ∨ _))

/-- What has come of a call of `sendData`: the bytes that the socket has accepted
of the message, and the returned value. -/
structure SentFrame where
  message : TcpMessage
  accepted : List Byte
  result : ℤ
deriving DecidableEq

/-- `sendData` for the values that its three calls of `send` return. -/
def sendData (order : ByteOrder) (c : Client) (m : TcpMessage) (n : FramePart → ℤ) :
    Client × SentFrame :=
  let unlocked := { c with sendMutex := none }
  let taken (part : FramePart) := (m.partBytes order part).take (n part).toNat
  if c.connectionStatus = true then
    if n .size = -1 then
      (unlocked.closeSocket, ⟨m, [], -1⟩)
    else if n .type = -1 then
      (unlocked.closeSocket, ⟨m, taken .size, -1⟩)
    else if n .payload = -1 then
      (unlocked.closeSocket, ⟨m, taken .size ++ taken .type, -1⟩)
    else
      (unlocked, ⟨m, taken .size ++ taken .type ++ taken .payload, n .payload⟩)
  else
    (unlocked, ⟨m, [], -1⟩)

variable {order : ByteOrder} {c : Client} {m : TcpMessage} {n : FramePart → ℤ}

theorem sendData_of_fails (order : ByteOrder) (m : TcpMessage)
    (hconnected : c.connectionStatus = true) (hfails : ∃ part, n part = -1) :
    (sendData order c m n).1 = { c with sendMutex := none }.closeSocket ∧
      (sendData order c m n).2.result = -1 := by
  obtain ⟨part, hpart⟩ := hfails
  simp only [sendData, hconnected, if_true]
  by_cases hsize : n .size = -1
  · simp [hsize]
  · by_cases htype : n .type = -1
    · simp [hsize, htype]
    · have hpayload : n .payload = -1 := by
        cases part with
        | size => exact absurd hpart hsize
        | type => exact absurd hpart htype
        | payload => exact hpart
      simp [hsize, htype, hpayload]

theorem sendData_of_accepted (order : ByteOrder) (m : TcpMessage)
    (hconnected : c.connectionStatus = true)
    (haccepted : ∀ part, n part ≠ -1) :
    sendData order c m n =
      ({ c with sendMutex := none },
        ⟨m, (m.partBytes order .size).take (n .size).toNat ++
          (m.partBytes order .type).take (n .type).toNat ++
          (m.partBytes order .payload).take (n .payload).toNat, n .payload⟩) := by
  simp [sendData, hconnected, haccepted]

/-- Fields of which something is missing are not the frame. -/
theorem taken_eq_frame_iff (hreturns : ∀ part, SendReturns (m.partBytes order part) (n part))
    (haccepted : ∀ part, n part ≠ -1) :
    (m.partBytes order .size).take (n .size).toNat ++
        (m.partBytes order .type).take (n .type).toNat ++
        (m.partBytes order .payload).take (n .payload).toNat = m.frame order ↔
      ∀ part, n part = (m.partBytes order part).length := by
  have hbounds : ∀ part, 0 ≤ n part ∧ n part ≤ (m.partBytes order part).length := by
    intro part
    rcases hreturns part with hfails | ⟨hlow, hhigh⟩
    · exact absurd hfails (haccepted part)
    · exact ⟨by omega, hhigh⟩
  constructor
  · intro hframe
    have hlength := congrArg List.length hframe
    simp only [TcpMessage.frame, List.length_append, List.length_take] at hlength
    have hsize := hbounds .size
    have htype := hbounds .type
    have hpayload := hbounds .payload
    intro part
    cases part <;> omega
  · intro hwhole
    simp [hwhole, TcpMessage.frame]

/-! ## The call in the steps of the writer -/

/-- The writer takes steps and nobody else does. -/
inductive WriterPath (env : Environment) :
    Client → WriterPc → List Event → Client → WriterPc → Prop
  | done {c : Client} {pc : WriterPc} : WriterPath env c pc [] c pc
  | step {c c' : Client} {pc next pc' : WriterPc} {e : Event} {events : List Event}
      (outcome : Outcome) (hstep : writerStep env c pc outcome = some (e, next))
      (hrest : WriterPath env (c.after e) next events c' pc') :
      WriterPath env c pc (e :: events) c' pc'

/-- Such a path is a run of the system. -/
theorem WriterPath.reaches {env : Environment} {s : System} {c : Client} {pc : WriterPc}
    {events : List Event} (h : WriterPath env s.client (s.threads .writer) events c pc) :
    ∃ s', Reaches (System.step env) s s' ∧ s'.client = c ∧ s'.threads .writer = pc ∧
      s'.history = s.history ++ events := by
  generalize hclient : s.client = c₀ at h
  generalize hwriter : s.threads .writer = pc₀ at h
  induction h generalizing s with
  | done => exact ⟨s, Guarded.refl s, hclient, hwriter, by simp⟩
  | @step c c' pc next pc' e events outcome hstep hrest ih =>
      subst hclient
      subst hwriter
      have htaken : System.step env s (.thread .writer outcome) =
          some (s.record e (Function.update s.threads .writer next)) := by
        simp only [System.step, threadStep, hstep]
        rfl
      obtain ⟨s', hrun, hclient', hwriter', hhistory⟩ :=
        ih (s := s.record e (Function.update s.threads .writer next)) rfl
          rfl
      refine ⟨s', ?_, hclient', hwriter', ?_⟩
      · exact Relation.ReflTransGen.head ⟨_, trivial, htaken⟩ hrun
      · rw [hhistory, System.record, List.append_assoc]
        rfl

section Path

variable {env : Environment} {part : FramePart} {result : ℤ} {events : List Event}
  {c' : Client} {pc' : WriterPc}

theorem writerPath_send {next : WriterPc}
    (hreturns : SendReturns (m.partBytes env.order part) result)
    (hnext : (if result = -1 then .failing m .clear else WriterPc.afterSend m result part) = next)
    (hrest : WriterPath env c next events c' pc') :
    WriterPath env c (.fetch m part)
      (.useSocketObject :: .send (.frame m part) (c.descriptors c.socketObject)
        (m.partBytes env.order part) result :: events) c' pc' := by
  have hbounds : -1 ≤ result ∧ result ≤ (m.partBytes env.order part).length := by
    rcases hreturns with hfails | ⟨hlow, hhigh⟩ <;> omega
  refine .step .plain rfl (.step (.returns result) ?_ hrest)
  subst hnext
  simp only [writerStep, hbounds.1, hbounds.2, true_and, if_true]
  rfl

theorem writerPath_unlock :
    WriterPath env c (.unlock m result) [.unlock m result] { c with sendMutex := none }
      .pollStatus :=
  .step .plain rfl .done

theorem writerPath_failing :
    WriterPath env c (.failing m .clear)
      [.setConnectionStatus false, .takeSocketObject,
        .close c.socketObject (c.descriptors c.socketObject), .unlock m (-1)]
      { c.closeSocket with sendMutex := none } .pollStatus :=
  .step .plain rfl (.step .plain rfl (.step .plain rfl writerPath_unlock))

/-- The call of `sendData` is a path of the writer from the first statement of the
function to its return, with the same effect on the client, the same bytes on the
connection and the same result. -/
theorem writerPath_sendData {object : ℕ} (hfree : c.sendMutex = none)
    (hobject : c.descriptors c.socketObject = some object)
    (hreturns : ∀ part, SendReturns (m.partBytes env.order part) (n part)) :
    ∃ events, WriterPath env c (.enter m) events (sendData env.order c m n).1 .pollStatus ∧
      bytesOn object events = (sendData env.order c m n).2.accepted ∧
      returned events = [(m, (sendData env.order c m n).2.result)] := by
  by_cases hconnected : c.connectionStatus = true
  · have henter : writerStep env c (.enter m) .plain = some (.look, .lock m) := by
      simp [writerStep, hconnected]
    have hlock : writerStep env c (.lock m) .plain = some (.lock, .fetch m .size) := by
      simp [writerStep, hfree]
    rw [sendData, if_pos hconnected]
    by_cases hsize : n .size = -1
    · rw [if_pos hsize]
      refine ⟨_, .step .plain henter (.step .plain hlock
        (writerPath_send (hreturns .size) (if_pos hsize) writerPath_failing)), ?_, rfl⟩
      simp [bytesOn, Event.bytesOn, hsize]
    · rw [if_neg hsize]
      by_cases htype : n .type = -1
      · rw [if_pos htype]
        refine ⟨_, .step .plain henter (.step .plain hlock
          (writerPath_send (hreturns .size) (if_neg hsize)
          (writerPath_send (hreturns .type) (if_pos htype) writerPath_failing))), ?_, rfl⟩
        simp [bytesOn, Event.bytesOn, Client.after, hobject, htype]
      · rw [if_neg htype]
        by_cases hpayload : n .payload = -1
        · rw [if_pos hpayload]
          refine ⟨_, .step .plain henter (.step .plain hlock
            (writerPath_send (hreturns .size) (if_neg hsize)
            (writerPath_send (hreturns .type) (if_neg htype)
            (writerPath_send (hreturns .payload) (if_pos hpayload) writerPath_failing)))), ?_, rfl⟩
          simp [bytesOn, Event.bytesOn, Client.after, hobject, hpayload]
        · rw [if_neg hpayload]
          refine ⟨_, .step .plain henter (.step .plain hlock
            (writerPath_send (hreturns .size) (if_neg hsize)
            (writerPath_send (hreturns .type) (if_neg htype)
            (writerPath_send (hreturns .payload) (if_neg hpayload)
            writerPath_unlock)))), ?_, rfl⟩
          simp [bytesOn, Event.bytesOn, Client.after, hobject]
  · have hrefuse : writerStep env c (.enter m) .plain = some (.look, .unlock m (-1)) := by
      simp [writerStep, hconnected]
    rw [sendData, if_neg hconnected]
    exact ⟨_, .step .plain hrefuse writerPath_unlock, rfl, rfl⟩

end Path

/-! ## Any number of calls -/

/-- A client with the calls of `sendData` that were made on its current connection
while it was connected. -/
structure SendSession where
  client : Client
  calls : List SentFrame

/-- A call of `sendData`, a call of `closeSocket` by someone else, or a new
connection behind a new descriptor. -/
inductive SendAct
  | sendData (m : TcpMessage) (n : FramePart → ℤ)
  | closeSocket
  | connect (fd : Fd)

namespace SendSession

/-- A client that has never been connected. -/
def start : SendSession where
  client := Client.start
  calls := []

/-- The calls on the current connection, one more of them if the client is
connected. -/
def logged (s : SendSession) (call : SentFrame) : List SentFrame :=
  if s.client.connectionStatus = true then s.calls ++ [call] else s.calls

/-- One act. -/
def step (order : ByteOrder) (s : SendSession) : SendAct → Option SendSession
  | .sendData m n =>
      if ∀ part ∈ [FramePart.size, .type, .payload], SendReturns (m.partBytes order part) (n part)
      then
        some
          { client := (ControlEngine.sendData order s.client m n).1
            calls := s.logged (ControlEngine.sendData order s.client m n).2 }
      else
        none
  | .closeSocket => some { s with client := s.client.closeSocket }
  | .connect fd =>
      if s.client.connectionStatus = false ∧ s.client.descriptors fd = none then
        some
          { client :=
              { s.client with
                connectionStatus := true
                socketObject := fd
                descriptors := Function.update s.client.descriptors fd (some s.client.created)
                created := s.client.created + 1 }
            calls := [] }
      else
        none

end SendSession

/-- The connection of a client is closed. -/
def Client.IsClosed (c : Client) : Prop :=
  c.connectionStatus = false ∧ c.descriptors c.socketObject = none

/-- A call that returns a value that is not negative has sent its frame, one that
returns `-1` has closed the connection, and only the last frame on a connection may
be cut short. -/
structure SendSession.Complete (order : ByteOrder) (s : SendSession) : Prop where
  whole : ∀ call ∈ s.calls, 0 ≤ call.result → call.accepted = call.message.frame order
  closed : ∀ call ∈ s.calls, call.result = -1 → s.client.IsClosed
  last : ∀ call ∈ s.calls.dropLast, call.accepted = call.message.frame order

/-- On a connected client some `send` fails, or each accepts all it is given. -/
def WholeOrFailed (order : ByteOrder) (s : SendSession) : SendAct → Prop
  | .sendData m n =>
      s.client.connectionStatus = true →
        (∃ part, n part = -1) ∨ ∀ part, n part = (m.partBytes order part).length
  | .closeSocket | .connect _ => True

/-! ## One act -/

/-- What holds between the calls: nothing is cut short on an open connection. -/
structure SendSession.Clean (order : ByteOrder) (s : SendSession) : Prop where
  complete : s.Complete order
  intact : s.client.connectionStatus = true →
    ∀ call ∈ s.calls, call.accepted = call.message.frame order

variable {s t : SendSession} {act : SendAct}

theorem clean_start : SendSession.start.Clean order where
  complete :=
    { whole := by simp [SendSession.start]
      closed := by simp [SendSession.start]
      last := by simp [SendSession.start] }
  intact := by simp [SendSession.start]

theorem isClosed_closeSocket (c : Client) : c.closeSocket.IsClosed := by
  simp [Client.IsClosed, Client.closeSocket]

/-- A call on a connected client comes behind the others. -/
theorem clean_logged {call : SentFrame} {c : Client} (h : s.Clean order)
    (hconnected : s.client.connectionStatus = true)
    (hwhole : 0 ≤ call.result → call.accepted = call.message.frame order)
    (hclosed : call.result = -1 → c.IsClosed)
    (hintact : c.connectionStatus = true → call.accepted = call.message.frame order) :
    SendSession.Clean order { client := c, calls := s.logged call } := by
  have hlogged : s.logged call = s.calls ++ [call] := if_pos hconnected
  have hearlier := h.intact hconnected
  have hnone : ∀ earlier ∈ s.calls, earlier.result ≠ -1 := by
    intro earlier hmem hfailed
    have hoff := (h.complete.closed earlier hmem hfailed).1
    rw [hconnected] at hoff
    cases hoff
  rw [hlogged]
  refine ⟨⟨?_, ?_, ?_⟩, ?_⟩
  · intro earlier hmem hresult
    rcases List.mem_append.mp hmem with hold | hnew
    · exact hearlier earlier hold
    · cases List.mem_singleton.mp hnew
      exact hwhole hresult
  · intro earlier hmem hresult
    rcases List.mem_append.mp hmem with hold | hnew
    · exact absurd hresult (hnone earlier hold)
    · cases List.mem_singleton.mp hnew
      exact hclosed hresult
  · intro earlier hmem
    simp only [List.dropLast_concat] at hmem
    exact hearlier earlier hmem
  · intro hopen earlier hmem
    rcases List.mem_append.mp hmem with hold | hnew
    · exact hearlier earlier hold
    · cases List.mem_singleton.mp hnew
      exact hintact hopen

theorem forall_part {P : FramePart → Prop}
    (h : ∀ part ∈ [FramePart.size, .type, .payload], P part) (part : FramePart) : P part := by
  cases part <;> exact h _ (by decide)

/-- A call of which some `send` fails, or each accepts all it is given, if it finds the
client connected. -/
theorem clean_sendData {m : TcpMessage} {n : FramePart → ℤ} (h : s.Clean order)
    (hreturns : ∀ part, SendReturns (m.partBytes order part) (n part))
    (hguard : WholeOrFailed order s (.sendData m n)) :
    SendSession.Clean order
      { client := (sendData order s.client m n).1
        calls := s.logged (sendData order s.client m n).2 } := by
  by_cases hconnected : s.client.connectionStatus = true
  · by_cases hfails : ∃ part, n part = -1
    · obtain ⟨hclient, hresult⟩ := sendData_of_fails order m hconnected hfails
      have hclosed : (sendData order s.client m n).1.IsClosed := by
        rw [hclient]
        exact isClosed_closeSocket _
      refine clean_logged h hconnected ?_ (fun _ => hclosed) ?_
      · intro hnonneg
        rw [hresult] at hnonneg
        exact absurd hnonneg (by decide)
      · intro hopen
        rw [hclosed.1] at hopen
        cases hopen
    · have haccepted : ∀ part, n part ≠ -1 := fun part hpart => hfails ⟨part, hpart⟩
      have hall := (hguard hconnected).resolve_left hfails
      have hframe := (taken_eq_frame_iff hreturns haccepted).mpr hall
      rw [sendData_of_accepted order m hconnected haccepted]
      refine clean_logged h hconnected (fun _ => hframe) ?_ (fun _ => hframe)
      intro hfailed
      exact absurd hfailed (haccepted .payload)
  · have hlogged : s.logged (sendData order s.client m n).2 = s.calls := if_neg hconnected
    have hclient : (sendData order s.client m n).1 = { s.client with sendMutex := none } := by
      simp [sendData, hconnected]
    rw [hlogged, hclient]
    exact
      { complete :=
          { whole := h.complete.whole
            closed := h.complete.closed
            last := h.complete.last }
        intact := h.intact }

theorem clean_step (h : s.Clean order) (hguard : WholeOrFailed order s act)
    (hstep : s.step order act = some t) : t.Clean order := by
  cases act with
  | sendData m n =>
      obtain ⟨hreturns, ht⟩ := Option.ite_none_right_eq_some.mp hstep
      cases ht
      exact clean_sendData h (forall_part hreturns) hguard
  | closeSocket =>
      cases hstep
      exact
        { complete :=
            { whole := h.complete.whole
              closed := fun _ _ _ => isClosed_closeSocket _
              last := h.complete.last }
          intact := by simp [Client.closeSocket] }
  | connect fd =>
      obtain ⟨hfresh, ht⟩ := Option.ite_none_right_eq_some.mp hstep
      cases ht
      exact
        { complete :=
            { whole := by simp
              closed := by simp
              last := by simp }
          intact := by simp }

/-- A frame that was cut short without a failure is one that `sendData` returned a
number of bytes for. -/
theorem guard_of_complete (hstep : s.step order act = some t) (hcomplete : t.Complete order) :
    WholeOrFailed order s act := by
  cases act with
  | sendData m n =>
      obtain ⟨hreturns, ht⟩ := Option.ite_none_right_eq_some.mp hstep
      cases ht
      intro hconnected
      by_cases hfails : ∃ part, n part = -1
      · exact Or.inl hfails
      · right
        have haccepted : ∀ part, n part ≠ -1 := fun part hpart => hfails ⟨part, hpart⟩
        have hlogged : s.logged (sendData order s.client m n).2 =
            s.calls ++ [(sendData order s.client m n).2] := if_pos hconnected
        have hnonneg : 0 ≤ n .payload := by
          rcases forall_part hreturns .payload with hfailed | ⟨hlow, _⟩
          · exact absurd hfailed (haccepted .payload)
          · omega
        have hframe := hcomplete.whole (sendData order s.client m n).2 (by simp [hlogged])
        rw [sendData_of_accepted order m hconnected haccepted] at hframe
        exact (taken_eq_frame_iff (forall_part hreturns) haccepted).mp (hframe hnonneg)
  | closeSocket => trivial
  | connect fd => trivial

/-! ## Every sequence of calls -/

/-- After every call of a sequence the frames are complete if and only if, at every
call on a connected client, some `send` fails or each accepts all it is given. -/
theorem complete_iff_wholeOrFailed (order : ByteOrder) (acts : List SendAct) :
    Along (SendSession.step order) (SendSession.Complete order) SendSession.start acts ↔
      Permitted (SendSession.step order) (WholeOrFailed order) SendSession.start acts := by
  apply along_iff_permitted acts clean_start (fun _ h => h.complete)
  · intro s act t h hguard hstep
    exact clean_step h hguard hstep
  · intro s act t _ hstep hcomplete
    exact guard_of_complete hstep hcomplete

/-- The message made of the string "AB". -/
def lettersAB : TcpMessage where
  messageSize := 2
  messageType := BINARY
  buffer :=
    { allocatedBuffer := some [65, 66]
      capacity := 2
      length := 2
      bufferCursor := BufferCursor.ofCapacity 2
      alreadyAllocatedBuffer := true }

/-- The last `send` accepts one of two bytes; `sendData` returns `1`, the connection
stays open, and the next frame follows. -/
theorem not_complete_lettersAB :
    TcpMesageFromString Allocator.zeroed [65, 66] = .ok lettersAB ∧
      ¬ Along (SendSession.step .little) (SendSession.Complete .little) SendSession.start
        [.connect 5, .sendData lettersAB fun part => if part = .size then 8
          else if part = .type then 4 else 1] := by
  refine ⟨rfl, ?_⟩
  rintro ⟨_, hconnected⟩
  obtain ⟨_, hsent⟩ := hconnected _ rfl
  have hcomplete := hsent _ rfl
  have hframe := hcomplete.whole _ (List.mem_singleton.mpr rfl) (by decide)
  exact absurd hframe (by decide)

end ControlEngine
