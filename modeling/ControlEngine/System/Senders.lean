import ControlEngine.Support.Trace
import ControlEngine.System.Interleaving
import ControlEngine.System.Progress
import ControlEngine.System.SendMutex

/-!
# Senders side by side

`sendMutex` is there for threads that send at the same time.  While the client stays connected,
no call takes the branch that unlocks the mutex without having locked it, and then the mutex
does what it is for: the bytes of two frames never mix, however many threads there are and
whatever order they run in.  What they put on the connection is what one thread would have, that
makes all their calls one after the other.  And whoever has the mutex gives it back.
-/

namespace ControlEngine

variable {ι : Type*} [DecidableEq ι]

/-- What is seen of the threads: that one of them calls `sendData`, or does a step of it. -/
inductive SendEvent (ι : Type*)
  | called (i : ι) (m : TcpMessage)
  | happened (i : ι) (e : Event)

namespace SendThreads

/-- What is seen of an act. -/
def observe (env : Environment) (s : SendThreads ι) : SendThreadsAct ι → List (SendEvent ι)
  | .call i m => [.called i m]
  | .step i outcome =>
      ((s.pcs i).bind fun pc => writerStep env s.client pc outcome).toList.map
        fun r => .happened i r.1
  | .others _ => []

end SendThreads

namespace SendEvent

/-- The event, whoever caused it. -/
def event : SendEvent ι → List Event
  | called _ _ => []
  | happened _ e => [e]

/-- The message that a thread has called `sendData` with. -/
def calledBy (i : ι) : SendEvent ι → List TcpMessage
  | called j m => if j = i then [m] else []
  | happened _ _ => []

/-- The message for which a call of a thread has returned. -/
def returnedBy (i : ι) : SendEvent ι → List TcpMessage
  | called _ _ => []
  | happened j e => if j = i then e.returned.map Prod.fst else []

end SendEvent

namespace SendThreads

/-- All that has happened. -/
def events (trace : List (SendEvent ι)) : List Event := trace.flatMap SendEvent.event

/-- What the thread that has locked the mutex has transmitted of its frame. -/
def current (order : ByteOrder) (holder : Option ι) (pcs : ι → Option WriterPc) : List Byte :=
  (holder.bind pcs).elim [] (WriterPc.transmitted order)

/-- Every `send` accepts all its bytes, and the other threads leave the client connected and
the connection in its place. -/
def KeepsOpen (env : Environment) (s : SendThreads ι × List (SendEvent ι)) :
    SendThreadsAct ι → Prop
  | .call _ _ => True
  | .step i outcome =>
      ∀ e ∈ events (s.1.observe env (.step i outcome)), e.accepted = true
  | .others client => client.connectionStatus = true ∧ s.1.client.SameTarget client

instance (env : Environment) (s : SendThreads ι × List (SendEvent ι)) (act : SendThreadsAct ι) :
    Decidable (KeepsOpen env s act) :=
  match act with
  | .call _ _ => inferInstanceAs (Decidable True)
  | .step _ _ => List.decidableBAll _ _
  | .others _ => inferInstanceAs (Decidable (_ ∧ _))

/-- The calls might have been made one after the other: the stream is the frames of those that
have returned, in the order in which they have, and what there is of the frame of the one that
has locked the mutex; every thread has returned for the messages it has called with, in their
order, except for the call it is in; and wherever `recv` cuts the stream, the header fields
excepted, `readData` reads back the messages that were returned for. -/
structure Serial (s : SendThreads ι × List (SendEvent ι)) (object : ℕ) (receiver : Allocator)
    (order : ByteOrder) : Prop where
  stream : bytesOn object (events s.2) =
    ((finished (events s.2)).map (·.frame order)).flatten ++ current order s.1.holder s.1.pcs
  calls : ∀ i, s.2.flatMap (SendEvent.calledBy i) =
    s.2.flatMap (SendEvent.returnedBy i) ++ (s.1.pcs i).elim [] WriterPc.held
  reads : (∀ m ∈ finished (events s.2), ∃ data, data.length < 2 ^ 63 ∧ m.Carries data) →
    ∀ cut, HeadersUncut order cut 0 (finished (events s.2)) →
      ReadsBack receiver order ⟨bytesOn object (events s.2), cut, .blocks⟩ 0
        (finished (events s.2))

end SendThreads

variable {env : Environment} {order : ByteOrder} {c : Client} {e : Event} {pc pc' : WriterPc}

/-! ## A step of a call -/

/-- While nothing fails a call leaves the connection as it is. -/
theorem WriterMove.keeps (h : WriterMove env c pc e pc') (hpc : pc.OnTarget c) :
    (c.after e).connectionStatus = c.connectionStatus ∧ c.SameTarget (c.after e) := by
  cases h with
  | closing hclose => exact hpc.elim
  | _ => exact ⟨rfl, rfl, rfl⟩

/-- A call that has not locked the mutex transmits nothing. -/
theorem WriterMove.silent (h : WriterMove env c pc e pc') (hlocks : pc.locks = none) (object : ℕ) :
    e.bytesOn object = [] ∧ e.returned = [] := by
  cases h with
  | poll | sleep | waiting | empty | pop | enter | refuse | lock => exact ⟨rfl, rfl⟩
  | fetch | send | sendFails | closing | unlock => cases hlocks

/-- The message of a call stays with it until it returns. -/
theorem WriterMove.hands (h : WriterMove env c pc e pc') (hinside : pc.held ≠ []) :
    pc.held = e.returned.map Prod.fst ++ pc'.inSendData.elim [] WriterPc.held ∧
      ∀ next ∈ pc'.inSendData, next.held ≠ [] := by
  cases h with
  | poll | sleep | waiting | empty | pop => exact absurd rfl hinside
  | @send m part fd n hn hlength =>
      cases part <;> exact ⟨rfl, by rintro next ⟨⟩; exact hinside⟩
  | closing hclose =>
      cases hclose <;> exact ⟨rfl, by rintro next ⟨⟩; exact hinside⟩
  | unlock => exact ⟨rfl, nofun⟩
  | _ => exact ⟨rfl, by rintro next ⟨⟩; exact hinside⟩

/-- A call with the mutex has not returned. -/
theorem WriterPc.inSendData_of_locks (hlocks : pc.inSendData.bind WriterPc.locks = some ()) :
    pc.inSendData = some pc := by
  cases pc with
  | pollStatus => cases hlocks
  | _ => rfl

omit [DecidableEq ι] in
/-- Who unlocks the mutex leaves it free. -/
theorem Event.mutex_free {holder : Option ι} {i : ι} (e : Event)
    (hkept : holder = none → c.sendMutex = none) (hfree : e.holder i holder = none) :
    (c.after e).sendMutex = none := by
  cases e with
  | lock => cases hfree
  | unlock m result => rfl
  | _ => exact hkept hfree

namespace SendThreads

variable {s t : SendThreads ι × List (SendEvent ι)} {act : SendThreadsAct ι} {object : ℕ}
variable {client : Client} {holder : Option ι} {pcs : ι → Option WriterPc} {i : ι}

omit [DecidableEq ι] in
theorem events_append (trace : List (SendEvent ι)) (seen : SendEvent ι) :
    events (trace ++ [seen]) = events trace ++ seen.event := by
  simp [events]

theorem step_moves {u v : SendThreads ι} {outcome : Outcome}
    (h : u.step env (.step i outcome) = some v) :
    ∃ pc e pc', u.pcs i = some pc ∧ writerStep env u.client pc outcome = some (e, pc') ∧
      v.client = u.client.after e ∧ v.holder = e.holder i u.holder ∧
      v.pcs = Function.update u.pcs i pc'.inSendData ∧
      v.unlocks = u.unlocks ++ e.unlocks i u.holder := by
  obtain ⟨pc, hpc, hmapped⟩ := Option.bind_eq_some_iff.mp h
  obtain ⟨⟨e, pc'⟩, hwriter, hnext⟩ := Option.map_eq_some_iff.mp hmapped
  refine ⟨pc, e, pc', hpc, hwriter, ?_⟩
  rw [← hnext]
  exact ⟨rfl, rfl, rfl, rfl⟩

theorem observed_cases (h : observed (step env) (observe env) s act = some t) :
    (∃ i m, act = .call i m ∧ s.1.pcs i = none ∧ t.1.client = s.1.client ∧
      t.1.holder = s.1.holder ∧ t.1.pcs = Function.update s.1.pcs i (some (.enter m)) ∧
      t.2 = s.2 ++ [.called i m]) ∨
    (∃ i outcome pc e pc', act = .step i outcome ∧ s.1.pcs i = some pc ∧
      WriterMove env s.1.client pc e pc' ∧ s.1.observe env act = [.happened i e] ∧
      t.1.client = s.1.client.after e ∧ t.1.holder = e.holder i s.1.holder ∧
      t.1.pcs = Function.update s.1.pcs i pc'.inSendData ∧ t.2 = s.2 ++ [.happened i e]) ∨
    (∃ client : Client, act = .others client ∧
      t.1.client = { client with sendMutex := s.1.client.sendMutex } ∧
      t.1.holder = s.1.holder ∧ t.1.pcs = s.1.pcs ∧ t.2 = s.2) := by
  obtain ⟨hstep, htrace⟩ := ControlEngine.observed_cases h
  cases act with
  | call i m =>
      obtain ⟨hoff, hcall⟩ := Option.ite_none_right_eq_some.mp hstep
      rw [← Option.some.inj hcall]
      exact Or.inl ⟨i, m, rfl, hoff, rfl, rfl, rfl, htrace⟩
  | step i outcome =>
      obtain ⟨pc, e, pc', hpc, hwriter, hclient, hholder, hpcs, -⟩ := step_moves hstep
      have hseen : s.1.observe env (.step i outcome) = [.happened i e] := by
        simp [observe, hpc, hwriter]
      rw [hseen] at htrace
      exact Or.inr (Or.inl ⟨i, outcome, pc, e, pc', rfl, hpc, writerMove_of_step hwriter, hseen,
        hclient, hholder, hpcs, htrace⟩)
  | others client =>
      rw [← Option.some.inj hstep]
      exact Or.inr (Or.inr ⟨client, rfl, rfl, rfl, rfl, htrace.trans (List.append_nil _)⟩)

omit [DecidableEq ι] in
theorem current_of_holder {pc : WriterPc} (hpc : pcs i = some pc) :
    current order (some i) pcs = pc.transmitted order := by
  rw [current, Option.bind_some, hpc]
  rfl

/-- A thread that has not locked the mutex has no part in what is transmitted. -/
theorem current_update (hother : holder ≠ some i) (pc : Option WriterPc) :
    current order holder (Function.update pcs i pc) = current order holder pcs := by
  cases holder with
  | none => rfl
  | some j =>
      have hne : j ≠ i := fun heq => hother (congrArg some heq)
      rw [current, current, Option.bind_some, Option.bind_some, Function.update_of_ne hne]

omit [DecidableEq ι] in
theorem held_start (client : Client) : (start client : SendThreads ι).Held :=
  ⟨fun _ => rfl, by simp [Matching, start, sendLocks], by simp [start]⟩

/-- The invariant. -/
structure Open (s : SendThreads ι × List (SendEvent ι)) (object : ℕ) (order : ByteOrder) :
    Prop where
  held : s.1.Held
  connected : s.1.client.connectionStatus = true
  target : s.1.client.descriptors s.1.client.socketObject = some object
  inside : ∀ i pc, s.1.pcs i = some pc → pc.OnTarget s.1.client ∧ pc.held ≠ []
  stream : bytesOn object (events s.2) =
    ((finished (events s.2)).map (·.frame order)).flatten ++ current order s.1.holder s.1.pcs
  calls : ∀ i, s.2.flatMap (SendEvent.calledBy i) =
    s.2.flatMap (SendEvent.returnedBy i) ++ (s.1.pcs i).elim [] WriterPc.held

theorem open_start (hconnected : client.connectionStatus = true)
    (htarget : client.descriptors client.socketObject = some object) :
    Open ((start client : SendThreads ι), []) object order where
  held := held_start client
  connected := hconnected
  target := htarget
  inside := nofun
  stream := rfl
  calls _ := rfl

/-- The bytes of a step come behind those of the call that has locked the mutex. -/
theorem stream_move {pc pc' : WriterPc} (h : s.1.Held) (hpc : s.1.pcs i = some pc)
    (hmove : WriterMove env s.1.client pc e pc') (hconnected : s.1.client.connectionStatus = true)
    (hbytes : pc.transmitted env.order ++ e.bytesOn object =
      ((e.returned.map Prod.fst).map (·.frame env.order)).flatten ++ pc'.transmitted env.order) :
    current env.order s.1.holder s.1.pcs ++ e.bytesOn object =
      ((e.returned.map Prod.fst).map (·.frame env.order)).flatten ++
        current env.order (e.holder i s.1.holder)
          (Function.update s.1.pcs i pc'.inSendData) := by
  have hlocks : sendLocks s.1.pcs i = pc.locks := by
    rw [sendLocks, hpc]
    rfl
  rcases hmove.locking fun _ => hconnected with
    ⟨rfl, hfree, -, -⟩ | ⟨m, result, rfl, hsome, hnone⟩ | ⟨hkept, -, hsame⟩
  · -- The mutex was free, and nothing is transmitted yet.
    rw [h.free hfree]
    cases hmove with
    | @lock m =>
        have hentered : Function.update s.1.pcs i (some (.fetch m .size)) i =
            some (WriterPc.fetch m .size) := Function.update_self _ _ _
        exact (current_of_holder hentered).symm
    | closing hclose => cases hclose
  · -- The frame of the call that returns is whole.
    have hholder : s.1.holder = some i := (h.matching () i).mpr (hlocks.trans hsome)
    rw [hholder, current_of_holder hpc, hbytes]
    cases hmove with
    | unlock => rfl
    | closing hclose => cases hclose
  · rw [(hkept i s.1.holder).1]
    by_cases hholder : s.1.holder = some i
    · have hsome : pc'.inSendData.bind WriterPc.locks = some () := by
        rw [hsame, ← hlocks]
        exact (h.matching () i).mp hholder
      rw [hholder, current_of_holder hpc, WriterPc.inSendData_of_locks hsome,
        current_of_holder (Function.update_self _ _ _), hbytes]
    · have hnone : pc.locks = none := by
        cases hlock : pc.locks with
        | none => rfl
        | some lock => exact absurd ((h.matching () i).mpr (hlocks.trans hlock)) hholder
      obtain ⟨hnothing, hnotReturned⟩ := hmove.silent hnone object
      rw [current_update hholder, hnothing, hnotReturned, List.append_nil]
      rfl

theorem calls_append {trace : List (SendEvent ι)} {seen : SendEvent ι} {now next : List TcpMessage}
    (h : trace.flatMap (SendEvent.calledBy i) = trace.flatMap (SendEvent.returnedBy i) ++ now)
    (hstep : now ++ seen.calledBy i = seen.returnedBy i ++ next) :
    (trace ++ [seen]).flatMap (SendEvent.calledBy i) =
      (trace ++ [seen]).flatMap (SendEvent.returnedBy i) ++ next := by
  simp only [List.flatMap_append, List.flatMap_singleton]
  rw [h, List.append_assoc, hstep, List.append_assoc]

theorem open_call {m : TcpMessage} (h : Open s object order) (hheld : t.1.Held)
    (hoff : s.1.pcs i = none) (hclient : t.1.client = s.1.client)
    (hholder : t.1.holder = s.1.holder)
    (hpcs : t.1.pcs = Function.update s.1.pcs i (some (.enter m)))
    (htrace : t.2 = s.2 ++ [.called i m]) : Open t object order := by
  have hother : s.1.holder ≠ some i := h.held.disciplined.returned i hoff
  refine ⟨hheld, ?_, ?_, ?_, ?_, ?_⟩
  · rw [hclient]
    exact h.connected
  · rw [hclient]
    exact h.target
  · intro j pc hpc
    rw [hclient]
    rw [hpcs] at hpc
    by_cases hj : j = i
    · subst hj
      rw [Function.update_self] at hpc
      cases hpc
      exact ⟨trivial, List.cons_ne_nil _ _⟩
    · rw [Function.update_of_ne hj] at hpc
      exact h.inside j pc hpc
  · rw [hholder, hpcs, htrace, current_update hother, events_append, SendEvent.event,
      List.append_nil]
    exact h.stream
  · intro j
    rw [htrace, hpcs]
    apply calls_append (h.calls j)
    by_cases hj : j = i
    · subst hj
      rw [hoff, Function.update_self]
      simp [SendEvent.calledBy, SendEvent.returnedBy, WriterPc.held]
    · simp [SendEvent.calledBy, SendEvent.returnedBy, hj, Ne.symm hj]

theorem open_move {pc pc' : WriterPc} (h : Open s object env.order) (hheld : t.1.Held)
    (hpc : s.1.pcs i = some pc) (hmove : WriterMove env s.1.client pc e pc')
    (haccepted : e.accepted = true) (hclient : t.1.client = s.1.client.after e)
    (hholder : t.1.holder = e.holder i s.1.holder)
    (hpcs : t.1.pcs = Function.update s.1.pcs i pc'.inSendData)
    (htrace : t.2 = s.2 ++ [.happened i e]) : Open t object env.order := by
  obtain ⟨hon, hmessage⟩ := h.inside i pc hpc
  obtain ⟨hnext, -, hbytes⟩ := hmove.transmit hon h.connected h.target haccepted
  obtain ⟨hconnected, hsame⟩ := hmove.keeps hon
  obtain ⟨hhands, hheldNext⟩ := hmove.hands hmessage
  refine ⟨hheld, ?_, ?_, ?_, ?_, ?_⟩
  · rw [hclient]
    exact hconnected.trans h.connected
  · rw [hclient]
    exact hsame.2.trans h.target
  · intro j next hinside
    rw [hclient]
    rw [hpcs] at hinside
    by_cases hj : j = i
    · subst hj
      rw [Function.update_self] at hinside
      refine ⟨?_, hheldNext next hinside⟩
      obtain rfl : next = pc' := by
        cases pc' with
        | pollStatus => cases hinside
        | _ => exact (Option.some.inj hinside).symm
      exact hnext.congr hsame
    · rw [Function.update_of_ne hj] at hinside
      obtain ⟨hon', hmessage'⟩ := h.inside j next hinside
      exact ⟨hon'.congr hsame, hmessage'⟩
  · have hbytesOn : bytesOn object [e] = e.bytesOn object := by simp [bytesOn]
    rw [hholder, hpcs, htrace, events_append, SendEvent.event, bytesOn_append, finished_append,
      hbytesOn, h.stream, List.append_assoc, stream_move h.held hpc hmove h.connected hbytes,
      List.map_append, List.flatten_append, List.append_assoc]
  · intro j
    rw [htrace, hpcs]
    apply calls_append (h.calls j)
    by_cases hj : j = i
    · subst hj
      rw [hpc, Function.update_self]
      simpa [SendEvent.calledBy, SendEvent.returnedBy] using hhands
    · simp [SendEvent.calledBy, SendEvent.returnedBy, hj, Ne.symm hj]

theorem open_others (h : Open s object order) (hheld : t.1.Held)
    (hguard : client.connectionStatus = true ∧ s.1.client.SameTarget client)
    (hclient : t.1.client = { client with sendMutex := s.1.client.sendMutex })
    (hholder : t.1.holder = s.1.holder) (hpcs : t.1.pcs = s.1.pcs) (htrace : t.2 = s.2) :
    Open t object order := by
  obtain ⟨hconnected, hsame⟩ := hguard
  refine ⟨hheld, ?_, ?_, ?_, ?_, ?_⟩
  · rw [hclient]
    exact hconnected
  · rw [hclient]
    exact hsame.2.trans h.target
  · intro j pc hpc
    rw [hclient]
    rw [hpcs] at hpc
    obtain ⟨hon, hmessage⟩ := h.inside j pc hpc
    exact ⟨hon.congr hsame, hmessage⟩
  · rw [hholder, hpcs, htrace]
    exact h.stream
  · rw [hpcs, htrace]
    exact h.calls

theorem open_step (h : Open s object env.order) (hguard : KeepsOpen env s act)
    (hstep : observed (step env) (observe env) s act = some t) : Open t object env.order := by
  have hfinds : FindsConnected s.1 act := by
    cases act with
    | step i outcome => exact fun _ => h.connected
    | _ => trivial
  have hheld : t.1.Held := held_step h.held hfinds (ControlEngine.observed_cases hstep).1
  rcases observed_cases hstep with
    ⟨i, m, rfl, hoff, hclient, hholder, hpcs, htrace⟩ |
    ⟨i, outcome, pc, e, pc', rfl, hpc, hmove, hseen, hclient, hholder, hpcs, htrace⟩ |
    ⟨client, rfl, hclient, hholder, hpcs, htrace⟩
  · exact open_call h hheld hoff hclient hholder hpcs htrace
  · have haccepted : e.accepted = true := by
      apply hguard
      simp [hseen, events, SendEvent.event]
    exact open_move h hheld hpc hmove haccepted hclient hholder hpcs htrace
  · exact open_others h hheld hguard hclient hholder hpcs htrace

/-- A client that is connected to object 0. -/
def openClient : Client :=
  { Client.start with
    connectionStatus := true
    socketObject := 5
    descriptors := fun fd => if fd = 5 then some 0 else none }

/-- Two threads call `sendData`, and the second one tests the status and waits for the mutex
while the first one is between its sends. -/
def sendSideBySide : List (SendThreadsAct ℕ) :=
  [.call 0 (TcpMessage.fresh 0 1), .call 1 (TcpMessage.fresh 0 2), .step 0 .plain, .step 0 .plain,
    .step 1 .plain, .step 0 .plain, .step 0 (.returns 8), .step 0 .plain, .step 0 (.returns 4),
    .step 0 .plain, .step 0 (.returns 0), .step 0 .plain, .step 1 .plain, .step 1 .plain,
    .step 1 (.returns 8)]

/-- A thread can take a step. -/
def CanStep (env : Environment) (s : SendThreads ι) (i : ι) : Prop :=
  ∃ outcome, (s.step env (.step i outcome)).isSome

/-- The steps of a thread. -/
def stepsOf (i : ι) : SendThreadsAct ι → List (SendThreadsAct ι)
  | .step j outcome => if j = i then [.step j outcome] else []
  | .call _ _ | .others _ => []

/-- The mutex is free if nobody has locked it, and every call has its message. -/
structure Ready (s : SendThreads ι) : Prop where
  held : s.Held
  kept : s.holder = none → s.client.sendMutex = none
  inside : ∀ i pc, s.pcs i = some pc → pc.held ≠ []

/-- The steps that the thread with the mutex may still take before it unlocks it. -/
def stepsLeft (past : List (ι × Option ι)) (i : ι) (s : SendThreads ι) : ℕ :=
  if s.unlocks.length = past.length then 15 - (s.pcs i).elim 0 WriterPc.spent else 0

/-- The thread has had the mutex since these unlocks, or its own unlock came next. -/
structure HeldSince (past : List (ι × Option ι)) (i : ι) (s : SendThreads ι) : Prop where
  ready : s.Ready
  since : (s.unlocks = past ∧ s.holder = some i) ∨ past ++ [(i, some i)] <+: s.unlocks

variable {u v : SendThreads ι} {move : SendThreadsAct ι} {past : List (ι × Option ι)}

omit [DecidableEq ι] in
theorem ready_start (client : Client) : (start client : SendThreads ι).Ready where
  held := held_start client
  kept _ := rfl
  inside := nofun

theorem ready_step (h : u.Ready) (hguard : FindsConnected u move)
    (hstep : u.step env move = some v) : v.Ready := by
  have hheld := held_step h.held hguard hstep
  cases move with
  | call i m =>
      obtain ⟨-, hcall⟩ := Option.ite_none_right_eq_some.mp hstep
      cases hcall
      refine ⟨hheld, h.kept, ?_⟩
      intro j pc hpc
      by_cases hj : j = i
      · subst hj
        cases (Function.update_self j (some (WriterPc.enter m)) u.pcs).symm.trans hpc
        exact List.cons_ne_nil _ _
      · exact h.inside j pc ((Function.update_of_ne hj _ u.pcs).symm.trans hpc)
  | step i outcome =>
      obtain ⟨pc, e, pc', hpc, hwriter, hclient, hholder, hpcs, -⟩ := step_moves hstep
      refine ⟨hheld, ?_, ?_⟩
      · rw [hclient, hholder]
        exact e.mutex_free h.kept
      · intro j next hnext
        rw [hpcs] at hnext
        by_cases hj : j = i
        · subst hj
          rw [Function.update_self] at hnext
          exact ((writerMove_of_step hwriter).hands (h.inside j pc hpc)).2 next hnext
        · rw [Function.update_of_ne hj] at hnext
          exact h.inside j next hnext
  | others client =>
      cases hstep
      exact ⟨hheld, h.kept, h.inside⟩

theorem canStep_of_locks {pc : WriterPc} (hpc : v.pcs i = some pc) (hlocks : pc.locks = some ()) :
    v.CanStep env i := by
  have hcan : ∃ outcome, (writerStep env v.client pc outcome).isSome := by
    cases pc with
    | fetch m part => exact ⟨.plain, rfl⟩
    | send m part fd => exact ⟨.returns (-1), by simp [writerStep]⟩
    | failing m point => exact ⟨.plain, rfl⟩
    | unlock m result => exact ⟨.plain, rfl⟩
    | _ => cases hlocks
  obtain ⟨outcome, hcan⟩ := hcan
  refine ⟨outcome, ?_⟩
  rw [step, hpc, Option.bind_some, Option.isSome_map]
  exact hcan

/-- Who cannot take a step waits for a thread that can. -/
theorem Ready.canStep (h : v.Ready) (env : Environment) {pc : WriterPc} (hpc : v.pcs i = some pc) :
    v.CanStep env i ∨ (∃ m, pc = .lock m) ∧ ∃ j, v.holder = some j ∧ v.CanStep env j := by
  have hplain : (writerStep env v.client pc .plain).isSome → v.CanStep env i := by
    intro hcan
    refine ⟨.plain, ?_⟩
    rw [step, hpc, Option.bind_some, Option.isSome_map]
    exact hcan
  cases pc with
  | pollStatus | pollSize | pop => exact absurd rfl (h.inside i _ hpc)
  | enter m => exact Or.inl (hplain rfl)
  | lock m =>
      cases hholder : v.holder with
      | none =>
          left
          apply hplain
          simp [writerStep, h.kept hholder]
      | some j =>
          right
          refine ⟨⟨m, rfl⟩, j, rfl, ?_⟩
          obtain ⟨pc, hj, hlocks⟩ := Option.bind_eq_some_iff.mp ((h.held.matching () j).mp hholder)
          exact canStep_of_locks hj hlocks
  | fetch | send | failing | unlock => exact Or.inl (canStep_of_locks hpc rfl)

omit [DecidableEq ι] in
theorem stepsLeft_eq_zero (h : past ++ [(i, some i)] <+: v.unlocks) : v.stepsLeft past i = 0 := by
  have hlonger := h.length_le
  rw [List.length_append, List.length_singleton] at hlonger
  exact if_neg (by omega)

omit [DecidableEq ι] in
theorem connected_of_findsConnected {outcome : Outcome} {pc : WriterPc}
    (hguard : FindsConnected u (.step i outcome)) (hpc : u.pcs i = some pc)
    (htesting : pc.testing = true) : u.client.connectionStatus = true := by
  apply hguard
  rw [hpc]
  exact htesting

theorem heldSince_own {outcome : Outcome} (h : u.Ready) (hpast : u.unlocks = past)
    (hholder : u.holder = some i) (hguard : FindsConnected u (.step i outcome))
    (hstep : u.step env (.step i outcome) = some v) :
    ((v.unlocks = past ∧ v.holder = some i) ∨ past ++ [(i, some i)] <+: v.unlocks) ∧
      v.stepsLeft past i ≤ u.stepsLeft past i - 1 := by
  obtain ⟨pc, e, pc', hpc, hwriter, -, hnext, hpcs, hunlocks⟩ := step_moves hstep
  have hmove := writerMove_of_step hwriter
  have hlocks : pc.locks = some () := by
    have hmatching := (h.held.matching () i).mp hholder
    rwa [sendLocks, hpc] at hmatching
  rcases hmove.locking (connected_of_findsConnected hguard hpc) with
    ⟨-, -, hnone, -⟩ | ⟨m, result, rfl, -⟩ | ⟨hkept, -, hsame⟩
  · rw [hlocks] at hnone
    cases hnone
  · have hunlocked : past ++ [(i, some i)] <+: v.unlocks := by
      rw [hunlocks, hpast, hholder]
      exact List.prefix_rfl
    refine ⟨Or.inr hunlocked, ?_⟩
    rw [stepsLeft_eq_zero hunlocked]
    exact Nat.zero_le _
  · obtain ⟨hsameHolder, hnoUnlock⟩ := hkept i u.holder
    have hpast' : v.unlocks = past := by rw [hunlocks, hnoUnlock, List.append_nil, hpast]
    have hnotReturned : e.returned = [] := by
      cases e with
      | unlock m result => cases hnoUnlock
      | _ => rfl
    have hspent : pc.spent < 15 * e.returned.length + pc'.spent := by
      apply hmove.spent_lt
      · rintro rfl
        cases hlocks
      · rintro rfl
        cases hlocks
    have hinside : v.pcs i = some pc' := by
      rw [hpcs, Function.update_self, WriterPc.inSendData_of_locks (hsame.trans hlocks)]
    refine ⟨Or.inl ⟨hpast', hnext.trans (hsameHolder.trans hholder)⟩, ?_⟩
    rw [hnotReturned, List.length_nil] at hspent
    rw [stepsLeft, stepsLeft, hpast', hpast, hinside, hpc, if_pos rfl, if_pos rfl,
      Option.elim_some, Option.elim_some]
    omega

theorem heldSince_other (h : u.Ready) (hpast : u.unlocks = past) (hholder : u.holder = some i)
    (hguard : FindsConnected u move) (hother : ∀ outcome, move ≠ .step i outcome)
    (hstep : u.step env move = some v) :
    v.unlocks = past ∧ v.holder = some i ∧ v.pcs i = u.pcs i := by
  cases move with
  | call j m =>
      obtain ⟨hoff, hcall⟩ := Option.ite_none_right_eq_some.mp hstep
      cases hcall
      refine ⟨hpast, hholder, Function.update_of_ne ?_ _ u.pcs⟩
      rintro rfl
      exact h.held.disciplined.returned i hoff hholder
  | step j outcome =>
      have hne : i ≠ j := by
        rintro rfl
        exact hother outcome rfl
      obtain ⟨pc, e, pc', hpc, hwriter, -, hnext, hpcs, hunlocks⟩ := step_moves hstep
      have hsamePc : v.pcs i = u.pcs i := by rw [hpcs, Function.update_of_ne hne]
      have hlocks : sendLocks u.pcs j = pc.locks := by
        rw [sendLocks, hpc]
        rfl
      rcases (writerMove_of_step hwriter).locking (connected_of_findsConnected hguard hpc) with
        ⟨-, hfree, -⟩ | ⟨m, result, -, hsome, -⟩ | ⟨hkept, -⟩
      · rw [h.held.free hfree] at hholder
        cases hholder
      · have howner : u.holder = some j := (h.held.matching () j).mpr (hlocks.trans hsome)
        exact absurd (Option.some.inj (hholder.symm.trans howner)) hne
      · obtain ⟨hsameHolder, hnoUnlock⟩ := hkept j u.holder
        refine ⟨?_, hnext.trans (hsameHolder.trans hholder), hsamePc⟩
        rw [hunlocks, hnoUnlock, List.append_nil, hpast]
  | others client =>
      cases hstep
      exact ⟨hpast, hholder, rfl⟩

theorem unlocks_isPrefix (hstep : u.step env move = some v) : u.unlocks <+: v.unlocks := by
  rcases step_cases hstep with ⟨i, m, -, rfl⟩ | ⟨i, outcome, pc, e, pc', -, -, -, rfl⟩ | ⟨c, rfl⟩
  · exact List.prefix_rfl
  · exact List.prefix_append _ _
  · exact List.prefix_rfl

theorem heldSince_step (h : HeldSince past i u) (hguard : FindsConnected u move)
    (hstep : u.step env move = some v) :
    HeldSince past i v ∧ v.stepsLeft past i ≤ u.stepsLeft past i - (stepsOf i move).length := by
  have hready := ready_step h.ready hguard hstep
  rcases h.since with ⟨hpast, hholder⟩ | hunlocked
  · by_cases hown : ∃ outcome, move = .step i outcome
    · obtain ⟨outcome, rfl⟩ := hown
      obtain ⟨hsince, hfalls⟩ := heldSince_own h.ready hpast hholder hguard hstep
      refine ⟨⟨hready, hsince⟩, ?_⟩
      rw [stepsOf, if_pos rfl]
      exact hfalls
    · obtain ⟨hpast', hholder', hpcs⟩ := heldSince_other h.ready hpast hholder hguard
        (fun outcome heq => hown ⟨outcome, heq⟩) hstep
      have hnone : stepsOf i move = [] := by
        cases move with
        | step j outcome =>
            rw [stepsOf, if_neg]
            rintro rfl
            exact hown ⟨outcome, rfl⟩
        | _ => rfl
      refine ⟨⟨hready, Or.inl ⟨hpast', hholder'⟩⟩, ?_⟩
      rw [stepsLeft, stepsLeft, hpast', hpast, hpcs, hnone]
      exact Nat.le_refl _
  · have hlater := hunlocked.trans (unlocks_isPrefix hstep)
    refine ⟨⟨hready, Or.inr hlater⟩, ?_⟩
    rw [stepsLeft_eq_zero hlater]
    exact Nat.zero_le _

omit [DecidableEq ι] in
/-- Who has the mutex has at most ten steps left with it. -/
theorem stepsLeft_of_holder (h : v.Held) (hpast : v.unlocks = past) (hholder : v.holder = some i) :
    0 < v.stepsLeft past i ∧ v.stepsLeft past i ≤ 10 := by
  obtain ⟨pc, hpc, hlocks⟩ := Option.bind_eq_some_iff.mp ((h.matching () i).mp hholder)
  have hlow : 5 ≤ pc.spent := by
    cases pc with
    | fetch m part => cases part <;> simp [WriterPc.spent]
    | send m part fd => cases part <;> simp [WriterPc.spent]
    | failing m point => cases point <;> simp [WriterPc.spent]
    | unlock m result => simp [WriterPc.spent]
    | _ => cases hlocks
  have hhigh := WriterPc.spent_lt pc
  rw [stepsLeft, hpast, if_pos rfl, hpc, Option.elim_some]
  omega

/-- The mutex comes back: as long as every call finds the client connected, a call that cannot go
on waits for one that can, and whoever has the mutex has given it back after ten of its own
steps, whatever the other threads do in between. -/
theorem unlocked_of_enough_steps {moves : List (SendThreadsAct ι)}
    (hbefore : Guarded (step env) FindsConnected (start client) u) (hholder : u.holder = some i)
    (hrun : Watched (step env) (fun _ move => stepsOf i move) FindsConnected u v moves) :
    (∀ j pc, v.pcs j = some pc → v.CanStep env j ∨
        (∃ m, pc = .lock m) ∧ ∃ k, v.holder = some k ∧ v.CanStep env k) ∧
      (10 ≤ moves.length → u.unlocks ++ [(i, some i)] <+: v.unlocks) := by
  have hready : u.Ready := hbefore.invariant (ready_start client)
    fun _ _ _ h hguard hstep => ready_step h hguard hstep
  obtain ⟨hsince, hleft⟩ : HeldSince u.unlocks i v ∧
      v.stepsLeft u.unlocks i ≤ u.stepsLeft u.unlocks i - moves.length :=
    hrun.potential_le ⟨hready, Or.inl ⟨rfl, hholder⟩⟩ fun _ _ _ h hguard hstep =>
      heldSince_step h hguard hstep
  refine ⟨fun j pc hpc => hsince.ready.canStep env hpc, ?_⟩
  intro henough
  rcases hsince.since with ⟨hpast, hholder'⟩ | hunlocked
  · have hstart := (stepsLeft_of_holder hready.held rfl hholder).2
    have hmore := (stepsLeft_of_holder hsince.ready.held hpast hholder').1
    omega
  · exact hunlocked

/-- The first thread sends its message, calls again, and gets the mutex again. -/
def sendAgain : List (SendThreadsAct ℕ) :=
  (sendSideBySide.drop 5).take 7 ++ [.call 0 (TcpMessage.fresh 0 3)] ++
    List.replicate 3 (.step 0 .plain)

theorem unlocked_of_enough_steps_sendAgain :
    ∃ u v : SendThreads ℕ, ∃ moves,
      Guarded (step Environment.plain) FindsConnected (start openClient) u ∧
      Watched (step Environment.plain) (fun _ move => stepsOf 0 move) FindsConnected u v moves ∧
      u.unlocks = [] ∧ v.holder = some 0 ∧ [(0, some 0)] <+: v.unlocks := by
  obtain ⟨u, v, moves, hbefore, hrun, hholder, hunlocks, hagain, henough⟩ :
      ∃ u v : SendThreads ℕ, ∃ moves,
      runActs (step Environment.plain) FindsConnected (start openClient)
        (sendSideBySide.take 5) = some u ∧
      runActs (observed (step Environment.plain) fun _ move => stepsOf 0 move)
        (fun s move => FindsConnected s.1 move) (u, []) sendAgain = some (v, moves) ∧
      u.holder = some 0 ∧ u.unlocks = [] ∧ v.holder = some 0 ∧ 10 ≤ moves.length :=
    ⟨_, _, _, rfl, rfl, rfl, rfl, rfl, by decide⟩
  have hwatched : Watched (step Environment.plain) (fun _ move => stepsOf 0 move) FindsConnected
      u v moves := guarded_of_runActs hrun
  have hunlocked := (unlocked_of_enough_steps (guarded_of_runActs hbefore) hholder hwatched).2
    henough
  rw [hunlocks] at hunlocked
  exact ⟨u, v, moves, guarded_of_runActs hbefore, hwatched, hunlocks, hagain, hunlocked⟩

end SendThreads

end ControlEngine
