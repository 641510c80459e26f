import ControlEngine.Support.Components
import ControlEngine.System.Intake

/-!
# Several descriptions in one process

The engine has a client for every entry of its configuration, and the descriptors of all clients
are in one table of the process.  A number that one client has closed may be handed to another
one.  A thread that still has the old number then closes the connection of the other client, or
sends on it.

`Process` has the threads of all descriptions and the table.  The threads of a description act on
its `view`, in which a number of another description is not open; what a call really leads to is
in the table.  What a call returns on a number that is not open for its client is left to the
run: it may fail, as it does on a number that nobody has open, or succeed on the object of another
description.
-/

namespace ControlEngine

/-- The object that a call was made on, as far as its client knows it. -/
def Event.object : Event → Option ℕ
  | .close _ object | .setup _ object _ | .accept object _ _ | .acceptFailed object
  | .send _ object _ _ | .recv object _ => object
  | _ => none

/-- The number that the kernel has handed out. -/
def Event.obtained : Event → Option Fd
  | .socket fd _ | .accept _ fd _ => some fd
  | _ => none

/-- The number that a call is about to be made with. -/
def Tid.calledOn : (t : Tid) → t.Pc → Option Fd
  | .controller, .setup _ fd => some fd
  | .controller, .accept fd => some fd
  | .controller, .pingSend fd => some fd
  | .writer, .send _ _ fd => some fd
  | .reader, .recv _ fd => some fd
  | t, pc => t.taken pc

/-- The number that the call of an act is made with. -/
def System.calledOn (s : System) : Act → Option Fd
  | .thread t _ => t.calledOn (s.threads t)
  | .pushWriteBuffer _ => none

variable {env : Environment} {c : Client} {e : Event}

/-- The client knows of its call what its part of the table says. -/
theorem object_of_threadStep {t : Tid} {pc pc' : t.Pc} {outcome : Outcome}
    (h : threadStep env c t pc outcome = some (e, pc')) :
    e.object = (t.calledOn pc).bind c.descriptors := by
  cases t with
  | controller =>
      cases controllerMove_of_step h with
      | closing hclose => cases hclose <;> rfl
      | _ => rfl
  | writer =>
      cases writerMove_of_step h with
      | closing hclose => cases hclose <;> rfl
      | _ => rfl
  | reader =>
      cases readerMove_of_step h with
      | closing hclose => cases hclose <;> rfl
      | _ => rfl
  | restart i =>
      cases restartMove_of_step h with
      | closing hclose => cases hclose <;> rfl
      | _ => rfl

theorem System.object_of_eventOf {s : System} {act : Act} (h : s.eventOf env act = some e) :
    e.object = (s.calledOn act).bind s.client.descriptors := by
  cases act with
  | thread t outcome =>
      obtain ⟨r, hthread, rfl⟩ := Option.map_eq_some_iff.mp h
      exact object_of_threadStep hthread
  | pushWriteBuffer data =>
      obtain ⟨m, -, rfl⟩ := Option.map_eq_some_iff.mp h
      rfl

theorem calledOn_of_threadStep_close {t : Tid} {pc pc' : t.Pc} {outcome : Outcome} {fd : Fd}
    {object : Option ℕ} (h : threadStep env c t pc outcome = some (.close fd object, pc')) :
    t.calledOn pc = some fd := by
  cases t with
  | controller =>
      cases controllerMove_of_step h with
      | closing hclose =>
          cases hclose
          rfl
      | closeListener => rfl
  | writer =>
      cases writerMove_of_step h with
      | closing hclose =>
          cases hclose
          rfl
  | reader =>
      cases readerMove_of_step h with
      | closing hclose =>
          cases hclose
          rfl
  | restart i =>
      cases restartMove_of_step h with
      | closing hclose =>
          cases hclose
          rfl

theorem System.calledOn_of_close {s : System} {act : Act} {fd : Fd} {object : Option ℕ}
    (h : s.eventOf env act = some (.close fd object)) : s.calledOn act = some fd := by
  cases act with
  | thread t outcome =>
      obtain ⟨⟨e, pc⟩, hthread, he⟩ := Option.map_eq_some_iff.mp h
      obtain rfl : e = .close fd object := he
      exact calledOn_of_threadStep_close hthread
  | pushWriteBuffer data =>
      obtain ⟨m, -, hm⟩ := Option.map_eq_some_iff.mp h
      cases hm

/-! ## What goes over the connections -/

/-- The bytes that `send` has accepted. -/
def Event.bytesSent : Event → List Byte
  | .send _ _ bytes n => bytes.take n.toNat
  | _ => []

/-- The bytes that `recv` has returned. -/
def Event.bytesReceived : Event → List Byte
  | .recv _ (.data chunk) => chunk
  | _ => []

/-- A call other than `close` that has not failed. -/
def Event.succeeds : Event → Bool
  | .setup _ _ result | .send _ _ _ result => decide (result ≠ -1)
  | .accept _ _ _ | .recv _ (.data _) => true
  | _ => false

/-- The call, unless it has failed. -/
def Event.successes (e : Event) : List Event :=
  if e.succeeds then [e] else []

theorem Event.succeeds_of_successes (h : e.successes ≠ []) : e.succeeds = true := by
  by_contra hfails
  exact h (if_neg hfails)

theorem Event.succeeds_of_bytesSent (h : e.bytesSent ≠ []) : e.succeeds = true := by
  cases e with
  | send call object bytes n =>
      have hn : n ≠ -1 := by
        rintro rfl
        exact h rfl
      exact decide_eq_true hn
  | _ => exact absurd rfl h

theorem Event.succeeds_of_bytesReceived (h : e.bytesReceived ≠ []) : e.succeeds = true := by
  cases e with
  | recv object result =>
      cases result with
      | data chunk => rfl
      | error => exact absurd rfl h
  | _ => exact absurd rfl h

variable {β : Type*}

/-- What the client knows to have happened on an object: bytes in one direction, or calls. -/
def trafficOn (what : Event → List β) (object : ℕ) (history : List Event) : List β :=
  history.flatMap fun e => if e.object = some object then what e else []

theorem bytesOn_eq_trafficOn (object : ℕ) (history : List Event) :
    bytesOn object history = trafficOn Event.bytesSent object history := by
  rw [bytesOn, trafficOn]
  congr 1
  funext e
  cases e with
  | send call o bytes n => rfl
  | _ => simp [Event.bytesOn, Event.bytesSent]

theorem receivedOn_eq_trafficOn (object : ℕ) (history : List Event) :
    receivedOn object history = trafficOn Event.bytesReceived object history := by
  rw [receivedOn, trafficOn]
  congr 1
  funext e
  cases e with
  | recv o result =>
      cases result with
      | data chunk => rfl
      | error => exact (ite_self _).symm
  | _ => simp [Event.receivedOn, Event.bytesReceived]

/-- The client is what its history has made of it. -/
def System.Replayed (s : System) : Prop := s.client = s.history.foldl Client.after Client.start

theorem replayed_of_reaches {s : System} (hrun : Reaches (System.step env) System.start s) :
    s.Replayed := by
  have hstart : System.start.Replayed := rfl
  apply hrun.invariant hstart
  rintro s act t hs - hstep
  obtain ⟨e, -, hclient, hhistory, -⟩ := System.focus .controller hstep
  rw [System.Replayed, hclient, hhistory, hs, List.foldl_append]
  rfl

/-- Calls on a number that is not open for the client fail. -/
def SucceedsOnOpen (env : Environment) (s : System) (act : Act) : Prop :=
  ∀ e ∈ s.eventOf env act, e.succeeds = true → e.object ≠ none

theorem open_of_succeedsOnOpen {s : System}
    (hrun : Guarded (System.step env) (SucceedsOnOpen env) System.start s) :
    ∀ e ∈ s.history, e.succeeds = true → e.object ≠ none := by
  have hstart : ∀ e ∈ System.start.history, e.succeeds = true → e.object ≠ none := by
    intro e he
    cases he
  apply hrun.invariant hstart
  intro s act t hs hguard hstep e he
  obtain ⟨last, hevent, -, hhistory, -⟩ := System.focus .controller hstep
  rw [hhistory] at he
  rcases List.mem_append.mp he with hearlier | hlast
  · exact hs e hearlier
  · rw [List.mem_singleton.mp hlast]
    exact hguard last hevent

/-! ## The process -/

/-- An event of a description, and what the number of its call leads to. -/
structure Call (κ : Type*) where
  caller : κ
  event : Event
  object : Option (κ × ℕ)
deriving DecidableEq

/-- The table maps an open number to the description that it was returned to, and the object. -/
structure Process (κ : Type*) where
  descriptors : Fd → Option (κ × ℕ)
  systems : κ → System
  history : List (Call κ)

variable {κ : Type*} [DecidableEq κ]

/-- The numbers of a description. -/
def partOf (descriptors : Fd → Option (κ × ℕ)) (i : κ) (fd : Fd) : Option ℕ :=
  (descriptors fd).bind fun d => if d.1 = i then some d.2 else none

/-- The table after an event of a description. -/
def tableAfter (descriptors : Fd → Option (κ × ℕ)) (i : κ) : Event → Fd → Option (κ × ℕ)
  | .close fd _ => Function.update descriptors fd none
  | .socket fd object | .accept _ fd object => Function.update descriptors fd (some (i, object))
  | _ => descriptors

/-! ## The parts of the table -/

section Parts

variable {descriptors : Fd → Option (κ × ℕ)} {i j : κ}

theorem partOf_eq_some {fd : Fd} {object : ℕ} :
    partOf descriptors i fd = some object ↔ descriptors fd = some (i, object) := by
  rw [partOf, Option.bind_eq_some_iff]
  constructor
  · rintro ⟨⟨owner, object'⟩, hfd, howner⟩
    obtain ⟨rfl, hobject⟩ := Option.ite_none_right_eq_some.mp howner
    cases hobject
    exact hfd
  · intro hfd
    exact ⟨(i, object), hfd, if_pos rfl⟩

theorem partOf_update (fd : Fd) (d : Option (κ × ℕ)) :
    partOf (Function.update descriptors fd d) i =
      Function.update (partOf descriptors i) fd
        (d.bind fun d => if d.1 = i then some d.2 else none) := by
  funext fd'
  by_cases hfd : fd' = fd
  · subst hfd
    rw [partOf, Function.update_self, Function.update_self]
  · rw [Function.update_of_ne hfd, partOf, Function.update_of_ne hfd, partOf]

/-- The part of the description itself changes as its client says. -/
theorem partOf_tableAfter_self (hc : c.descriptors = partOf descriptors i) :
    partOf (tableAfter descriptors i e) i = (c.after e).descriptors := by
  cases e with
  | close fd object => simp [tableAfter, partOf_update, Client.after, hc]
  | socket fd object => simp [tableAfter, partOf_update, Client.after, hc]
  | accept listener fd object => simp [tableAfter, partOf_update, Client.after, hc]
  | _ => exact hc.symm

/-- The part of another description changes only if one of its numbers is closed. -/
theorem partOf_tableAfter_of_ne (hji : j ≠ i) (hfree : e.obtained.bind descriptors = none)
    (hclose : ∀ fd object, e = .close fd object → ∀ d ∈ descriptors fd, d.1 = i) :
    partOf (tableAfter descriptors i e) j = partOf descriptors j := by
  have hnone : ∀ fd, (∀ d ∈ descriptors fd, d.1 = i) → partOf descriptors j fd = none := by
    intro fd hown
    by_contra hopen
    obtain ⟨object, hobject⟩ := Option.ne_none_iff_exists'.mp hopen
    exact hji (hown _ (partOf_eq_some.mp hobject))
  have hopened : ∀ fd object, descriptors fd = none →
      partOf (Function.update descriptors fd (some (i, object))) j = partOf descriptors j := by
    intro fd object hfd
    rw [partOf_update, Function.update_eq_self_iff, hnone fd (by simp [hfd])]
    exact if_neg (Ne.symm hji)
  cases e with
  | close fd object =>
      rw [tableAfter, partOf_update, Function.update_eq_self_iff]
      exact (hnone fd (hclose fd object rfl)).symm
  | socket fd object => exact hopened fd object hfree
  | accept listener fd object => exact hopened fd object hfree
  | _ => rfl

end Parts

namespace Process

/-- The engine begins. -/
def start : Process κ where
  descriptors _ := none
  systems _ := System.start
  history := []

/-- What the threads of a description work on. -/
def view (p : Process κ) (i : κ) : System :=
  { p.systems i with
    client := { (p.systems i).client with descriptors := partOf p.descriptors i } }

/-- What the number of an act's call leads to. -/
def object (p : Process κ) (act : κ × Act) : Option (κ × ℕ) :=
  ((p.view act.1).calledOn act.2).bind p.descriptors

/-- An act of a description has happened. -/
def record (p : Process κ) (act : κ × Act) (e : Event) (s : System) : Process κ where
  descriptors := tableAfter p.descriptors act.1 e
  systems := Function.update p.systems act.1 s
  history := p.history ++ [⟨act.1, e, p.object act⟩]

/-- An act of a description; `socket` and `accept` return no number that is open anywhere in the
process. -/
def step (env : Environment) (p : Process κ) (act : κ × Act) : Option (Process κ) :=
  ((p.view act.1).eventOf env act.2).bind fun e =>
    if e.obtained.bind p.descriptors = none then
      ((p.view act.1).step env act.2).map (p.record act e)
    else
      none

variable {p q : Process κ} {act : κ × Act} {i : κ} {s : System}

theorem step_cases (h : step env p act = some q) :
    ∃ e s, (p.view act.1).eventOf env act.2 = some e ∧ (p.view act.1).step env act.2 = some s ∧
      e.obtained.bind p.descriptors = none ∧ q = p.record act e s := by
  obtain ⟨e, hevent, hrest⟩ := Option.bind_eq_some_iff.mp h
  obtain ⟨hfree, hstep⟩ := Option.ite_none_right_eq_some.mp hrest
  obtain ⟨s, hs, rfl⟩ := Option.map_eq_some_iff.mp hstep
  exact ⟨e, s, hevent, hs, hfree, rfl⟩

theorem view_record_self (hevent : (p.view act.1).eventOf env act.2 = some e)
    (hstep : (p.view act.1).step env act.2 = some s) : (p.record act e s).view act.1 = s := by
  obtain ⟨e', hevent', hclient, -⟩ := System.focus .controller hstep
  obtain rfl : e' = e := Option.some.inj (hevent'.symm.trans hevent)
  have hpart : partOf (tableAfter p.descriptors act.1 e') act.1 = s.client.descriptors := by
    rw [hclient]
    exact partOf_tableAfter_self rfl
  simp only [view, record, Function.update_self, hpart]

/-- What the others see, if none of their numbers is closed. -/
theorem view_record_of_ne {j : κ} (hji : j ≠ act.1) (hfree : e.obtained.bind p.descriptors = none)
    (hclose : ∀ fd object, e = .close fd object → ∀ d ∈ p.descriptors fd, d.1 = act.1) :
    (p.record act e s).view j = p.view j := by
  simp only [view, record, Function.update_of_ne hji, partOf_tableAfter_of_ne hji hfree hclose]

/-- An act that closes no number of another description is local. -/
theorem localStep_of_step (hstep : step env p act = some q)
    (hclose : ∀ fd object, (p.view act.1).eventOf env act.2 = some (.close fd object) →
      ∀ d ∈ p.object act, d.1 = act.1) :
    LocalStep (System.step env) view p q act := by
  obtain ⟨e, s, hevent, hs, hfree, rfl⟩ := step_cases hstep
  constructor
  · rw [view_record_self hevent hs]
    exact hs
  · intro j hji
    apply view_record_of_ne hji hfree
    rintro fd object rfl d hd
    apply hclose fd object hevent d
    rw [Process.object, System.calledOn_of_close hevent]
    exact hd

theorem history_of_step (hstep : step env p act = some q)
    (hevent : (p.view act.1).eventOf env act.2 = some e) (j : κ) :
    (q.view j).history = (p.view j).history ++ if j = act.1 then [e] else [] := by
  obtain ⟨e', s, hevent', hs, -, rfl⟩ := step_cases hstep
  obtain rfl : e' = e := Option.some.inj (hevent'.symm.trans hevent)
  by_cases hj : j = act.1
  · subst hj
    obtain ⟨-, hhistory, -⟩ := System.focus_of_event .controller hs hevent
    rw [view_record_self hevent hs, if_pos rfl]
    exact hhistory
  · rw [if_neg hj, List.append_nil, view, record]
    simp only [Function.update_of_ne hj]
    rfl

/-- A call is on an object of the description exactly if the client knows it to be. -/
theorem object_eq_some_iff {object : ℕ} (hevent : (p.view act.1).eventOf env act.2 = some e) :
    e.object = some object ↔ p.object act = some (act.1, object) := by
  rw [System.object_of_eventOf hevent, Process.object, Option.bind_eq_some_iff,
    Option.bind_eq_some_iff]
  simp only [← partOf_eq_some]
  rfl

theorem own_of_object (hevent : (p.view act.1).eventOf env act.2 = some e)
    (hopen : e.object ≠ none) : ∃ object, p.object act = some (act.1, object) := by
  obtain ⟨object, hobject⟩ := Option.ne_none_iff_exists'.mp hopen
  exact ⟨object, (object_eq_some_iff hevent).mp hobject⟩

theorem fst_eq_of_own (hown : ∃ object, p.object act = some (act.1, object)) :
    ∀ d ∈ p.object act, d.1 = act.1 := by
  obtain ⟨object, hobject⟩ := hown
  intro d hd
  rw [hobject] at hd
  exact congrArg Prod.fst (Option.some.inj hd).symm

/-! ## Traffic -/

variable {β : Type*} {what : Event → List β}

/-- What has happened on an object, whoever has made the calls. -/
def traffic (what : Event → List β) (d : κ × ℕ) (p : Process κ) : List β :=
  p.history.flatMap fun call => if call.object = some d then what call.event else []

/-- What has happened on each object is what its own client knows of. -/
def Separate (what : Event → List β) (p : Process κ) : Prop :=
  ∀ i object, p.traffic what (i, object) = trafficOn what object (p.view i).history

theorem traffic_of_step (hstep : step env p act = some q)
    (hevent : (p.view act.1).eventOf env act.2 = some e) (d : κ × ℕ) :
    q.traffic what d = p.traffic what d ++ if p.object act = some d then what e else [] := by
  obtain ⟨e', s, hevent', -, -, rfl⟩ := step_cases hstep
  obtain rfl : e' = e := Option.some.inj (hevent'.symm.trans hevent)
  simp [traffic, record]

theorem trafficOn_of_step (hstep : step env p act = some q)
    (hevent : (p.view act.1).eventOf env act.2 = some e) (object : ℕ) :
    trafficOn what object (q.view i).history = trafficOn what object (p.view i).history ++
      if i = act.1 ∧ p.object act = some (i, object) then what e else [] := by
  rw [history_of_step hstep hevent i, trafficOn, List.flatMap_append]
  congr 1
  by_cases hi : i = act.1
  · subst hi
    simp [object_eq_some_iff hevent]
  · simp [hi]

/-- The traffic stays separate if a call that adds to it is on an object of its own
description. -/
theorem separate_step (h : p.Separate what) (hstep : step env p act = some q)
    (hevent : (p.view act.1).eventOf env act.2 = some e)
    (hown : what e ≠ [] → ∀ d ∈ p.object act, d.1 = act.1) : q.Separate what := by
  intro i object
  rw [traffic_of_step hstep hevent, trafficOn_of_step hstep hevent, h i object]
  congr 1
  by_cases hobject : p.object act = some (i, object)
  · by_cases hnone : what e = []
    · simp [hnone]
    · have hi : i = act.1 := hown hnone _ hobject
      rw [if_pos hobject, if_pos ⟨hi, hobject⟩]
  · simp [hobject]

/-! ## Independence -/

/-- Every client is in a state that it could have reached alone, where calls on a number that is
not open fail; the calls that have succeeded on each of its objects are its own, and what has gone
over each connection is what its own client has sent and taken. -/
structure Independent (env : Environment) (p : Process κ) : Prop where
  reached : ∀ i, Guarded (System.step env) (SucceedsOnOpen env) System.start (p.view i)
  calls : ∀ i object, p.traffic Event.successes (i, object) =
    trafficOn Event.successes object (p.view i).history
  sent : ∀ i object, p.traffic Event.bytesSent (i, object) = bytesOn object (p.view i).history
  taken : ∀ i object,
    p.traffic Event.bytesReceived (i, object) = receivedOn object (p.view i).history

/-- A `close` is made on no object of another description, and every other call that succeeds is
made on an object of the description itself. -/
def KeepsApart (env : Environment) (p : Process κ) (act : κ × Act) : Prop :=
  ∀ e ∈ (p.view act.1).eventOf env act.2,
    (∀ fd object, e = .close fd object → ∀ d ∈ p.object act, d.1 = act.1) ∧
      (e.succeeds = true → ∃ object, p.object act = some (act.1, object))

theorem independent_iff_separate :
    p.Independent env ↔
      (∀ i, Guarded (System.step env) (SucceedsOnOpen env) System.start (p.view i)) ∧
        p.Separate Event.successes ∧ p.Separate Event.bytesSent ∧
          p.Separate Event.bytesReceived := by
  constructor
  · intro h
    refine ⟨h.reached, h.calls, ?_, ?_⟩
    · intro i object
      rw [h.sent, bytesOn_eq_trafficOn]
    · intro i object
      rw [h.taken, receivedOn_eq_trafficOn]
  · rintro ⟨hreached, hcalls, hsent, htaken⟩
    refine ⟨hreached, hcalls, ?_, ?_⟩
    · intro i object
      rw [hsent, bytesOn_eq_trafficOn]
    · intro i object
      rw [htaken, receivedOn_eq_trafficOn]

theorem independent_start : (start : Process κ).Independent env where
  reached _ := Guarded.refl _
  calls _ _ := rfl
  sent _ _ := rfl
  taken _ _ := rfl

theorem independent_step (h : p.Independent env) (hguard : KeepsApart env p act)
    (hstep : step env p act = some q) : q.Independent env := by
  obtain ⟨hreached, hcalls, hsent, htaken⟩ := independent_iff_separate.mp h
  obtain ⟨e, -, hevent, -⟩ := step_cases hstep
  obtain ⟨-, hown⟩ := hguard e hevent
  have hlocal : LocalStep (System.step env) view p q act := by
    apply localStep_of_step hstep
    intro fd object hclose
    exact (hguard _ hclose).1 fd object rfl
  have hopen : SucceedsOnOpen env (p.view act.1) act.2 := by
    intro e' hevent' hsucceeds
    obtain ⟨object, hobject⟩ := (hguard e' hevent').2 hsucceeds
    rw [(object_eq_some_iff hevent').mpr hobject]
    exact Option.some_ne_none object
  apply independent_iff_separate.mpr
  refine ⟨?_, ?_, ?_, ?_⟩
  · exact hlocal.forall_view
      (P := fun _ s => Guarded (System.step env) (SucceedsOnOpen env) System.start s) hreached
      ((hreached act.1).tail hopen hlocal.steps)
  · apply separate_step hcalls hstep hevent
    exact fun hcall => fst_eq_of_own (hown (Event.succeeds_of_successes hcall))
  · apply separate_step hsent hstep hevent
    exact fun hbytes => fst_eq_of_own (hown (Event.succeeds_of_bytesSent hbytes))
  · apply separate_step htaken hstep hevent
    exact fun hbytes => fst_eq_of_own (hown (Event.succeeds_of_bytesReceived hbytes))

/-- A client that could have reached its state alone has lost no number to another one. -/
theorem own_of_closed (hreached : ∀ i, Reaches (System.step env) System.start (p.view i))
    (hreached' : ∀ i, Reaches (System.step env) System.start (q.view i))
    (hstep : step env p act = some q) {fd : Fd} {object : Option ℕ}
    (hevent : (p.view act.1).eventOf env act.2 = some (.close fd object)) :
    ∀ d ∈ p.object act, d.1 = act.1 := by
  rintro ⟨i, o⟩ hd
  by_contra hi
  have hhistory := history_of_step hstep hevent i
  rw [if_neg hi, List.append_nil] at hhistory
  have hclient : (q.view i).client = (p.view i).client := by
    rw [replayed_of_reaches (hreached i), replayed_of_reaches (hreached' i), hhistory]
  have hopen : partOf p.descriptors i fd = some o := by
    rw [Process.object, System.calledOn_of_close hevent] at hd
    exact partOf_eq_some.mpr hd
  have hclosed : partOf q.descriptors i fd = none := by
    obtain ⟨e, s, hevent', -, -, rfl⟩ := step_cases hstep
    obtain rfl := Option.some.inj (hevent'.symm.trans hevent)
    simp [record, tableAfter, partOf_update]
  have hsame : partOf q.descriptors i = partOf p.descriptors i :=
    congrArg Client.descriptors hclient
  rw [hsame, hopen] at hclosed
  cases hclosed

/-- A call that succeeds on what is not open for its client leads to a state that the client
could not have reached alone. -/
theorem own_of_succeeds
    (hreached' : ∀ i, Guarded (System.step env) (SucceedsOnOpen env) System.start (q.view i))
    (hstep : step env p act = some q) (hevent : (p.view act.1).eventOf env act.2 = some e)
    (hsucceeds : e.succeeds = true) : ∃ object, p.object act = some (act.1, object) := by
  apply own_of_object hevent
  apply open_of_succeedsOnOpen (hreached' act.1) e _ hsucceeds
  rw [history_of_step hstep hevent act.1, if_pos rfl]
  exact List.mem_append_right _ List.mem_cons_self

theorem keepsApart_of_independent (h : p.Independent env) (h' : q.Independent env)
    (hstep : step env p act = some q) : KeepsApart env p act := by
  intro e hevent
  constructor
  · rintro fd object rfl
    exact own_of_closed (fun i => (h.reached i).reaches) (fun i => (h'.reached i).reaches) hstep
      hevent
  · exact own_of_succeeds h'.reached hstep hevent

/-- The descriptions of an engine are independent of each other exactly as long as no thread
closes a socket of another description, and every call that succeeds, `accept` and those that
prepare a socket among them, is made on a socket of its own description: in every state on the way
each client is where it could have come alone, and each socket has been called, and has carried
bytes, for its own client only. -/
theorem independent_iff_keepsApart (acts : List (κ × Act)) :
    Along (step env) (Independent env) start acts ↔
      Permitted (step env) (KeepsApart env) start acts :=
  along_iff_permitted acts independent_start (fun _ h => h)
    (fun _ _ _ h hguard hstep => independent_step h hguard hstep)
    (fun _ _ _ h hstep h' => keepsApart_of_independent h h' hstep)

-- A writer has read the number of its connection; the connection is closed, and the number is
-- handed to another description, which receives the field that the writer sends.
example :
    (runActs (step Environment.plain) (fun _ _ => True) (start : Process ℕ)
        ((connect 5 6 ++ beginSend ++ restartOnce.drop 3).map (0, ·) ++ (connect 7 6).map (1, ·) ++
          [(0, .thread .writer (.returns 8))])).map
      (fun p => (p.traffic Event.bytesSent (1, 1)).length) = some 8 :=
  rfl

end Process

end ControlEngine
