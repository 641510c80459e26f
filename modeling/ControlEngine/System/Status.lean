import ControlEngine.System.Moves

/-!
# What the connection status says

`closeSocket` clears `connectionStatus` first and reads and closes `socketObject`
later.  In between the controller may react to the cleared status and replace the
socket, and the number that is closed is then that of the new connection, whose
status is true.

`Live` says of a descriptor that the latest `accept` returned it, that it is open and
that no `closeSocket` is about to close it.  In runs in which `closeSocket` reads
`socketObject` only while the client is not connected, and `accept` returns no number
that a `closeSocket` is about to close, the descriptor of a connected client is live.
-/

namespace ControlEngine

/-- The latest accepted descriptor and its object, after an event. -/
def Event.latestAccept (before : Option (Fd × ℕ)) : Event → Option (Fd × ℕ)
  | .accept _ fd object => some (fd, object)
  | _ => before

/-- The descriptor and the object of the latest successful `accept`. -/
def latestAccept (history : List Event) : Option (Fd × ℕ) :=
  history.foldl Event.latestAccept none

@[simp] theorem latestAccept_append (history : List Event) (e : Event) :
    latestAccept (history ++ [e]) = e.latestAccept (latestAccept history) := by
  simp [latestAccept]

/-- If the status is true, `socketObject` is the descriptor of the latest successful
`accept`, and it has not been closed. -/
def System.Truthful (s : System) : Prop :=
  s.client.connectionStatus = true →
    ∃ object, latestAccept s.history = some (s.client.socketObject, object) ∧
      s.client.descriptors s.client.socketObject = some object

/-! ## Calls of `closeSocket` -/

/-- The call of `closeSocket` that a thread is in. -/
def Tid.closing : (t : Tid) → t.Pc → Option ClosePc
  | .controller, .pingFailing pc => some pc
  | .writer, .failing _ pc => some pc
  | .reader, .failing _ pc => some pc
  | .restart _, pc => pc
  | _, _ => none

/-- `closeSocket` reads `socketObject` only while the status is false and
`acceptSocket` is not about to set it, and no `accept` returns a number that a
`closeSocket` has read and not closed yet. -/
def ClosesDisconnected (env : Environment) (s : System) (act : Act) : Prop :=
  (∀ t : Tid, act.tid = some t → t.closing (s.threads t) = some .fetch →
    s.client.connectionStatus = false ∧ s.threads .controller ≠ ControllerPc.setStatus) ∧
  (∀ listener fd object, s.eventOf env act = some (.accept listener fd object) →
    ∀ t : Tid, t.closing (s.threads t) ≠ some (.close fd))

variable {env : Environment} {c : Client} {e : Event} {s s' : System} {act : Act} {fd : Fd}

theorem Tid.closing_ofProgress (progress : ReadProgress) :
    Tid.reader.closing (ReaderPc.ofProgress progress) ≠ some (.close fd) := by
  cases progress with
  | failed what m => exact fun h => nomatch h
  | escaped thrown m => cases thrown <;> exact fun h => nomatch h
  | _ => exact fun h => nomatch h

theorem CloseMove.fetched {pc : ClosePc} {next : Option ClosePc} (h : CloseMove c pc e next)
    (hnext : next = some (.close fd)) : some pc = some ClosePc.fetch ∧ fd = c.socketObject := by
  cases h with
  | fetch =>
      cases hnext
      exact ⟨rfl, rfl⟩
  | _ => cases hnext

/-- The number that a `closeSocket` is about to close was read from `socketObject` in
the step before. -/
theorem closing_of_threadStep {t : Tid} {pc pc' : t.Pc} {outcome : Outcome}
    (h : threadStep env c t pc outcome = some (e, pc'))
    (hclosing : t.closing pc' = some (.close fd)) :
    t.closing pc = some .fetch ∧ fd = c.socketObject := by
  cases t with
  | controller =>
      cases controllerMove_of_step h with
      | @closing pc e next hclose =>
          cases next with
          | none => cases hclosing
          | some next => exact hclose.fetched hclosing
      | _ => cases hclosing
  | writer =>
      cases writerMove_of_step h with
      | @closing m pc e next hclose =>
          cases next with
          | none => cases hclosing
          | some next => exact hclose.fetched hclosing
      | @send m part fd n hn hlength => cases part <;> cases hclosing
      | _ => cases hclosing
  | reader =>
      cases readerMove_of_step h with
      | @closing what pc e next hclose =>
          cases next with
          | none => cases hclosing
          | some next => exact hclose.fetched hclosing
      | enter => exact absurd hclosing (Tid.closing_ofProgress _)
      | recv hfits => exact absurd hclosing (Tid.closing_ofProgress _)
      | _ => cases hclosing
  | restart i =>
      cases restartMove_of_step h with
      | call => cases hclosing
      | closing hclose => exact hclose.fetched hclosing

/-- Events after which a descriptor may be another one or none. -/
def Event.disturbs (fd : Fd) : Event → Prop
  | .close fd' _ => fd' = fd
  | .socket _ _ | .accept _ _ _ => True
  | _ => False

theorem Event.undisturbed (h : ¬ e.disturbs fd) :
    (c.after e).descriptors fd = c.descriptors fd ∧
      ∀ before, e.latestAccept before = before := by
  cases e with
  | close fd' object =>
      have hne : fd ≠ fd' := fun heq => h heq.symm
      exact ⟨by simp [Client.after, hne], fun _ => rfl⟩
  | socket fd' object => exact absurd trivial h
  | accept listener fd' object => exact absurd trivial h
  | _ => exact ⟨rfl, fun _ => rfl⟩

theorem CloseMove.undisturbed {pc : ClosePc} {next : Option ClosePc} (h : CloseMove c pc e next)
    (hpc : some pc ≠ some (.close fd)) : ¬ e.disturbs fd := by
  cases h with
  | @close fd' =>
      intro hsame
      exact hpc (by rw [show fd' = fd from hsame])
  | _ => exact id

/-- Other threads than the controller disturb a descriptor by `closeSocket` only. -/
theorem undisturbed_of_threadStep {t : Tid} {pc pc' : t.Pc} {outcome : Outcome}
    (h : threadStep env c t pc outcome = some (e, pc')) (ht : t ≠ .controller)
    (hclosing : t.closing pc ≠ some (.close fd)) : ¬ e.disturbs fd := by
  cases t with
  | controller => exact absurd rfl ht
  | writer =>
      cases writerMove_of_step h with
      | closing hclose => exact hclose.undisturbed hclosing
      | _ => exact id
  | reader =>
      cases readerMove_of_step h with
      | closing hclose => exact hclose.undisturbed hclosing
      | _ => exact id
  | restart i =>
      cases restartMove_of_step h with
      | call => exact id
      | closing hclose => exact hclose.undisturbed hclosing

/-- `socketObject` is the controller's, and the others do not set the status. -/
theorem Client.after_of_not_controller (he : e.exclusive ≠ some .controller) :
    (c.after e).socketObject = c.socketObject ∧
      ((c.after e).connectionStatus = true → c.connectionStatus = true) := by
  cases e with
  | setConnectionStatus value =>
      cases value with
      | true => exact absurd rfl he
      | false => exact ⟨rfl, fun h => nomatch h⟩
  | assignSocketObject => exact absurd rfl he
  | _ => exact ⟨rfl, id⟩

/-! ## Live descriptors -/

/-- The descriptor of the latest `accept`, open, and not about to be closed. -/
def System.Live (s : System) (fd : Fd) : Prop :=
  (∃ object, latestAccept s.history = some (fd, object) ∧
    s.client.descriptors fd = some object) ∧
  ∀ t : Tid, t.closing (s.threads t) ≠ some (.close fd)

theorem closing_of_step {t : Tid} (hstep : s.step env act = some s')
    (hclosing : t.closing (s'.threads t) = some (.close fd)) :
    t.closing (s.threads t) = some (.close fd) ∨
      (act.tid = some t ∧ t.closing (s.threads t) = some .fetch ∧
        fd = s.client.socketObject) := by
  obtain ⟨e, -, -, -, ⟨hact, outcome, hthread⟩ | ⟨-, -, hsame⟩⟩ := System.focus t hstep
  · exact Or.inr ⟨hact, closing_of_threadStep hthread hclosing⟩
  · rw [hsame] at hclosing
    exact Or.inl hclosing

/-- A live descriptor that `socketObject` does not name, or names while nobody may read
it for a close, stays live. -/
theorem System.Live.kept (h : s.Live fd) (hguard : ClosesDisconnected env s act)
    (hstep : s.step env act = some s') (hevent : s.eventOf env act = some e)
    (hspared : ¬ e.disturbs fd)
    (hread : fd = s.client.socketObject → s.client.connectionStatus = true ∨
      s.threads .controller = ControllerPc.setStatus) : s'.Live fd := by
  obtain ⟨⟨object, hlatest, hopen⟩, hclosing⟩ := h
  obtain ⟨hclient, hhistory, -⟩ := System.focus_of_event .controller hstep hevent
  obtain ⟨hsame, hsameAccept⟩ := Event.undisturbed (c := s.client) hspared
  refine ⟨⟨object, ?_, ?_⟩, ?_⟩
  · rw [hhistory, latestAccept_append, hsameAccept, hlatest]
  · rw [hclient, hsame, hopen]
  · intro t ht
    rcases closing_of_step hstep ht with hbefore | ⟨hact, hfetch, hfd⟩
    · exact hclosing t hbefore
    · obtain ⟨hstatus, hcontroller⟩ := hguard.1 t hact hfetch
      rcases hread hfd with hconnected | hsetStatus
      · rw [hstatus] at hconnected
        cases hconnected
      · exact hcontroller hsetStatus

theorem live_of_accept {listener : Option ℕ} {object : ℕ}
    (hguard : ClosesDisconnected env s act) (hstep : s.step env act = some s')
    (hevent : s.eventOf env act = some (.accept listener fd object))
    (hne : fd ≠ s.client.socketObject) : s'.Live fd := by
  obtain ⟨hclient, hhistory, -⟩ := System.focus_of_event .controller hstep hevent
  refine ⟨⟨object, ?_, ?_⟩, ?_⟩
  · rw [hhistory, latestAccept_append]
    rfl
  · rw [hclient]
    simp [Client.after]
  · intro t ht
    rcases closing_of_step hstep ht with hbefore | ⟨-, -, hread⟩
    · exact hguard.2 listener fd object hevent t hbefore
    · exact hne hread

/-! ## The controller -/

/-- What the controller relies on at its points: the client is not connected while a
connection is built, and what `accept` returned is live until the status is set. -/
def ControllerPc.Relies (s : System) : ControllerPc → Prop
  | .testBuild .TO_CONNECT | .testStatus .TO_CONNECT | .socket | .storeSocket _
  | .setupFetch _ | .setup _ _ | .acceptFetch => s.client.connectionStatus = false
  | .accept fd => s.client.connectionStatus = false ∧ fd = s.client.socketObject
  | .closeListenerFetch t | .storeAccepted t =>
      s.client.connectionStatus = false ∧ s.Live t ∧ t ≠ s.client.socketObject
  | .closeListener t fd =>
      s.client.connectionStatus = false ∧ s.Live t ∧ t ≠ s.client.socketObject ∧ t ≠ fd
  | .setStatus => s.client.connectionStatus = false ∧ s.Live s.client.socketObject
  | _ => True

/-- The descriptor of a connected client is live. -/
structure System.Honest (s : System) : Prop where
  status : s.client.connectionStatus = true → s.Live s.client.socketObject
  relies : ControllerPc.Relies s (s.threads .controller)

theorem System.Honest.truthful (h : s.Honest) : s.Truthful :=
  fun hconnected => (h.status hconnected).1

/-- Steps of the others take nothing from what the controller relies on. -/
theorem ControllerPc.Relies.congr {pc : ControllerPc} (h : pc.Relies s)
    (hstatus : s.client.connectionStatus = false → s'.client.connectionStatus = false)
    (hsocketObject : s'.client.socketObject = s.client.socketObject)
    (hlive : ∀ fd, s.Live fd → (fd = s.client.socketObject → pc = .setStatus) → s'.Live fd) :
    pc.Relies s' := by
  cases pc with
  | testBuild state =>
      cases state with
      | TO_CONNECT => exact hstatus h
      | _ => trivial
  | testStatus state =>
      cases state with
      | TO_CONNECT => exact hstatus h
      | _ => trivial
  | accept fd => exact ⟨hstatus h.1, h.2.trans hsocketObject.symm⟩
  | closeListenerFetch t =>
      obtain ⟨hnot, ht, hne⟩ := h
      exact ⟨hstatus hnot, hlive t ht fun heq => absurd heq hne, hsocketObject ▸ hne⟩
  | storeAccepted t =>
      obtain ⟨hnot, ht, hne⟩ := h
      exact ⟨hstatus hnot, hlive t ht fun heq => absurd heq hne, hsocketObject ▸ hne⟩
  | closeListener t fd =>
      obtain ⟨hnot, ht, hne, hfd⟩ := h
      exact ⟨hstatus hnot, hlive t ht fun heq => absurd heq hne, hsocketObject ▸ hne, hfd⟩
  | setStatus =>
      obtain ⟨hnot, hsocket⟩ := h
      refine ⟨hstatus hnot, ?_⟩
      rw [hsocketObject]
      exact hlive _ hsocket fun _ => rfl
  | socket => exact hstatus h
  | storeSocket fd => exact hstatus h
  | setupFetch call => exact hstatus h
  | setup call fd => exact hstatus h
  | acceptFetch => exact hstatus h
  | _ => trivial

/-- Acts of the others keep the status honest: they do not set it, and they close no live
descriptor. -/
theorem honest_of_others (h : s.Honest) (hguard : ClosesDisconnected env s act)
    (hstep : s.step env act = some s') (hact : act.tid ≠ some .controller) : s'.Honest := by
  obtain ⟨e, hevent, hclient, -, ⟨hown, -⟩ | ⟨-, hexclusive, hsame⟩⟩ :=
    System.focus .controller hstep
  · exact absurd hown hact
  obtain ⟨hsocketObject, hstatus⟩ := Client.after_of_not_controller (c := s.client) hexclusive
  rw [← hclient] at hsocketObject hstatus
  have hspared : ∀ fd, s.Live fd → ¬ e.disturbs fd := by
    intro fd hlive
    rcases System.step_cases hstep with
      ⟨t, outcome, e', pc, rfl, hthread, hevent', -⟩ | ⟨data, m, rfl, -, hevent', -⟩
    · obtain rfl : e' = e := Option.some.inj (hevent'.symm.trans hevent)
      exact undisturbed_of_threadStep hthread (fun ht => hact (ht ▸ rfl)) (hlive.2 t)
    · obtain rfl : Event.push m = e := Option.some.inj (hevent'.symm.trans hevent)
      exact id
  refine ⟨?_, ?_⟩
  · intro hconnected
    rw [hsocketObject]
    have hlive := h.status (hstatus hconnected)
    exact hlive.kept hguard hstep hevent (hspared _ hlive) fun _ => Or.inl (hstatus hconnected)
  · rw [hsame]
    refine h.relies.congr ?_ hsocketObject ?_
    · intro hnot
      by_contra hconnected
      rw [hstatus (by simpa using hconnected)] at hnot
      cases hnot
    · intro fd hlive hread
      exact hlive.kept hguard hstep hevent (hspared fd hlive) fun heq => Or.inr (hread heq)

theorem System.Honest.of_disconnected (hnot : s.client.connectionStatus = false)
    (hrelies : ControllerPc.Relies s (s.threads .controller)) : s.Honest := by
  refine ⟨?_, hrelies⟩
  intro hconnected
  rw [hnot] at hconnected
  cases hconnected

theorem ControllerPc.relies_testBuild {state : NetworkConnectionControllerState}
    (h : state = .TO_CONNECT → s.client.connectionStatus = false) :
    (ControllerPc.testBuild state).Relies s := by
  cases state with
  | TO_CONNECT => exact h rfl
  | _ => trivial

theorem reconnect_eq_toConnect {state : NetworkConnectionControllerState}
    (h : reconnect env state = .TO_CONNECT) : state = .TO_CONNECT := by
  unfold reconnect at h
  split at h
  · cases h
  · exact h

/-- A step of the controller keeps the status honest: it sets the status when the
descriptor it has accepted is live. -/
theorem honest_of_controller (h : s.Honest) (hguard : ClosesDisconnected env s act)
    (hstep : s.step env act = some s') (hact : act.tid = some .controller) : s'.Honest := by
  obtain ⟨e, hevent, hclient, hhistory, ⟨-, outcome, hthread⟩ | ⟨hother, -⟩⟩ :=
    System.focus .controller hstep
  swap
  · exact absurd hact hother
  have hstatus : s'.client.connectionStatus = (s.client.after e).connectionStatus := by
    rw [hclient]
  have hsocketObject : s'.client.socketObject = (s.client.after e).socketObject := by
    rw [hclient]
  have hmove := controllerMove_of_step hthread
  have hrelies := h.relies
  have hkept : ∀ fd, s.Live fd → ¬ e.disturbs fd →
      (fd = s.client.socketObject → s.client.connectionStatus = true ∨
        s.threads .controller = ControllerPc.setStatus) → s'.Live fd :=
    fun fd hlive hspared hread => hlive.kept hguard hstep hevent hspared hread
  have hquiet : s'.client = s.client → ¬ e.disturbs s.client.socketObject →
      ControllerPc.Relies s' (s'.threads .controller) → s'.Honest := by
    intro hsame hspared hrelies'
    refine ⟨?_, hrelies'⟩
    rw [hsame]
    exact fun hconnected => hkept _ (h.status hconnected) hspared fun _ => Or.inl hconnected
  generalize hpc : s.threads .controller = pc at hmove hrelies
  generalize hpc' : s'.threads .controller = pc' at hmove
  rw [hpc'] at hquiet
  have hdown : s'.client.connectionStatus = false → ControllerPc.Relies s' pc' → s'.Honest := by
    intro hnot hrelies'
    refine System.Honest.of_disconnected hnot ?_
    rw [hpc']
    exact hrelies'
  -- A connection comes about in `accept`, `storeAccepted` and `setStatus`; the steps
  -- before and after these find or leave the client as they rely on it.
  cases hmove with
  | build hnot => exact hquiet hclient id (hstatus.trans hnot)
  | retry => exact hquiet hclient id (hstatus.trans hrelies)
  | skip hstate =>
      refine hquiet hclient id ?_
      rename_i state
      cases state with
      | TO_CONNECT => exact absurd rfl hstate
      | _ => trivial
  | socketFailed => exact hquiet hclient id (hstatus.trans hrelies)
  | socket hfd hfree => exact hdown (hstatus.trans hrelies) (hstatus.trans hrelies)
  | storeSocket => exact hdown (hstatus.trans hrelies) (hstatus.trans hrelies)
  | setupFetch => exact hquiet hclient id (hstatus.trans hrelies)
  | setup => exact hquiet hclient id (hstatus.trans hrelies)
  | prepared => exact hquiet hclient id (hstatus.trans hrelies)
  | acceptFetch => exact hquiet hclient id ⟨hstatus.trans hrelies, hsocketObject.symm⟩
  | acceptFailed => exact hquiet hclient id (hstatus.trans hrelies.1)
  | @accept fd t ht hne hfree =>
      obtain ⟨hnot, rfl⟩ := hrelies
      have hnot' := hstatus.trans hnot
      have hlive := live_of_accept hguard hstep hevent hne
      exact hdown hnot' ⟨hnot', hlive, fun heq => hne (heq.trans hsocketObject)⟩
  | @closeListenerFetch t =>
      obtain ⟨hnot, hlive, hne⟩ := hrelies
      have hlive' := hkept t hlive id fun heq => absurd heq hne
      exact hquiet hclient id
        ⟨hstatus.trans hnot, hlive', fun heq => hne (heq.trans hsocketObject), hne⟩
  | @closeListener t fd =>
      obtain ⟨hnot, hlive, hne, hfd⟩ := hrelies
      have hlive' := hkept t hlive (fun heq => hfd heq.symm) fun heq => absurd heq hne
      have hnot' := hstatus.trans hnot
      exact hdown hnot' ⟨hnot', hlive', fun heq => hne (heq.trans hsocketObject)⟩
  | @storeAccepted t =>
      obtain ⟨hnot, hlive, hne⟩ := hrelies
      have hlive' := hkept t hlive id fun heq => absurd heq hne
      have hnot' := hstatus.trans hnot
      exact hdown hnot' ⟨hnot', by rw [hsocketObject]; exact hlive'⟩
  | setStatus =>
      have hlive := hkept _ hrelies.2 id fun _ => Or.inr hpc
      refine ⟨fun _ => by rw [hsocketObject]; exact hlive, ?_⟩
      rw [hpc']
      trivial
  | alive hconnected => exact hquiet hclient id trivial
  | lost hnot =>
      refine hquiet hclient id (ControllerPc.relies_testBuild ?_)
      intro hstate
      cases reconnect_eq_toConnect hstate
  | next hstate =>
      refine hquiet hclient id (ControllerPc.relies_testBuild ?_)
      intro hconnect
      obtain rfl := reconnect_eq_toConnect hconnect
      rw [hclient]
      exact hrelies
  | pingTest hconnected => exact hquiet hclient id trivial
  | pingRefused hnot => exact hquiet hclient id trivial
  | pingFetch => exact hquiet hclient id trivial
  | pingSend hn hlength => exact hquiet hclient id trivial
  | pingFails => exact hquiet hclient id trivial
  | @closing pc e next hclose =>
      have hnext : ControllerPc.Relies s' (next.elim (.testBuild .CONNECTED) .pingFailing) := by
        cases next <;> trivial
      cases hclose with
      | clear => exact hdown hstatus hnext
      | fetch => exact hquiet hclient id hnext
      | @close fd =>
          refine ⟨?_, by rw [hpc']; exact hnext⟩
          rw [hclient]
          intro hconnected
          have hlive := h.status hconnected
          have hspared : fd ≠ s.client.socketObject := by
            intro heq
            refine hlive.2 .controller ?_
            rw [hpc, ← heq]
            rfl
          exact hkept _ hlive hspared fun _ => Or.inl hconnected

theorem honest_step (h : s.Honest) (hguard : ClosesDisconnected env s act)
    (hstep : s.step env act = some s') : s'.Honest := by
  by_cases hact : act.tid = some .controller
  · exact honest_of_controller h hguard hstep hact
  · exact honest_of_others h hguard hstep hact

/-- The status tells the truth in every run in which `closeSocket` reads `socketObject`
only while the client is not connected, and `accept` returns no number that a
`closeSocket` is about to close. -/
theorem truthful_of_closesDisconnected
    (hrun : Guarded (System.step env) (ClosesDisconnected env) System.start s) :
    s.Truthful := by
  have hhonest : s.Honest := by
    refine hrun.invariant ?_ fun _ _ _ h hguard hstep => honest_step h hguard hstep
    exact System.Honest.of_disconnected rfl trivial
  exact hhonest.truthful

/-- The act neither accepts nor reads a number for `closeSocket`. -/
def Calm (env : Environment) (s : System) (act : Act) : Prop :=
  (∀ t ∈ act.tid, t.closing (s.threads t) ≠ some .fetch) ∧
    ∀ e ∈ s.eventOf env act, e.latestAccept none = none

instance (env : Environment) (s : System) (act : Act) : Decidable (Calm env s act) :=
  inferInstanceAs (Decidable ((∀ t ∈ act.tid, _) ∧ _))

theorem Calm.closesDisconnected (h : Calm env s act) : ClosesDisconnected env s act := by
  refine ⟨fun t hact hfetch => absurd hfetch (h.1 t hact), ?_⟩
  intro listener fd object hevent
  cases h.2 _ hevent

theorem truthful_of_closesDisconnected_connect :
    ∃ s, Guarded (System.step Environment.plain) (ClosesDisconnected Environment.plain)
        System.start s ∧ s.Truthful ∧ s.client.connectionStatus = true := by
  let accept : Act := .thread .controller (.returns 6)
  obtain ⟨s, s', s'', hbefore, haccept, hafter, hclosing, hstatus⟩ : ∃ s s' s'' : System,
      runActs (System.step Environment.plain) (Calm Environment.plain) System.start
        ((connect 5 6).take 14) = some s ∧
      System.step Environment.plain s accept = some s' ∧
      runActs (System.step Environment.plain) (Calm Environment.plain) s'
        ((connect 5 6).drop 15) = some s'' ∧
      (∀ t : Tid, t.closing (s.threads t) = none) ∧ s''.client.connectionStatus = true := by
    refine ⟨_, _, _, rfl, rfl, rfl, ?_, rfl⟩
    intro t
    cases t <;> rfl
  have hguard : ClosesDisconnected Environment.plain s accept := by
    constructor
    · intro t _ hfetch
      rw [hclosing] at hfetch
      cases hfetch
    · intro listener fd object _ t hclose
      rw [hclosing] at hclose
      cases hclose
  have hrun : Guarded (System.step Environment.plain) (ClosesDisconnected Environment.plain)
      System.start s'' := by
    refine Relation.ReflTransGen.trans
      (Guarded.tail ((guarded_of_runActs hbefore).mono fun _ _ => Calm.closesDisconnected)
        hguard haccept) ?_
    exact (guarded_of_runActs hafter).mono fun _ _ => Calm.closesDisconnected
  exact ⟨s'', hrun, truthful_of_closesDisconnected hrun, hstatus⟩

/-- A `send` of the writer fails, and the writer clears the status.  The controller
reconnects before the writer goes on, and the writer closes the new connection. -/
def closeNewConnection : List Act :=
  connect 5 6 ++ beginSend ++ [.thread .writer (.returns (-1)), .thread .writer .plain] ++
    [.thread .controller .plain] ++ connect 5 7 ++ List.replicate 2 (.thread .writer .plain)

theorem not_truthful_closeNewConnection :
    ∃ s, Reaches (System.step Environment.plain) System.start s ∧ ¬ s.Truthful := by
  obtain ⟨s, hrun, hstatus, hclosed⟩ : ∃ s, runActs (System.step Environment.plain)
      (fun _ _ => True) System.start closeNewConnection = some s ∧
        s.client.connectionStatus = true ∧
        s.client.descriptors s.client.socketObject = none := ⟨_, rfl, by decide, by decide⟩
  refine ⟨s, guarded_of_runActs hrun, ?_⟩
  intro htruthful
  obtain ⟨object, -, hopen⟩ := htruthful hstatus
  rw [hclosed] at hopen
  cases hopen

/-! ## What happens otherwise -/

theorem threadStep_closing (env : Environment) (c : Client) {t : Tid} {pc : t.Pc}
    {point : ClosePc} (h : t.closing pc = some point) :
    ∃ pc', threadStep env c t pc .plain = some ((closeSocket c point).1, pc') ∧
      t.closing pc' = (closeSocket c point).2 := by
  cases t with
  | controller =>
      cases pc <;> cases h
      refine ⟨_, rfl, ?_⟩
      cases point <;> rfl
  | writer =>
      cases pc <;> cases h
      refine ⟨_, rfl, ?_⟩
      cases point <;> rfl
  | reader =>
      cases pc <;> cases h
      refine ⟨_, rfl, ?_⟩
      cases point <;> rfl
  | restart i =>
      cases h
      exact ⟨_, rfl, rfl⟩

theorem step_closing (env : Environment) {t : Tid} {point : ClosePc}
    (h : t.closing (s.threads t) = some point) :
    ∃ s', s.step env (.thread t .plain) = some s' ∧
      s'.client = s.client.after (closeSocket s.client point).1 ∧
      t.closing (s'.threads t) = (closeSocket s.client point).2 := by
  obtain ⟨pc, hstep, hclosing⟩ := threadStep_closing env s.client h
  refine ⟨s.record _ (Function.update s.threads t pc), ?_, rfl, ?_⟩
  · rw [System.step, hstep]
    rfl
  · simpa [System.record] using hclosing

/-- A `closeSocket` that reads the `socketObject` of a connected client makes the status
lie with its next step. -/
theorem not_truthful_of_read {t : Tid} (hclosing : t.closing (s.threads t) = some .fetch)
    (hconnected : s.client.connectionStatus = true) :
    ∃ s₁ s₂, s.step env (.thread t .plain) = some s₁ ∧
      s₁.step env (.thread t .plain) = some s₂ ∧ ¬ s₂.Truthful := by
  obtain ⟨s₁, hread, hclient₁, hclosing₁⟩ := step_closing env hclosing
  obtain ⟨s₂, hclose, hclient₂, -⟩ := step_closing env hclosing₁
  refine ⟨s₁, s₂, hread, hclose, ?_⟩
  intro htruthful
  rw [hclient₁] at hclient₂
  obtain ⟨object, -, hopen⟩ := htruthful (by rw [hclient₂]; exact hconnected)
  simp [hclient₂, closeSocket, Client.after] at hopen

end ControlEngine
