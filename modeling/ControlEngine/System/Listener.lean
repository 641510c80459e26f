import ControlEngine.System.Status
import ControlEngine.Support.Trace

/-!
# The listener that connections are accepted on

A build creates a socket, writes `hostPort` into the address, binds the socket to it and
lets it listen.  Each of these four operations says in its result whether it has failed,
as `acceptSocket` does, but `startThread` looks at the result of `acceptSocket` only, and
has no way back from `TO_CONNECT` to `TO_BUILD`.  A build that fails, or a listener that
somebody closes, therefore leaves the controller trying to accept on a descriptor that is
no listener.  As long as neither happens, every attempt is made on the listener of the
current build.
-/

namespace ControlEngine

/-- What can be seen of builds and attempts to accept.  An `attempt` names the object
behind the descriptor, if it is open. -/
inductive ListenerSight
  | build
  | created (object : ℕ)
  | setup (call : SetupCall) (object : Option ℕ) (result : ℤ)
  | attempt (object : Option ℕ) (succeeds : Bool)
  | closed (object : ℕ)
deriving DecidableEq, Repr

/-- What is seen of a step of the controller apart from its event. -/
def ControllerPc.listenerSights (c : Client) : ControllerPc → Event → List ListenerSight
  | .testBuild .TO_BUILD, _ => if c.connectionStatus then [] else [.build]
  | .accept fd, .acceptFailed _ => [.attempt (c.descriptors fd) false]
  | .accept fd, _ => [.attempt (c.descriptors fd) true]
  | _, _ => []

/-- What is seen of an event, by whichever thread. -/
def Event.listenerSights : Event → List ListenerSight
  | .socket _ object => [.created object]
  | .setup call object result => [.setup call object result]
  | .close _ (some object) => [.closed object]
  | _ => []

/-- What is seen of an act. -/
def System.listenerSights (env : Environment) (s : System) (act : Act) : List ListenerSight :=
  (s.eventOf env act).toList.flatMap fun e =>
    (if act.tid = some .controller then
      ControllerPc.listenerSights s.client (s.threads .controller) e
    else
      []) ++ e.listenerSights

/-- The current build as it goes on. -/
def ListenerSight.continues (build : List ListenerSight) : ListenerSight → List ListenerSight
  | .build => []
  | x => build ++ [x]

/-- What has been seen since the controller last went through `TO_BUILD`. -/
def currentBuild (trace : List ListenerSight) : List ListenerSight :=
  trace.foldl ListenerSight.continues []

/-- The results that `buildInternalSocketAddress`, `bindSocket` and `listenSocket` take for
a failure. -/
def SetupCall.fails : SetupCall → ℤ → Bool
  | F_GETFL, _ | F_SETFL, _ => false
  | setsockopt, n | listen, n => n = -1
  | bind, n => n ≠ 0

/-- In this build the object was created and went through these calls, and nothing has
failed.  Only behind a `setsockopt` that succeeds does the address hold `hostPort`. -/
structure Prepared (build : List ListenerSight) (object : ℕ) (calls : List SetupCall) : Prop where
  steps : ∃ results : SetupCall → ℤ, (ListenerSight.created object ::
    calls.map fun call => .setup call (some object) (results call)).Sublist build
  succeeded : ∀ call object' n, .setup call object' n ∈ build → call.fails n = false

/-- The calls that make a listener. -/
def listenerCalls : List SetupCall := [.setsockopt, .bind, .listen]

/-- An attempt to accept is made on the listener of the current build, except that one
attempt may fail on a listener that was closed meanwhile. -/
def AttemptsOnListener (before : List ListenerSight) : ListenerSight → Prop
  | .attempt object succeeds =>
      ∃ o, Prepared (currentBuild before) o listenerCalls ∧
        (object = some o ∨
          (succeeds = false ∧ .closed o ∈ currentBuild before ∧
            ∀ object' succeeds', .attempt object' succeeds' ∈ currentBuild before →
              object' = some o))
  | _ => True

/-! ## The condition -/

/-- The descriptor that is being made the listener, or is it. -/
def ControllerPc.listenerFd (socketObject : Fd) : ControllerPc → Option Fd
  | .storeSocket fd => some fd
  | .setupFetch _ | .setup _ _ | .acceptFetch | .accept _
  | .testStatus .TO_CONNECT | .testBuild .TO_CONNECT => some socketObject
  | _ => none

/-- The object behind it, if it is open. -/
def ControllerPc.listener (c : Client) (pc : ControllerPc) : Option ℕ :=
  (pc.listenerFd c.socketObject).bind c.descriptors

/-- Neither a step of a build that fails nor a `close` of the listener. -/
def Event.keepsListener (listener : Option ℕ) : Event → Bool
  | .socketFailed => false
  | .setup call _ n => !call.fails n
  | .close _ (some object) => listener ≠ some object
  | _ => true

/-- No step of a build fails, and nobody closes the listener while it is built or waited
on. -/
def ListenerKept (env : Environment) (s : System) (act : Act) : Prop :=
  ∀ e ∈ s.eventOf env act,
    e.keepsListener (ControllerPc.listener s.client (s.threads .controller)) = true

instance (env : Environment) (s : System) (act : Act) : Decidable (ListenerKept env s act) :=
  inferInstanceAs (Decidable (∀ e ∈ s.eventOf env act, _))

/-! ## Objects -/

variable {env : Environment} {c c' : Client} {e : Event} {s s' : System} {act : Act}
  {pc pc' : ControllerPc} {build : List ListenerSight} {o : ℕ} {calls : List SetupCall}

/-- A `close` names the object that is behind its descriptor. -/
def Event.Grounded (c : Client) : Event → Prop
  | .close fd object => object = c.descriptors fd
  | _ => True

theorem CloseMove.grounded {point : ClosePc} {next : Option ClosePc}
    (h : CloseMove c point e next) : e.Grounded c := by
  cases h with
  | close => rfl
  | _ => trivial

theorem grounded_of_threadStep {t : Tid} {pc pc' : t.Pc} {outcome : Outcome}
    (h : threadStep env c t pc outcome = some (e, pc')) : e.Grounded c := by
  cases t with
  | controller =>
      cases controllerMove_of_step h with
      | closing hclose => exact hclose.grounded
      | _ => trivial
  | writer =>
      cases writerMove_of_step h with
      | closing hclose => exact hclose.grounded
      | _ => trivial
  | reader =>
      cases readerMove_of_step h with
      | closing hclose => exact hclose.grounded
      | _ => trivial
  | restart i =>
      cases restartMove_of_step h with
      | call => trivial
      | closing hclose => exact hclose.grounded

theorem grounded_of_step (hstep : s.step env act = some s')
    (hevent : s.eventOf env act = some e) : e.Grounded s.client := by
  rcases System.step_cases hstep with
    ⟨t, outcome, e', pc, -, hthread, hevent', -⟩ | ⟨data, m, -, -, hevent', -⟩
  · obtain rfl : e' = e := Option.some.inj (hevent'.symm.trans hevent)
    exact grounded_of_threadStep hthread
  · obtain rfl : Event.push m = e := Option.some.inj (hevent'.symm.trans hevent)
    trivial

/-- An object that nobody closes stays where it is. -/
theorem Client.descriptors_after {fd : Fd} (hopen : c.descriptors fd = some o)
    (hground : e.Grounded c) (hkeeps : e.keepsListener (some o) = true)
    (hown : e.exclusive ≠ some .controller) : (c.after e).descriptors fd = some o := by
  cases e with
  | close fd' object =>
      obtain rfl : object = c.descriptors fd' := hground
      have hne : fd ≠ fd' := by
        rintro rfl
        rw [hopen] at hkeeps
        simp [Event.keepsListener] at hkeeps
      simpa [Client.after, hne] using hopen
  | socket => exact absurd rfl hown
  | accept => exact absurd rfl hown
  | _ => exact hopen

/-! ## Builds -/

theorem currentBuild_append (trace more : List ListenerSight) :
    currentBuild (trace ++ more) = more.foldl ListenerSight.continues (currentBuild trace) := by
  simp [currentBuild]

/-- Nothing has failed in a build. -/
def Succeeded (build : List ListenerSight) : Prop :=
  ∀ call object n, .setup call object n ∈ build → call.fails n = false

/-- Entries that are no failures keep a build without failures. -/
theorem Succeeded.foldl {more : List ListenerSight} (h : Succeeded build)
    (hmore : ∀ call object n, .setup call object n ∈ more → call.fails n = false) :
    Succeeded (more.foldl ListenerSight.continues build) := by
  induction more generalizing build with
  | nil => exact h
  | cons x more ih =>
      refine ih ?_ fun call object n hn => hmore call object n (List.mem_cons_of_mem _ hn)
      intro call object n hn
      cases x with
      | build => simp [ListenerSight.continues] at hn
      | _ =>
          rcases List.mem_append.mp hn with hold | hnew
          · exact h call object n hold
          · exact hmore call object n (List.mem_cons.mpr (Or.inl (List.mem_singleton.mp hnew)))

theorem prepared_created (h : Succeeded build) :
    Prepared (build ++ [.created o]) o [] where
  steps := ⟨fun _ => 0, List.sublist_append_right _ _⟩
  succeeded call object n hn := h call object n (by simpa using hn)

theorem Prepared.append (h : Prepared build o calls) {x : ListenerSight}
    (hx : ∀ call object n, x = .setup call object n → call.fails n = false) :
    Prepared (build ++ [x]) o calls where
  steps := by
    obtain ⟨results, hsteps⟩ := h.steps
    exact ⟨results, hsteps.trans (List.sublist_append_left _ _)⟩
  succeeded call object n hn := by
    rcases List.mem_append.mp hn with hold | hnew
    · exact h.succeeded call object n hold
    · exact hx call object n (List.mem_singleton.mp hnew).symm

theorem Prepared.foldl (h : Prepared build o calls) {more : List ListenerSight}
    (hbuild : .build ∉ more)
    (hmore : ∀ call object n, .setup call object n ∈ more → call.fails n = false) :
    Prepared (more.foldl ListenerSight.continues build) o calls := by
  induction more generalizing build with
  | nil => exact h
  | cons x more ih =>
      have hx : ListenerSight.continues build x = build ++ [x] := by
        cases x with
        | build => simp at hbuild
        | _ => rfl
      rw [List.foldl_cons, hx]
      refine ih (h.append ?_) (fun hmem => hbuild (List.mem_cons_of_mem _ hmem)) ?_
      · rintro call object n rfl
        exact hmore call object n List.mem_cons_self
      · exact fun call object n hn => hmore call object n (List.mem_cons_of_mem _ hn)

theorem Prepared.extend (h : Prepared build o calls) {call : SetupCall} {n : ℤ}
    (hnew : call ∉ calls) (hn : call.fails n = false) :
    Prepared (build ++ [.setup call (some o) n]) o (calls ++ [call]) where
  steps := by
    obtain ⟨results, hsteps⟩ := h.steps
    refine ⟨Function.update results call n, ?_⟩
    have hsame : ∀ call' ∈ calls, Function.update results call n call' = results call' := by
      intro call' hmem
      refine Function.update_of_ne ?_ _ _
      rintro rfl
      exact hnew hmem
    have hmap : (calls ++ [call]).map (fun call' =>
          ListenerSight.setup call' (some o) (Function.update results call n call')) =
        calls.map (fun call' => ListenerSight.setup call' (some o) (results call')) ++
          [.setup call (some o) n] := by
      rw [List.map_append, List.map_congr_left fun call' hmem => by rw [hsame call' hmem]]
      simp
    rw [hmap, ← List.cons_append]
    exact hsteps.append (List.Sublist.refl _)
  succeeded call' object n' hn' := by
    rcases List.mem_append.mp hn' with hold | hlast
    · exact h.succeeded call' object n' hold
    · obtain ⟨rfl, rfl, rfl⟩ : call' = call ∧ object = some o ∧ n' = n := by simpa using hlast
      exact hn

/-! ## The controller -/

/-- The calls that lie before a call of the preparation. -/
def SetupCall.earlier : SetupCall → List SetupCall
  | F_GETFL | F_SETFL | setsockopt => []
  | bind => [.setsockopt]
  | listen => [.setsockopt, .bind]

/-- How far the listener is prepared. -/
def ControllerPc.prepares : ControllerPc → Option (List SetupCall)
  | .storeSocket _ => some []
  | .setupFetch call | .setup call _ => some call.earlier
  | .acceptFetch | .accept _ | .testStatus .TO_CONNECT | .testBuild .TO_CONNECT =>
      some listenerCalls
  | _ => none

/-- The descriptor that a call on the listener was given. -/
def ControllerPc.argument : ControllerPc → Option Fd
  | .setup _ fd | .accept fd => some fd
  | _ => none

/-- The controller works on an object that the current build has prepared so far, and that
is open. -/
structure ControllerPc.Listens (c : Client) (build : List ListenerSight) (pc : ControllerPc) :
    Prop where
  prepared : ∀ calls, pc.prepares = some calls →
    ∃ o, pc.listener c = some o ∧ Prepared build o calls
  argument : ∀ fd, pc.argument = some fd → fd = c.socketObject
  succeeded : Succeeded build

theorem ControllerPc.listens_of_idle (h : Succeeded build) (hprepares : pc.prepares = none)
    (hargument : pc.argument = none) : pc.Listens c build where
  prepared calls hcalls := by
    rw [hprepares] at hcalls
    cases hcalls
  argument fd hfd := by
    rw [hargument] at hfd
    cases hfd
  succeeded := h

theorem ControllerPc.setup_notMem_listenerSights (c : Client) (pc : ControllerPc) (e : Event)
    (call : SetupCall) (object : Option ℕ) (n : ℤ) :
    .setup call object n ∉ pc.listenerSights c e := by
  fun_cases ControllerPc.listenerSights c pc e <;> simp

theorem Event.build_notMem_listenerSights (e : Event) : .build ∉ e.listenerSights := by
  fun_cases Event.listenerSights e <;> simp

theorem Event.succeeded_listenerSights {listener : Option ℕ}
    (hkeeps : e.keepsListener listener = true) (call : SetupCall) (object : Option ℕ) (n : ℤ)
    (hn : .setup call object n ∈ e.listenerSights) : call.fails n = false := by
  cases e with
  | setup call' object' n' =>
      obtain ⟨rfl, rfl, rfl⟩ : call = call' ∧ object = object' ∧ n = n' := by
        simpa [Event.listenerSights] using hn
      simpa [Event.keepsListener] using hkeeps
  | close fd object' => cases object' <;> simp [Event.listenerSights] at hn
  | _ => simp [Event.listenerSights] at hn

theorem ControllerPc.prepares_testBuild {state : NetworkConnectionControllerState}
    (h : state ≠ .TO_CONNECT) : (ControllerPc.testBuild state).prepares = none := by
  cases state with
  | TO_CONNECT => exact absurd rfl h
  | _ => rfl

theorem Prepared.next {call : SetupCall} {n : ℤ} (h : Prepared build o call.earlier)
    (hn : call.fails n = false) :
    ∃ calls, (call.next.elim .acceptFetch ControllerPc.setupFetch).prepares = some calls ∧
      Prepared (build ++ [.setup call (some o) n]) o calls := by
  cases call with
  | F_GETFL => exact ⟨_, rfl, h.append fun _ _ _ heq => by cases heq; rfl⟩
  | F_SETFL => exact ⟨_, rfl, h.append fun _ _ _ heq => by cases heq; rfl⟩
  | setsockopt => exact ⟨_, rfl, h.extend (by decide) hn⟩
  | bind => exact ⟨_, rfl, h.extend (by decide) hn⟩
  | listen => exact ⟨_, rfl, h.extend (by decide) hn⟩

theorem listens_of_setup {call : SetupCall} {fd : Fd} {n : ℤ}
    (h : (ControllerPc.setup call fd).Listens c build) (hn : call.fails n = false)
    (hpc' : pc' = call.next.elim .acceptFetch .setupFetch) :
    pc'.Listens c (build ++ [.setup call (c.descriptors fd) n]) := by
  obtain ⟨o, hopen, hprepared⟩ := h.prepared call.earlier rfl
  have hobject : c.descriptors fd = some o := by
    rw [h.argument fd rfl]
    exact hopen
  obtain ⟨calls, hcalls, hnext⟩ := hprepared.next hn
  rw [← hpc'] at hcalls
  have hlistener : pc'.listener c = some o := by
    rw [hpc']
    cases call <;> exact hopen
  have hargument : pc'.argument = none := by
    rw [hpc']
    cases call <;> rfl
  rw [hobject]
  refine ⟨?_, ?_, hnext.succeeded⟩
  · intro calls' hcalls'
    obtain rfl : calls = calls' := Option.some.inj (hcalls.symm.trans hcalls')
    exact ⟨o, hlistener, hnext⟩
  · intro fd' hfd'
    rw [hargument] at hfd'
    cases hfd'

/-- A step of the controller that fails no call keeps it on the object it prepares. -/
theorem listens_of_controller {outcome : Outcome} (h : pc.Listens c build)
    (hstep : controllerStep env c pc outcome = some (e, pc'))
    (hkeeps : e.keepsListener (pc.listener c) = true) :
    pc'.Listens (c.after e)
      ((pc.listenerSights c e ++ e.listenerSights).foldl ListenerSight.continues build) := by
  have hsucceeded :
      Succeeded ((pc.listenerSights c e ++ e.listenerSights).foldl
        ListenerSight.continues build) := by
    refine h.succeeded.foldl fun call object n hn => ?_
    rcases List.mem_append.mp hn with hcontroller | hevent
    · exact absurd hcontroller (pc.setup_notMem_listenerSights c e call object n)
    · exact Event.succeeded_listenerSights hkeeps call object n hevent
  have hidle : pc'.prepares = none → pc'.argument = none → pc'.Listens (c.after e) _ :=
    ControllerPc.listens_of_idle hsucceeded
  cases controllerMove_of_step hstep with
  | retry => exact ⟨h.prepared, nofun, hsucceeded⟩
  | skip hstate =>
      rename_i state
      cases state with
      | TO_CONNECT => exact absurd rfl hstate
      | _ => exact hidle rfl rfl
  | socketFailed => cases hkeeps
  | socket hfd hfree =>
      refine ⟨?_, nofun, hsucceeded⟩
      intro calls hcalls
      obtain rfl : [] = calls := Option.some.inj hcalls
      exact ⟨c.created, Function.update_self _ _ _, prepared_created h.succeeded⟩
  | storeSocket =>
      rw [controllerStep_storeSocket hstep]
      refine ⟨?_, nofun, hsucceeded⟩
      intro calls hcalls
      have hnone : calls = [] := by
        rw [← Option.some.inj hcalls]
        split <;> rfl
      obtain ⟨o, hopen, hprepared⟩ := h.prepared [] rfl
      exact ⟨o, hopen, hnone ▸ hprepared⟩
  | setupFetch => exact ⟨h.prepared, fun fd hfd => (Option.some.inj hfd).symm, hsucceeded⟩
  | setup =>
      exact listens_of_setup h (by simpa [Event.keepsListener] using hkeeps)
        (controllerStep_setup hstep)
  | prepared =>
      exact listens_of_setup h (by simpa [Event.keepsListener] using hkeeps)
        (controllerStep_setup hstep)
  | acceptFetch => exact ⟨h.prepared, fun fd hfd => (Option.some.inj hfd).symm, hsucceeded⟩
  | acceptFailed =>
      refine ⟨?_, nofun, hsucceeded⟩
      intro calls hcalls
      obtain ⟨o, hopen, hprepared⟩ := h.prepared calls hcalls
      exact ⟨o, hopen, hprepared.append nofun⟩
  | lost =>
      refine hidle (ControllerPc.prepares_testBuild ?_) rfl
      intro heq
      cases reconnect_eq_toConnect heq
  | @next state hstate =>
      by_cases hconnect : state = .TO_CONNECT
      · subst hconnect
        have hsame : reconnect env .TO_CONNECT = .TO_CONNECT := by simp [reconnect]
        rw [hsame]
        exact ⟨h.prepared, nofun, hsucceeded⟩
      · refine hidle (ControllerPc.prepares_testBuild ?_) rfl
        exact fun heq => hconnect (reconnect_eq_toConnect heq)
  | closing hclose =>
      cases hclose <;> exact hidle rfl rfl
  | _ => exact hidle rfl rfl

theorem listens_of_others (h : pc.Listens c build) (hground : e.Grounded c)
    (hkeeps : e.keepsListener (pc.listener c) = true) (hown : e.exclusive ≠ some .controller) :
    pc.Listens (c.after e) (e.listenerSights.foldl ListenerSight.continues build) := by
  obtain ⟨hsocketObject, -⟩ := Client.after_of_not_controller (c := c) hown
  refine ⟨?_, ?_, ?_⟩
  · intro calls hcalls
    obtain ⟨o, hopen, hprepared⟩ := h.prepared calls hcalls
    rw [hopen] at hkeeps
    obtain ⟨fd, hfd, hobject⟩ := Option.bind_eq_some_iff.mp hopen
    refine ⟨o, ?_, ?_⟩
    · rw [ControllerPc.listener, hsocketObject, hfd]
      exact Client.descriptors_after hobject hground hkeeps hown
    · exact hprepared.foldl e.build_notMem_listenerSights
        (Event.succeeded_listenerSights hkeeps)
  · intro fd hfd
    rw [hsocketObject]
    exact h.argument fd hfd
  · exact h.succeeded.foldl (Event.succeeded_listenerSights hkeeps)

/-! ## Runs -/

/-- The law of the attempts, with what carries it. -/
structure System.OnListener (s : System × List ListenerSight) : Prop where
  listens : ControllerPc.Listens s.1.client (currentBuild s.2) (s.1.threads .controller)
  lawful : Lawful AttemptsOnListener s.2

theorem Event.attemptsOnListener_listenerSights (e : Event) (before : List ListenerSight) :
    ∀ x ∈ e.listenerSights, AttemptsOnListener before x := by
  fun_cases Event.listenerSights e <;> simp [AttemptsOnListener]

/-- An attempt of the controller is made on the listener. -/
theorem lawful_of_listens {trace : List ListenerSight} (h : Lawful AttemptsOnListener trace)
    (hlistens : pc.Listens c (currentBuild trace)) :
    Lawful AttemptsOnListener (trace ++ pc.listenerSights c e) := by
  have hattempt : ∀ fd succeeds, pc = .accept fd →
      Lawful AttemptsOnListener (trace ++ [.attempt (c.descriptors fd) succeeds]) := by
    rintro fd succeeds rfl
    obtain ⟨o, hopen, hprepared⟩ := hlistens.prepared listenerCalls rfl
    refine lawful_append_singleton.mpr ⟨h, o, hprepared, Or.inl ?_⟩
    rw [hlistens.argument fd rfl]
    exact hopen
  fun_cases ControllerPc.listenerSights c pc e with
  | case1 => rwa [List.append_nil]
  | case2 => exact lawful_append_singleton.mpr ⟨h, trivial⟩
  | case3 fd => exact hattempt fd false rfl
  | case4 fd => exact hattempt fd true rfl
  | case5 => rwa [List.append_nil]

theorem onListener_step {s s' : System × List ListenerSight} (h : System.OnListener s)
    (hguard : ListenerKept env s.1 act)
    (hstep : observed (System.step env) (System.listenerSights env) s act = some s') :
    System.OnListener s' := by
  obtain ⟨hsystem, htrace⟩ := observed_cases hstep
  obtain ⟨e, hevent, hclient, -, hown | hother⟩ := System.focus .controller hsystem
  · obtain ⟨htid, outcome, hthread⟩ := hown
    have hsights : s.1.listenerSights env act =
        ControllerPc.listenerSights s.1.client (s.1.threads .controller) e ++
          e.listenerSights := by
      simp [System.listenerSights, htid, hevent]
    rw [hsights] at htrace
    refine ⟨?_, ?_⟩
    · rw [hclient, htrace, currentBuild_append]
      exact listens_of_controller h.listens hthread (hguard e hevent)
    · rw [htrace, ← List.append_assoc]
      exact (lawful_of_listens h.lawful h.listens).append_of_forall
        fun x hx before => e.attemptsOnListener_listenerSights before x hx
  · obtain ⟨htid, hexclusive, hsame⟩ := hother
    have hsights : s.1.listenerSights env act = e.listenerSights := by
      simp [System.listenerSights, htid, hevent]
    rw [hsights] at htrace
    refine ⟨?_, ?_⟩
    · rw [hclient, htrace, currentBuild_append, hsame]
      exact listens_of_others h.listens (grounded_of_step hsystem hevent) (hguard e hevent)
        hexclusive
    · rw [htrace]
      exact h.lawful.append_of_forall
        fun x hx before => e.attemptsOnListener_listenerSights before x hx

/-- The controller does not wait on a dead listener, in every run in which no step of a
build fails and nobody closes the listener while it is built or waited on: every attempt to
accept is made on an object that the current build has created, bound to `hostPort` and let
listen. -/
theorem attemptsOnListener_of_listenerKept {trace : List ListenerSight}
    (hrun : Guarded (observed (System.step env) (System.listenerSights env))
      (fun s act => ListenerKept env s.1 act) (System.start, []) (s, trace)) :
    Lawful AttemptsOnListener trace := by
  have hstart : System.OnListener (System.start, []) :=
    ⟨ControllerPc.listens_of_idle nofun rfl rfl, lawful_nil _⟩
  have hlisten := hrun.invariant hstart fun _ _ _ h hguard hstep => onListener_step h hguard hstep
  exact hlisten.lawful

theorem attemptsOnListener_of_listenerKept_connect :
    ∃ (s : System) (trace : List ListenerSight),
      runActs (observed (System.step Environment.plain) (System.listenerSights Environment.plain))
          (fun s act => ListenerKept Environment.plain s.1 act) (System.start, []) (connect 5 6) =
        some (s, trace) ∧
      .attempt (some 0) true ∈ trace ∧ Lawful AttemptsOnListener trace := by
  obtain ⟨s, trace, hrun, hattempt⟩ : ∃ (s : System) (trace : List ListenerSight),
      runActs (observed (System.step Environment.plain) (System.listenerSights Environment.plain))
          (fun s act => ListenerKept Environment.plain s.1 act) (System.start, []) (connect 5 6) =
        some (s, trace) ∧ .attempt (some 0) true ∈ trace := ⟨_, _, rfl, by decide⟩
  exact ⟨s, trace, hrun, hattempt, attemptsOnListener_of_listenerKept (guarded_of_runActs hrun)⟩

/-- The port is still in use: `bind` fails, and the controller tries to accept. -/
def bindFails : List Act :=
  [.thread .controller .plain, .thread .controller (.returns 5), .thread .controller .plain] ++
  (List.replicate 3 [.thread .controller .plain, .thread .controller (.returns 0)]).flatten ++
  [.thread .controller .plain, .thread .controller (.returns (-1)),
    .thread .controller .plain, .thread .controller (.returns 0),
    .thread .controller .plain, .thread .controller (.returns (-1))]

theorem not_attemptsOnListener_bindFails :
    ∃ (s : System) (trace : List ListenerSight),
      Reaches (observed (System.step Environment.plain)
        (System.listenerSights Environment.plain)) (System.start, []) (s, trace) ∧
      ¬ Lawful AttemptsOnListener trace := by
  obtain ⟨s, before, hrun, hbind⟩ : ∃ (s : System) (before : List ListenerSight),
      runActs (observed (System.step Environment.plain) (System.listenerSights Environment.plain))
          (fun _ _ => True) (System.start, []) bindFails =
        some (s, before ++ [.attempt (some 0) false]) ∧
      .setup .bind (some 0) (-1) ∈ currentBuild before :=
    ⟨_, [.build, .created 0, .setup .F_GETFL (some 0) 0, .setup .F_SETFL (some 0) 0,
      .setup .setsockopt (some 0) 0, .setup .bind (some 0) (-1), .setup .listen (some 0) 0],
      rfl, by decide⟩
  refine ⟨s, _, guarded_of_runActs hrun, ?_⟩
  intro hlawful
  obtain ⟨-, hattempt⟩ := lawful_append_singleton.mp hlawful
  obtain ⟨o, hprepared, -⟩ := hattempt
  exact absurd (hprepared.succeeded .bind (some 0) (-1) hbind) (by decide)

end ControlEngine
