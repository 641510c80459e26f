import ControlEngine.System.Progress
import ControlEngine.System.Status

/-!
# How long the client stays disconnected

While the client is disconnected, the connection controller goes the way back to `acceptSocket`
and from there to the next connection.  The threads that close sockets meanwhile do not hold it
up, as long as `accept` does not fail.  The way has at most twenty-six steps, and ends only
because `Auto-Reconnect` leads out of `DISCONNECTED`: without the flag there is no limit.
-/

namespace ControlEngine

/-- The calls that follow in the preparation of a socket. -/
def SetupCall.behind : SetupCall → ℕ
  | F_GETFL => 4
  | F_SETFL => 3
  | setsockopt => 2
  | bind => 1
  | listen => 0

/-- The steps before the connection controller sets the status, for a client that is not
connected. -/
def ControllerPc.ahead : ControllerPc → ℕ
  | .setStatus => 1
  | .storeAccepted _ => 2
  | .closeListener _ _ => 3
  | .closeListenerFetch _ => 4
  | .accept _ => 5
  | .acceptFetch => 6
  | .setup call _ => 7 + 2 * call.behind
  | .setupFetch call => 8 + 2 * call.behind
  | .storeSocket _ => 17
  | .socket => 18
  | .testBuild .TO_CONNECT => 7
  | .testStatus .TO_CONNECT => 8
  | .testBuild .TO_BUILD => 19
  | .testStatus _ => 20
  | .testBuild _ => 21
  | .pingTest => 22
  | .pingFailing (.close _) => 22
  | .pingFailing .fetch => 23
  | .pingFailing .clear => 24
  | .pingSend _ => 25
  | .pingFetch => 26

/-- An `accept` that fails. -/
def Event.failsToAccept : Event → Bool
  | .acceptFailed _ => true
  | _ => false

/-- The client is not connected, and `accept` does not fail. -/
def AwaitsConnection (env : Environment) (s : System) (act : Act) : Prop :=
  s.client.connectionStatus = false ∧ ∀ e ∈ s.eventOf env act, e.failsToAccept = false

instance (env : Environment) (s : System) (act : Act) : Decidable (AwaitsConnection env s act) :=
  inferInstanceAs (Decidable (_ ∧ _))

variable {env : Environment} {c : Client} {e : Event} {s s' s₀ : System} {act : Act}

theorem ControllerPc.ahead_le (pc : ControllerPc) : pc.ahead ≤ 26 := by
  cases pc with
  | testBuild state => cases state <;> simp [ahead]
  | testStatus state => cases state <;> simp [ahead]
  | setup call fd => cases call <;> simp [ahead, SetupCall.behind]
  | setupFetch call => cases call <;> simp [ahead, SetupCall.behind]
  | pingFailing point => cases point <;> simp [ahead]
  | _ => simp [ahead]

theorem ControllerPc.ahead_pos (pc : ControllerPc) : 0 < pc.ahead := by
  cases pc with
  | testBuild state => cases state <;> simp [ahead]
  | testStatus state => cases state <;> simp [ahead]
  | pingFailing point => cases point <;> simp [ahead]
  | _ => simp [ahead]

/-- With the flag the way leads back to a new build. -/
theorem reconnect_eq (hflag : env.autoReconnect = true) (state : NetworkConnectionControllerState) :
    reconnect env state = if state = .DISCONNECTED then .TO_BUILD else state := by
  simp [reconnect, hflag]

/-- What each step comes to, the tests before a build and the set-up calls apart. -/
theorem ControllerMove.ahead_lt {pc pc' : ControllerPc} (h : ControllerMove env c pc e pc')
    (hflag : env.autoReconnect = true) (hnot : c.connectionStatus = false)
    (haccepted : e.failsToAccept = false) (htest : ∀ state, pc ≠ .testBuild state)
    (hsetup : ∀ call fd, pc ≠ .setup call fd) :
    (c.after e).connectionStatus = true ∨ pc'.ahead < pc.ahead := by
  have hconnected : c.connectionStatus ≠ true := by simp [hnot]
  cases h with
  | build => exact absurd rfl (htest _)
  | retry => exact absurd rfl (htest _)
  | skip => exact absurd rfl (htest _)
  | setup => exact absurd rfl (hsetup _ _)
  | prepared => exact absurd rfl (hsetup _ _)
  | acceptFailed => cases haccepted
  | alive hstatus => exact absurd hstatus hconnected
  | pingTest hstatus => exact absurd hstatus hconnected
  | setStatus => exact Or.inl rfl
  | @storeSocket fd call => cases call <;> simp [ControllerPc.ahead, SetupCall.behind]
  | lost => simp [reconnect_eq hflag, ControllerPc.ahead]
  | @next state hstate => cases state <;> simp_all [reconnect_eq hflag, ControllerPc.ahead]
  | closing hclose => cases hclose <;> simp [ControllerPc.ahead]
  | _ => simp [ControllerPc.ahead]

theorem ahead_lt_of_controllerStep {pc pc' : ControllerPc} {outcome : Outcome}
    (hflag : env.autoReconnect = true) (h : controllerStep env c pc outcome = some (e, pc'))
    (hnot : c.connectionStatus = false) (haccepted : e.failsToAccept = false) :
    (c.after e).connectionStatus = true ∨ pc'.ahead < pc.ahead := by
  cases pc with
  | testBuild state =>
      cases outcome <;> cases h
      cases state <;> simp [hnot, ControllerPc.ahead]
  | setup call fd =>
      rw [controllerStep_setup h]
      cases call <;> simp [SetupCall.next, ControllerPc.ahead, SetupCall.behind]
  | _ =>
      apply (controllerMove_of_step h).ahead_lt hflag hnot haccepted
      · intro state hsame
        cases hsame
      · intro call fd hsame
        cases hsame

/-- The way that is left, while the client is not connected. -/
def System.ahead (s : System) : ℕ :=
  if s.client.connectionStatus = true then 0 else ControllerPc.ahead (s.threads .controller)

theorem ahead_step (hflag : env.autoReconnect = true) (hguard : AwaitsConnection env s act)
    (hstep : s.step env act = some s') : s'.ahead + (act.of .controller).length ≤ s.ahead := by
  obtain ⟨hnot, haccepted⟩ := hguard
  have hahead : s.ahead = ControllerPc.ahead (s.threads .controller) := by
    simp [System.ahead, hnot]
  obtain ⟨e, hevent, hclient, -, hcontroller | hother⟩ := System.focus .controller hstep
  · obtain ⟨hact, outcome, hthread⟩ := hcontroller
    have hone : (act.of .controller).length = 1 := by simp [Act.of, hact]
    have hpos := ControllerPc.ahead_pos (s.threads .controller)
    have hfalls := ahead_lt_of_controllerStep hflag hthread hnot (haccepted e hevent)
    rw [hahead, System.ahead, hclient, hone]
    rcases hfalls with hset | hfalls
    · rw [if_pos hset]
      omega
    · split <;> omega
  · obtain ⟨hact, hexclusive, hsame⟩ := hother
    have hnone : (act.of .controller).length = 0 := by simp [Act.of, hact]
    rw [hahead, System.ahead, hsame, hnone]
    split
    · exact Nat.zero_le _
    · exact le_rfl

theorem length_le_of_awaits {acts : List Act} (hflag : env.autoReconnect = true)
    (hrun : Watched (System.step env) (fun _ act => act.of .controller) (AwaitsConnection env) s₀ s
      acts) : acts.length ≤ 26 := by
  have hlength : acts.length ≤ s₀.ahead :=
    hrun.length_le fun s act t hguard hstep => ahead_step hflag hguard hstep
  apply hlength.trans
  rw [System.ahead]
  split
  · exact Nat.zero_le _
  · exact ControllerPc.ahead_le _

/-! ## Without the flag -/

/-- The controller goes round in `DISCONNECTED`. -/
def System.Lost (s : System) : Prop :=
  s.client.connectionStatus = false ∧
    (s.threads .controller = ControllerPc.testBuild .DISCONNECTED ∨
      s.threads .controller = ControllerPc.testStatus .DISCONNECTED)

theorem exists_lost (hflag : env.autoReconnect = false) :
    ∃ s, Reaches (System.step env) System.start s ∧ s.Lost := by
  obtain ⟨alloc, order, flag⟩ := env
  obtain rfl : flag = false := hflag
  obtain ⟨s, hrun, hstatus, hcontroller⟩ : ∃ s,
      runActs (System.step ⟨alloc, order, false⟩) (fun _ _ => True) System.start
        (connect 5 6 ++ loseConnection) = some s ∧ s.client.connectionStatus = false ∧
        s.threads .controller = ControllerPc.testBuild .DISCONNECTED := ⟨_, rfl, rfl, rfl⟩
  exact ⟨s, guarded_of_runActs hrun, hstatus, Or.inl hcontroller⟩

theorem exists_look {pc : ControllerPc} (hstatus : s.client.connectionStatus = false)
    (hlook : controllerStep env s.client (s.threads .controller) .plain = some (.look, pc)) :
    ∃ s', s.step env (.thread .controller .plain) = some s' ∧
      AwaitsConnection env s (.thread .controller .plain) ∧
      s'.client.connectionStatus = false ∧ s'.threads .controller = pc := by
  have hstep : threadStep env s.client .controller (s.threads .controller) .plain =
      some (.look, pc) := hlook
  refine ⟨s.record .look (Function.update s.threads .controller pc), ?_, ⟨hstatus, ?_⟩, hstatus, ?_⟩
  · rw [System.step, hstep]
    rfl
  · rw [System.eventOf, hstep]
    rintro e ⟨⟩
    rfl
  · simp only [System.record]
    exact Function.update_self _ _ _

theorem System.Lost.goes_round (h : s.Lost) (hflag : env.autoReconnect = false) :
    ∃ s', s.step env (.thread .controller .plain) = some s' ∧
      AwaitsConnection env s (.thread .controller .plain) ∧ s'.Lost := by
  obtain ⟨hstatus, hbuild | htest⟩ := h
  · have hlook : controllerStep env s.client (s.threads .controller) .plain =
        some (.look, .testStatus .DISCONNECTED) := by
      rw [hbuild]
      simp [controllerStep]
    obtain ⟨s', hstep, hguard, hstatus', hcontroller⟩ := exists_look hstatus hlook
    exact ⟨s', hstep, hguard, hstatus', Or.inr hcontroller⟩
  · have hlook : controllerStep env s.client (s.threads .controller) .plain =
        some (.look, .testBuild .DISCONNECTED) := by
      rw [htest]
      simp only [controllerStep, reconnect, hflag]
      rfl
    obtain ⟨s', hstep, hguard, hstatus', hcontroller⟩ := exists_look hstatus hlook
    exact ⟨s', hstep, hguard, hstatus', Or.inl hcontroller⟩

theorem System.Lost.exists_watched (h : s₀.Lost) (hflag : env.autoReconnect = false) (n : ℕ) :
    ∃ s acts, Watched (System.step env) (fun _ act => act.of .controller) (AwaitsConnection env)
      s₀ s acts ∧ acts.length = n ∧ s.Lost := by
  induction n with
  | zero => exact ⟨s₀, [], Guarded.refl _, rfl, h⟩
  | succ n ih =>
      obtain ⟨s, acts, hrun, hlength, hlost⟩ := ih
      obtain ⟨s', hstep, hguard, hlost'⟩ := hlost.goes_round hflag
      refine ⟨s', _, hrun.tail hguard hstep, ?_, hlost'⟩
      rw [List.length_append, hlength]
      rfl

/-- While the client is not connected, the connection controller needs at most twenty-six steps
to connect it again, whatever the other threads do, if `accept` does not fail; and there is such
a limit exactly when `Auto-Reconnect` is on. -/
theorem reconnects_iff_autoReconnect (env : Environment) :
    (env.autoReconnect = true ↔
      ∃ limit, ∀ s₀ s acts, Reaches (System.step env) System.start s₀ →
        Watched (System.step env) (fun _ act => act.of .controller) (AwaitsConnection env) s₀ s
          acts → acts.length ≤ limit) ∧
    (env.autoReconnect = true → ∀ s₀ s acts,
      Watched (System.step env) (fun _ act => act.of .controller) (AwaitsConnection env) s₀ s
        acts → acts.length ≤ 26) := by
  refine ⟨⟨fun hflag => ⟨26, fun s₀ s acts _ hrun => length_le_of_awaits hflag hrun⟩, ?_⟩,
    fun hflag s₀ s acts hrun => length_le_of_awaits hflag hrun⟩
  rintro ⟨limit, hlimit⟩
  by_contra hflag
  have hoff : env.autoReconnect = false := by simpa using hflag
  obtain ⟨s₀, hreaches, hlost⟩ := exists_lost hoff
  obtain ⟨s, acts, hrun, hlength, -⟩ := hlost.exists_watched hoff (limit + 1)
  have hle := hlimit s₀ s acts hreaches hrun
  omega

end ControlEngine
