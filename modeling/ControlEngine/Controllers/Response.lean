import ControlEngine.Controllers.RestartLaw
import ControlEngine.Support.Progress

/-!
# How soon an exit is answered

The scans of the orchestrator go round all containers.  It waits nowhere but in `join`, and
there only for a thread behind its last write.  So a positive status waits for one round at
most, and the whole round is bounded, restarts of the other containers among it: within
`12 * n` of its own steps the orchestrator has read the status, and with the next one it starts
the container again or marks it dead.
-/

namespace ControlEngine

/-- Whether an act is a step of the orchestrator. -/
def SupervisionAct.scans {n : ℕ} : SupervisionAct n → List (SupervisionAct n)
  | .orchestrator spawns => [.orchestrator spawns]
  | _ => []

theorem SupervisionAct.length_scans_le {n : ℕ} (act : SupervisionAct n) :
    act.scans.length ≤ 1 := by
  cases act <;> simp [scans]

/-- The steps of a call of `startThread` that are done. -/
def StartCall.done : StartCall → ℕ
  | join => 0
  | reset => 1
  | create => 2
  | result => 3

theorem StartCall.done_le (call : StartCall) : call.done ≤ 3 := by
  cases call <;> decide

/-- The steps to the read of the status of container `i`, and with it, from a point of the scans:
a container takes seven of them at most, and one more begins the next round. -/
def scanSteps (n i point : ℕ) : ℕ :=
  if point ≤ 7 * i + 1 then 7 * i + 2 - point else 7 * n + 1 - point + (7 * i + 2)

/-- The same from anywhere.  The first loop takes five steps for a container. -/
def OrchestratorPc.stepsTo {n : ℕ} (i : ℕ) : OrchestratorPc n → ℕ
  | .startLoop j => 5 * n + 1 - 5 * min j n + (7 * i + 2)
  | .scanLoop j => scanSteps n i (7 * min j n)
  | .getStatusCode j => scanSteps n i (7 * j + 1)
  | .exited j => scanSteps n i (7 * j + 2)
  | .startThread j false call => 5 * n - 5 * j - call.done + (7 * i + 2)
  | .startThread j true call => scanSteps n i (7 * j + 3 + call.done)

theorem scanSteps_pos (n i point : ℕ) : 0 < scanSteps n i point := by
  unfold scanSteps
  split
  · omega
  · omega

/-- Further on in the round, but not behind the read. -/
theorem scanSteps_lt {n i point next : ℕ} (hnext : point < next) (hround : next ≤ 7 * n)
    (hread : point ≠ 7 * i + 1) (hpoint : point ≤ 7 * i → next ≤ 7 * i + 1) :
    scanSteps n i next < scanSteps n i point := by
  unfold scanSteps
  split <;> split <;> omega

namespace OrchestratorPc

variable {n : ℕ}

theorem stepsTo_pos (i : ℕ) (pc : OrchestratorPc n) : 0 < pc.stepsTo i := by
  cases pc with
  | startLoop j =>
      simp only [stepsTo]
      omega
  | startThread j restart call =>
      cases restart with
      | false =>
          simp only [stepsTo]
          omega
      | true => exact scanSteps_pos n i _
  | _ => exact scanSteps_pos n i _

theorem stepsTo_le (i : Fin n) (pc : OrchestratorPc n) : pc.stepsTo i ≤ 12 * n := by
  have hi := i.isLt
  have hscan : ∀ point, scanSteps n i point ≤ 12 * n := by
    intro point
    unfold scanSteps
    split <;> omega
  cases pc with
  | startLoop j =>
      simp only [stepsTo]
      omega
  | startThread j restart call =>
      cases restart with
      | false =>
          simp only [stepsTo]
          omega
      | true => exact hscan _
  | _ => exact hscan _

end OrchestratorPc

namespace Supervision

variable {n : ℕ} {autoRestart : Fin n → Bool} {s t : Supervision n} {i : Fin n}

theorem pc_of_startThreadStep {restart spawns : Bool} {call : StartCall}
    (h : s.startThreadStep i restart spawns call = some t) :
    (∃ call', t.pc = .startThread i restart call' ∧ call'.done = call.done + 1) ∨
      (t.pc = if restart then .scanLoop (i + 1) else .startLoop (i + 1)) ∧ call.done = 3 := by
  cases call with
  | join =>
      obtain ⟨c, -, rfl⟩ := Option.map_eq_some_iff.mp h
      exact Or.inl ⟨.reset, rfl, rfl⟩
  | reset =>
      cases h
      exact Or.inl ⟨.create, rfl, rfl⟩
  | create =>
      cases h
      exact Or.inl ⟨.result, rfl, rfl⟩
  | result =>
      cases h
      exact Or.inr ⟨rfl, rfl⟩

/-- A step of the orchestrator brings it nearer to the read of the status, unless it is that
read or answers it. -/
theorem stepsTo_lt {spawns : Bool} (h : s.orchestratorStep autoRestart spawns = some t)
    (hreading : s.pc ≠ .getStatusCode i) :
    t.pc.stepsTo i < s.pc.stepsTo i := by
  have hi := i.isLt
  cases hpc : s.pc with
  | startLoop j =>
      simp only [orchestratorStep, hpc, Option.some.injEq] at h
      subst h
      by_cases hj : j < n
      · simp only [goTo_pc, dif_pos hj, OrchestratorPc.stepsTo, StartCall.done]
        omega
      · simp only [goTo_pc, dif_neg hj, OrchestratorPc.stepsTo, scanSteps]
        split <;> omega
  | scanLoop j =>
      simp only [orchestratorStep, hpc, Option.some.injEq] at h
      subst h
      by_cases hj : j < n
      · simp only [goTo_pc, dif_pos hj, OrchestratorPc.stepsTo, Nat.min_eq_left (Nat.le_of_lt hj)]
        apply scanSteps_lt <;> omega
      · have hmin : min j n = n := by omega
        simp only [goTo_pc, dif_neg hj, OrchestratorPc.stepsTo, hmin, Nat.zero_min, scanSteps]
        split <;> split <;> omega
  | getStatusCode j =>
      have hne : (j : ℕ) ≠ i := by
        intro hsame
        exact hreading (hpc.trans (congrArg _ (Fin.ext hsame)))
      have hj := j.isLt
      simp only [orchestratorStep, hpc, Option.some.injEq] at h
      subst h
      simp only [goTo_pc]
      split
      · apply scanSteps_lt <;> omega
      · have hmin : min ((j : ℕ) + 1) n = j + 1 := by omega
        simp only [OrchestratorPc.stepsTo, hmin]
        apply scanSteps_lt <;> omega
  | exited j =>
      have hj := j.isLt
      have hmin : min ((j : ℕ) + 1) n = j + 1 := by omega
      simp only [orchestratorStep, hpc] at h
      split at h
      · cases h
        change scanSteps n i (7 * j + 3) < scanSteps n i (7 * j + 2)
        apply scanSteps_lt <;> omega
      · cases h
        simp only [goTo_pc, OrchestratorPc.stepsTo, hmin]
        apply scanSteps_lt <;> omega
  | startThread j restart call =>
      have hj := j.isLt
      have hmin : min ((j : ℕ) + 1) n = j + 1 := by omega
      rw [orchestratorStep, hpc] at h
      rcases pc_of_startThreadStep h with ⟨call', hnext, hdone⟩ | ⟨hnext, hlast⟩
      · rw [hnext]
        have hmore := call'.done_le
        cases restart with
        | false =>
            simp only [OrchestratorPc.stepsTo]
            omega
        | true =>
            simp only [OrchestratorPc.stepsTo, hdone]
            apply scanSteps_lt <;> omega
      · rw [hnext]
        cases restart with
        | false =>
            simp only [if_neg Bool.false_ne_true, OrchestratorPc.stepsTo, hmin, hlast]
            omega
        | true =>
            simp only [if_true, OrchestratorPc.stepsTo, hmin, hlast]
            apply scanSteps_lt <;> omega

/-- An act that is no such read brings the orchestrator as much nearer as it takes steps. -/
theorem stepsTo_step {act : SupervisionAct n} (h : s.step autoRestart act = some t)
    (hreading : ∀ spawns, act = .orchestrator spawns → s.pc ≠ .getStatusCode i) :
    t.pc.stepsTo i + act.scans.length ≤ s.pc.stepsTo i := by
  cases act with
  | orchestrator spawns => exact stepsTo_lt h (hreading spawns rfl)
  | exit j k how =>
      obtain ⟨c, -, rfl⟩ := Option.map_eq_some_iff.mp h
      exact Nat.le_refl _
  | finish j k =>
      obtain ⟨c, -, rfl⟩ := Option.map_eq_some_iff.mp h
      exact Nat.le_refl _

/-! ## Where the orchestrator waits -/

end Supervision

/-- The thread that a container can join is one of its threads. -/
def ThreadContainer.Joinable (c : ThreadContainer) : Prop :=
  ∀ k, c.controllerThread = some k → k < c.threads.length

theorem ContainerMove.joinable {autoRestart : Bool} {a a' : Attention} {c c' : ThreadContainer}
    {more : List SupervisionEvent} (h : ContainerMove autoRestart a c a' c' more)
    (hc : c.Joinable) : c'.Joinable := by
  cases h with
  | join hjoin =>
      obtain ⟨rfl, -⟩ := ThreadContainer.join_eq hjoin
      intro k hk
      cases hk
  | spawn =>
      intro k hk
      have hlast : c.threads.length = k := Option.some.inj hk
      rw [← hlast, ThreadContainer.spawn, List.length_append]
      exact Nat.lt_succ_self _
  | exit hexit =>
      obtain ⟨-, hleft⟩ := Option.ite_none_right_eq_some.mp hexit
      cases hleft
      intro k hk
      rw [List.length_set]
      exact hc k hk
  | finish hfinish =>
      obtain ⟨-, hended⟩ := Option.ite_none_right_eq_some.mp hfinish
      cases hended
      intro k hk
      rw [List.length_set]
      exact hc k hk
  | _ => exact hc

namespace Supervision

variable {n : ℕ} {autoRestart : Fin n → Bool} {i : Fin n}
variable {u v : Supervision n × List (Fin n × SupervisionEvent)}

theorem soundAt_of_reaches
    (hrun : Reaches (observed (step autoRestart) (events autoRestart)) (start n, []) u)
    (i : Fin n) : SoundAt autoRestart i u :=
  hrun.invariant (soundAt_start i) fun _ _ _ h _ hstep => soundAt_step h hstep

theorem joinable_of_reaches
    (hrun : Reaches (observed (step autoRestart) (events autoRestart)) (start n, []) u)
    (i : Fin n) : (u.1.threadContainerPool i).Joinable := by
  let joinable : Supervision n × List (Fin n × SupervisionEvent) → Prop :=
    fun u => (u.1.threadContainerPool i).Joinable
  have hstart : joinable (start n, []) := by
    intro k hk
    cases hk
  have hend : joinable u := by
    refine hrun.invariant hstart ?_
    intro u act v h _ hstep
    exact (move_step (observed_cases hstep).1 i).joinable h
  exact hend

/-- The orchestrator waits in a `join`, for a thread behind its last write. -/
def Waits (s : Supervision n) : Prop :=
  ∃ i restart k, s.pc = .startThread i restart .join ∧
    (s.threadContainerPool i).controllerThread = some k ∧
    (s.threadContainerPool i).threads[k]? = some .leaving

theorem isSome_or_waits
    (hrun : Reaches (observed (step autoRestart) (events autoRestart)) (start n, []) u) :
    (∀ spawns, (u.1.orchestratorStep autoRestart spawns).isSome) ∨ u.1.Waits := by
  obtain ⟨s, trace⟩ := u
  cases hpc : s.pc with
  | startThread j restart call =>
      cases call with
      | join =>
          have hsound := soundAt_of_reaches hrun j
          have hjoinable := joinable_of_reaches hrun j
          have hattempt : (eventsOf j trace).getLast? = some .attempt := by
            have hfits := hsound.fits
            simpa [hpc, OrchestratorPc.attention, Attention.Fits] using hfits
          cases hthread : (s.threadContainerPool j).controllerThread with
          | none =>
              left
              intro spawns
              simp [orchestratorStep, hpc, startThreadStep, ThreadContainer.join, hthread]
          | some k =>
              cases hk : (s.threadContainerPool j).threads[k]? with
              | none =>
                  have hlength := List.getElem?_eq_none_iff.mp hk
                  exact absurd (hjoinable k hthread) (Nat.not_lt.mpr hlength)
              | some point =>
                  cases point with
                  | startThread =>
                      have hidle := hsound.not_running (by simp [hattempt]) k
                      exact absurd hk hidle
                  | leaving => exact Or.inr ⟨j, restart, k, hpc, hthread, hk⟩
                  | ended =>
                      left
                      intro spawns
                      simp [orchestratorStep, hpc, startThreadStep, ThreadContainer.join, hthread,
                        hk]
      | _ =>
          left
          intro spawns
          simp [orchestratorStep, hpc, startThreadStep]
  | exited j =>
      left
      intro spawns
      cases hauto : autoRestart j <;> simp [orchestratorStep, hpc, hauto]
  | _ =>
      left
      intro spawns
      simp [orchestratorStep, hpc]

/-! ## The answer -/

/-- The steps that the orchestrator still has to take until it has answered the exit after which
the record was `past`. -/
def answerSteps (i : Fin n) (past : List SupervisionEvent) (code : ℤ)
    (u : Supervision n × List (Fin n × SupervisionEvent)) : ℕ :=
  if eventsOf i u.2 = past then u.1.pc.stepsTo i + 1
  else if eventsOf i u.2 = past ++ [.report code] then 1 else 0

variable {past : List SupervisionEvent} {code : ℤ}

theorem answerSteps_le_one (hmore : eventsOf i u.2 ≠ past) : answerSteps i past code u ≤ 1 := by
  rw [answerSteps, if_neg hmore]
  split
  · exact Nat.le_refl _
  · exact Nat.zero_le _

/-- What the law makes of a record that goes on behind an exit and its report. -/
theorem answered_of_lawful {autoRestart : Bool} {trace : List SupervisionEvent}
    (hlawful : Lawful (Allowed autoRestart) trace) (hbefore : past <+: trace)
    (hstored : past.getLast? = some (.stored code)) (hunread : trace ≠ past)
    (hunanswered : trace ≠ past ++ [.report code]) :
    past ++ [.report code, if autoRestart then .attempt else .dead] <+: trace := by
  have hne : past ≠ [] := by
    rintro rfl
    cases hstored
  obtain ⟨rest, rfl⟩ := hbefore
  cases rest with
  | nil => exact absurd (List.append_nil past) hunread
  | cons e rest =>
      have hfirst : Allowed autoRestart past e := hlawful past e ⟨rest, by simp⟩
      have hreport : e = .report code := by
        cases e <;> simp [Allowed, hstored, hne] at hfirst
        rw [hfirst.2]
      subst hreport
      cases rest with
      | nil => exact absurd rfl hunanswered
      | cons e' rest =>
          have hsecond : Allowed autoRestart (past ++ [.report code]) e' :=
            hlawful (past ++ [.report code]) e' ⟨rest, by simp⟩
          have hanswer : e' = if autoRestart then .attempt else .dead := by
            cases e' <;> simp [Allowed] at hsecond
            · simp [hsecond]
            · simp [hsecond]
          rw [← hanswer]
          exact ⟨rest, by simp⟩

/-- Each step of the orchestrator counts, until it has answered. -/
theorem answerSteps_step {act : SupervisionAct n} (hsound : SoundAt autoRestart i u)
    (hstored : past.getLast? = some (.stored code)) (hpos : 0 < code)
    (hbefore : past <+: eventsOf i u.2)
    (hstep : observed (step autoRestart) (events autoRestart) u act = some v) :
    answerSteps i past code v ≤ answerSteps i past code u - act.scans.length := by
  obtain ⟨hact, htrace⟩ := observed_cases hstep
  have hevents : eventsOf i v.2 = eventsOf i u.2 ++ eventsOf i (u.1.events autoRestart act) := by
    rw [htrace, eventsOf_append]
  by_cases hpast : eventsOf i u.2 = past
  · have hsteps : answerSteps i past code u = u.1.pc.stepsTo i + 1 := if_pos hpast
    rw [hsteps]
    by_cases hmore : eventsOf i (u.1.events autoRestart act) = []
    · have hsame : eventsOf i v.2 = past := by rw [hevents, hmore, List.append_nil, hpast]
      rw [answerSteps, if_pos hsame]
      have hreading : ∀ spawns, act = .orchestrator spawns → u.1.pc ≠ .getStatusCode i := by
        rintro spawns rfl hreading
        have hcode : (u.1.threadContainerPool i).statusCode = code := by
          rw [hsound.status, hpast]
          exact statusAfter_of_stored hstored
        simp [events, hreading, hcode, hpos] at hmore
      have hnearer := stepsTo_step hact hreading
      omega
    · have hgrown : eventsOf i v.2 ≠ past := by
        rw [hevents, hpast]
        simpa using hmore
      have hone : answerSteps i past code v ≤ 1 := answerSteps_le_one hgrown
      have hpositive := u.1.pc.stepsTo_pos i
      have hscans := act.length_scans_le
      omega
  · have hgrown : eventsOf i v.2 ≠ past := by
      intro hsame
      rw [hevents] at hsame
      exact hpast (hbefore.eq_of_length_le (hsame ▸ by simp)).symm
    by_cases hreport : eventsOf i u.2 = past ++ [.report code]
    · have hsteps : answerSteps i past code u = 1 := by
        rw [answerSteps, if_neg hpast, if_pos hreport]
      cases act with
      | orchestrator spawns =>
          have hlast : (eventsOf i u.2).getLast? = some (.report code) := by
            rw [hreport, List.getLast?_concat]
          have hpc : u.1.pc = .exited i :=
            exited_of_attention (hsound.fits.exited_of_report hlast)
          have hanswered : eventsOf i v.2 ≠ past ++ [.report code] := by
            rw [hevents, hreport]
            simp [events, hpc]
          have hzero : answerSteps i past code v = 0 := by
            rw [answerSteps, if_neg hgrown, if_neg hanswered]
          rw [hzero]
          exact Nat.zero_le _
      | _ =>
          rw [hsteps]
          exact answerSteps_le_one hgrown
    · have hanswered : eventsOf i v.2 ≠ past ++ [.report code] := by
        intro hsame
        have hwithin : eventsOf i u.2 <+: past ++ [.report code] := by
          rw [← hsame, hevents]
          exact List.prefix_append _ _
        rcases List.prefix_concat_iff.mp hwithin with hall | hearlier
        · exact hreport hall
        · exact hpast (hearlier.eq_of_length_le hbefore.length_le)
      have hzero : answerSteps i past code v = 0 := by
        rw [answerSteps, if_neg hgrown, if_neg hanswered]
      rw [hzero]
      exact Nat.zero_le _

/-- An exit is answered: the orchestrator never waits for a controller that runs, and when it has
taken `12 * n + 1` steps after a controller has left a positive status, a scan has reported this
status, and the container is started again or marked dead. -/
theorem exit_answered {acts : List (SupervisionAct n)}
    (hbefore : Reaches (observed (step autoRestart) (events autoRestart)) (start n, []) u)
    (hstored : (eventsOf i u.2).getLast? = some (.stored code)) (hpos : 0 < code)
    (hrun : Watched (observed (step autoRestart) (events autoRestart)) (fun _ act => act.scans)
      (fun _ _ => True) u v acts) :
    ((∀ spawns, (v.1.orchestratorStep autoRestart spawns).isSome) ∨ v.1.Waits) ∧
      (12 * n + 1 ≤ acts.length →
        eventsOf i u.2 ++ [.report code, if autoRestart i then .attempt else .dead] <+:
          eventsOf i v.2) := by
  refine ⟨isSome_or_waits (hbefore.trans hrun.guarded), ?_⟩
  intro henough
  obtain ⟨⟨hsound, hlonger⟩, hleft⟩ :
      (SoundAt autoRestart i v ∧ eventsOf i u.2 <+: eventsOf i v.2) ∧
        answerSteps i (eventsOf i u.2) code v ≤
          answerSteps i (eventsOf i u.2) code u - acts.length := by
    apply hrun.potential_le ⟨soundAt_of_reaches hbefore i, List.prefix_refl _⟩
    rintro u' act v' ⟨hsound, hlonger⟩ - hstep
    refine ⟨⟨soundAt_step hsound hstep, ?_⟩,
      answerSteps_step hsound hstored hpos hlonger hstep⟩
    rw [(observed_cases hstep).2, eventsOf_append]
    exact hlonger.trans (List.prefix_append _ _)
  have hstart : answerSteps i (eventsOf i u.2) code u ≤ 12 * n + 1 := by
    rw [answerSteps, if_pos rfl]
    exact Nat.succ_le_succ (OrchestratorPc.stepsTo_le i _)
  have hzero : answerSteps i (eventsOf i u.2) code v = 0 := by omega
  rw [answerSteps] at hzero
  split at hzero
  · cases hzero
  · rename_i hunread
    split at hzero
    · cases hzero
    · exact answered_of_lawful hsound.lawful hlonger hstored hunread ‹_›

/-- A controller with auto-restart returns 3 at once. -/
def startAndExit (i : Fin n) : List (SupervisionAct n) :=
  orchestrate true 7 ++ [.exit i 0 (.returns 3)]

/-- The orchestrator takes 13 steps, and the thread ends behind the second of them. -/
def scanAndJoin (i : Fin n) : List (SupervisionAct n) :=
  orchestrate true 2 ++ [.finish i 0] ++ orchestrate true 11

theorem exit_answered_scanAndJoin :
    ∃ (u v : Supervision 1 × List (Fin 1 × SupervisionEvent)) (acts : List (SupervisionAct 1)),
      Watched (observed (step fun _ => true) (events fun _ => true)) (fun _ act => act.scans)
        (fun _ _ => True) u v acts ∧
      eventsOf 0 u.2 = [.attempt, .reset, .stored 3] ∧
      [.attempt, .reset, .stored 3, .report 3, .attempt] <+: eventsOf 0 v.2 := by
  obtain ⟨u, v, acts, hbefore, hrun, hevents, henough⟩ :
      ∃ (u v : Supervision 1 × List (Fin 1 × SupervisionEvent)) (acts : List (SupervisionAct 1)),
        runActs (observed (step fun _ => true) (events fun _ => true)) (fun _ _ => True)
          (start 1, []) (startAndExit 0) = some u ∧
        runActs (observed (observed (step fun _ => true) (events fun _ => true))
            fun _ act => act.scans) (fun _ _ => True) (u, []) (scanAndJoin 0) = some (v, acts) ∧
        eventsOf 0 u.2 = [.attempt, .reset, .stored 3] ∧ 12 * 1 + 1 ≤ acts.length :=
    ⟨_, _, _, rfl, rfl, by decide, by decide⟩
  have hwatched : Watched (observed (step fun _ => true) (events fun _ => true))
      (fun _ act => act.scans) (fun _ _ => True) u v acts := guarded_of_runActs hrun
  have hstored : (eventsOf 0 u.2).getLast? = some (.stored 3) := by
    rw [hevents]
    rfl
  have hanswered :=
    (exit_answered (guarded_of_runActs hbefore) hstored (by decide) hwatched).2 henough
  rw [hevents] at hanswered
  exact ⟨u, v, acts, hwatched, hevents, hanswered⟩

end Supervision

end ControlEngine
