import ControlEngine.Controllers.Supervision

/-!
# The law of supervision

Every write of a container's `statusCode` is in its record, and so is every read of a
positive one, so that the record alone says what became of an exit.  `Allowed` is the law
of these records.  The invariant that carries it (`Sound`) ties the record to the thread
that the container can join and to what the orchestrator is doing with the container.
-/

namespace ControlEngine

/-- The status that an event writes. -/
def SupervisionEvent.written : SupervisionEvent → Option ℤ
  | reset => some 0
  | stored code => some code
  | dead => some (-1)
  | attempt | report _ => none

/-- What a container and its record look like under the attention that it gets. -/
def Attention.Fits (c : ThreadContainer) (trace : List SupervisionEvent) : Attention → Prop
  | .notYet => trace = []
  | .exited => ∃ code, trace.getLast? = some (.report code)
  | .starting .join => trace.getLast? = some .attempt
  | .starting .reset => trace.getLast? = some .attempt ∧ c.controllerThread = none
  | .starting .create => trace.getLast? = some .reset ∧ c.controllerThread = none
  | .starting .result | .elsewhere | .reading =>
      trace.getLast? ≠ some .attempt ∧ ∀ code, trace.getLast? ≠ some (.report code)

theorem Attention.Fits.congr {a : Attention} {c c' : ThreadContainer}
    {trace : List SupervisionEvent} (h : a.Fits c trace)
    (hjoinable : c'.controllerThread = c.controllerThread) : a.Fits c' trace := by
  cases a with
  | starting call =>
      cases call with
      | reset => exact ⟨h.1, hjoinable.trans h.2⟩
      | create => exact ⟨h.1, hjoinable.trans h.2⟩
      | _ => exact h
  | _ => exact h

/-- Behind a report comes what the scan does about it. -/
theorem Attention.Fits.exited_of_report {a : Attention} {c : ThreadContainer}
    {trace : List SupervisionEvent} (h : a.Fits c trace) {code : ℤ}
    (hreport : trace.getLast? = some (.report code)) : a = .exited := by
  cases a with
  | exited => rfl
  | notYet =>
      rw [Attention.Fits] at h
      simp [h] at hreport
  | elsewhere => exact absurd hreport (h.2 code)
  | reading => exact absurd hreport (h.2 code)
  | starting call => cases call <;> simp [Attention.Fits, hreport] at h

namespace ThreadContainer

variable {c c' : ThreadContainer} {k : ℕ}

theorem live_of_startThread (h : c.threads[k]? = some .startThread) : c.Live k :=
  ⟨_, h, nofun⟩

theorem join_eq (h : c.join = some c') :
    c' = { c with controllerThread := none } ∧
      ∀ k, c.controllerThread = some k → ¬ c.Live k := by
  rw [join] at h
  split at h
  · rename_i hnone
    cases h
    refine ⟨by rw [← hnone], ?_⟩
    intro k hk
    rw [hnone] at hk
    cases hk
  · rename_i k hsome
    obtain ⟨hended, hjoined⟩ := Option.ite_none_right_eq_some.mp h
    refine ⟨(Option.some.inj hjoined).symm, ?_⟩
    rintro k' hk' ⟨pc, hpc, hlive⟩
    rw [hsome] at hk'
    rw [← Option.some.inj hk', hended] at hpc
    exact hlive (Option.some.inj hpc).symm

theorem getElem?_of_set {pc pc' : RuntimePc} {j : ℕ}
    (h : (c.threads.set k pc)[j]? = some pc') :
    (j = k ∧ pc' = pc) ∨ (j ≠ k ∧ c.threads[j]? = some pc') := by
  rw [List.getElem?_set] at h
  split at h
  · rename_i hkj
    obtain ⟨-, hpc⟩ := Option.ite_none_right_eq_some.mp h
    exact Or.inl ⟨hkj.symm, (Option.some.inj hpc).symm⟩
  · rename_i hkj
    exact Or.inr ⟨Ne.symm hkj, h⟩

theorem getElem?_of_spawn {pc : RuntimePc} {j : ℕ} (h : c.spawn.threads[j]? = some pc) :
    j = c.threads.length ∨ c.threads[j]? = some pc := by
  rw [spawn, List.getElem?_append] at h
  split at h
  · exact Or.inr h
  · have hj : j - c.threads.length < 1 := (List.getElem?_eq_some_iff.mp h).1
    left
    omega

end ThreadContainer

namespace Supervision

/-! ## The law of a container's record -/

/-- The status after a record. -/
def statusAfter (trace : List SupervisionEvent) : ℤ :=
  trace.foldl (fun code e => e.written.getD code) 0

@[simp] theorem statusAfter_append_singleton (trace : List SupervisionEvent)
    (e : SupervisionEvent) :
    statusAfter (trace ++ [e]) = e.written.getD (statusAfter trace) := by
  simp [statusAfter]

/-- The events that a record allows next.  A thread is started once at the beginning, and
after that only for a positive status that a scan has read, with auto-restart on; a
positive status is read, by one scan, before it is written again; with auto-restart off
that scan marks the container dead, and nothing comes after that. -/
def Allowed (autoRestart : Bool) (before : List SupervisionEvent) : SupervisionEvent → Prop
  | .attempt =>
      before = [] ∨
        (autoRestart = true ∧ 0 < statusAfter before ∧ ∃ code, before.getLast? = some (.report code))
  | .reset => before.getLast? = some .attempt
  | .stored _ => before.getLast? = some .reset
  | .report code => 0 < code ∧ before.getLast? = some (.stored code)
  | .dead => autoRestart = false ∧ ∃ code, before.getLast? = some (.report code)

/-- The invariant of one container: only the thread that it can join is live, a controller
runs only behind a reset, and the record is lawful and accounts for the status. -/
structure Sound (autoRestart : Bool) (a : Attention) (c : ThreadContainer)
    (trace : List SupervisionEvent) : Prop where
  live : ∀ k, c.Live k → c.controllerThread = some k
  running : ∀ k : ℕ, c.threads[k]? = some .startThread → trace.getLast? = some .reset
  status : c.statusCode = statusAfter trace
  lawful : Lawful (Allowed autoRestart) trace
  fits : a.Fits c trace

/-! ## What every move keeps -/

section Moves

variable {autoRestart : Bool} {a a' : Attention} {c c' : ThreadContainer}
variable {trace more : List SupervisionEvent}

theorem Sound.eq_of_live (h : Sound autoRestart a c trace) {j k : ℕ} (hj : c.Live j)
    (hk : c.Live k) : j = k := by
  have hsame := (h.live j hj).symm.trans (h.live k hk)
  exact Option.some.inj hsame

/-- A controller runs behind a reset only. -/
theorem Sound.not_running (h : Sound autoRestart a c trace)
    (hlast : trace.getLast? ≠ some .reset) (k : ℕ) : c.threads[k]? ≠ some .startThread := by
  intro hk
  exact hlast (h.running k hk)

/-- While a controller runs, the orchestrator does nothing with its container but leave
the call that started it, or read. -/
theorem Sound.fits_stored (h : Sound autoRestart a c trace) {k : ℕ}
    (hk : c.threads[k]? = some .startThread) (c' : ThreadContainer) (code : ℤ) :
    a.Fits c' (trace ++ [.stored code]) := by
  have hreset := h.running k hk
  have hjoinable := h.live k (ThreadContainer.live_of_startThread hk)
  have hfits := h.fits
  cases a with
  | notYet =>
      rw [Attention.Fits] at hfits
      simp [hfits] at hreset
  | exited =>
      obtain ⟨code, hreport⟩ := hfits
      simp [hreset] at hreport
  | starting call =>
      cases call with
      | join => simp [Attention.Fits, hreset] at hfits
      | reset => simp [Attention.Fits, hreset] at hfits
      | create => simp [Attention.Fits, hjoinable] at hfits
      | result => simp [Attention.Fits]
  | elsewhere => simp [Attention.Fits]
  | reading => simp [Attention.Fits]

/-- A positive status that no scan has read was stored last. -/
theorem getLast?_of_statusAfter_pos (hpos : 0 < statusAfter trace)
    (hattempt : trace.getLast? ≠ some .attempt)
    (hreport : ∀ code, trace.getLast? ≠ some (.report code)) :
    trace.getLast? = some (.stored (statusAfter trace)) := by
  cases trace using List.reverseRecOn with
  | nil => simp [statusAfter] at hpos
  | append_singleton before e =>
      rw [statusAfter_append_singleton] at hpos
      cases e <;> simp_all [SupervisionEvent.written]

theorem statusAfter_of_stored {code : ℤ} (h : trace.getLast? = some (.stored code)) :
    statusAfter trace = code := by
  obtain ⟨before, rfl⟩ := List.getLast?_eq_some_iff.mp h
  rw [statusAfter_append_singleton]
  rfl

theorem statusAfter_pos_of_report (hlawful : Lawful (Allowed autoRestart) trace) {code : ℤ}
    (hreport : trace.getLast? = some (.report code)) : 0 < statusAfter trace := by
  obtain ⟨before, rfl⟩ := List.getLast?_eq_some_iff.mp hreport
  obtain ⟨hpos, hstored⟩ := (lawful_append_singleton.mp hlawful).2
  rw [statusAfter_append_singleton, statusAfter_of_stored hstored]
  exact hpos

/-- An event that is recorded while no controller of the container runs. -/
theorem Sound.record (h : Sound autoRestart a c trace) {e : SupervisionEvent} {code : ℤ}
    (hidle : ∀ k : ℕ, c.threads[k]? ≠ some .startThread)
    (hcode : e.written.getD c.statusCode = code) (hallowed : Allowed autoRestart trace e)
    (hfits : a'.Fits (c.setStatusCode code) (trace ++ [e])) :
    Sound autoRestart a' (c.setStatusCode code) (trace ++ [e]) := by
  refine ⟨h.live, ?_, ?_, lawful_append_singleton.mpr ⟨h.lawful, hallowed⟩, hfits⟩
  · intro k hk
    exact absurd hk (hidle k)
  · rw [statusAfter_append_singleton, ← h.status, hcode]
    rfl

/-- A live thread that moves on is still the one that can be joined. -/
theorem Sound.live_set (h : Sound autoRestart a c trace) {j k : ℕ} {pc pc' : RuntimePc}
    (hk : c.Live k) (hj : (c.threads.set k pc)[j]? = some pc') (hlive : pc' ≠ .ended) :
    c.controllerThread = some j := by
  rcases ThreadContainer.getElem?_of_set hj with ⟨rfl, -⟩ | ⟨-, hold⟩
  · exact h.live j hk
  · exact h.live j ⟨pc', hold, hlive⟩

/-- The status that a controller leaves is recorded, and no controller runs any more. -/
theorem Sound.exit (h : Sound autoRestart a c trace) {k : ℕ} {how : ControllerExit}
    (hexit : c.exit k how = some c') :
    Sound autoRestart a c' (trace ++ [.stored how.statusCode]) := by
  obtain ⟨hk, hleft⟩ := Option.ite_none_right_eq_some.mp hexit
  cases hleft
  have hlive := ThreadContainer.live_of_startThread hk
  refine ⟨?_, ?_, ?_, ?_, h.fits_stored hk _ _⟩
  · rintro j ⟨pc, hpc, hnot⟩
    exact h.live_set hlive hpc hnot
  · intro j hj
    rcases ThreadContainer.getElem?_of_set hj with ⟨-, hpc⟩ | ⟨hne, hold⟩
    · cases hpc
    · -- The controller that ended was the only one.
      have hother := h.eq_of_live (ThreadContainer.live_of_startThread hold) hlive
      exact absurd hother hne
  · simp [SupervisionEvent.written]
  · exact lawful_append_singleton.mpr ⟨h.lawful, h.running k hk⟩

theorem Sound.finish (h : Sound autoRestart a c trace) {k : ℕ} (hfinish : c.finish k = some c') :
    Sound autoRestart a c' trace := by
  obtain ⟨hk, hended⟩ := Option.ite_none_right_eq_some.mp hfinish
  cases hended
  refine ⟨?_, ?_, h.status, h.lawful, h.fits.congr rfl⟩
  · rintro j ⟨pc, hpc, hnot⟩
    exact h.live_set ⟨_, hk, nofun⟩ hpc hnot
  · intro j hj
    rcases ThreadContainer.getElem?_of_set hj with ⟨-, hpc⟩ | ⟨-, hold⟩
    · cases hpc
    · exact h.running j hold

theorem Sound.spawn (h : Sound autoRestart (.starting .create) c trace) :
    Sound autoRestart (.starting .result) c.spawn trace := by
  obtain ⟨hreset, hjoined⟩ := h.fits
  refine ⟨?_, fun _ _ => hreset, h.status, h.lawful, ?_⟩
  · rintro k ⟨pc, hpc, hlive⟩
    rcases ThreadContainer.getElem?_of_spawn hpc with rfl | hold
    · rfl
    · have hjoinable := h.live k ⟨pc, hold, hlive⟩
      rw [hjoined] at hjoinable
      cases hjoinable
  · simp [Attention.Fits, hreset]

theorem Sound.move (h : Sound autoRestart a c trace)
    (hmove : ContainerMove autoRestart a c a' c' more) :
    Sound autoRestart a' c' (trace ++ more) := by
  have hfits := h.fits
  cases hmove with
  | still => rwa [List.append_nil]
  | firstAttempt =>
      have hidle := h.not_running (by rw [hfits]; nofun)
      exact h.record hidle rfl (Or.inl hfits) (by simp [Attention.Fits])
  | join hjoin =>
      obtain ⟨rfl, hended⟩ := ThreadContainer.join_eq hjoin
      rw [List.append_nil]
      refine ⟨?_, h.running, h.status, h.lawful, hfits, rfl⟩
      intro k hk
      exact absurd hk (hended k (h.live k hk))
  | reset =>
      obtain ⟨hattempt, hjoined⟩ := hfits
      have hidle := h.not_running (by rw [hattempt]; nofun)
      exact h.record hidle rfl hattempt ⟨by simp, hjoined⟩
  | spawn =>
      rw [List.append_nil]
      exact h.spawn
  | spawnFails =>
      obtain ⟨hreset, hjoined⟩ := hfits
      have hidle : ∀ k : ℕ, c.threads[k]? ≠ some .startThread := by
        intro k hk
        have hjoinable := h.live k (ThreadContainer.live_of_startThread hk)
        rw [hjoined] at hjoinable
        cases hjoinable
      exact h.record hidle rfl hreset (by simp [Attention.Fits])
  | leave =>
      rw [List.append_nil]
      exact ⟨h.live, h.running, h.status, h.lawful, hfits⟩
  | visit =>
      rw [List.append_nil]
      exact ⟨h.live, h.running, h.status, h.lawful, hfits⟩
  | readOther =>
      rw [List.append_nil]
      exact ⟨h.live, h.running, h.status, h.lawful, hfits⟩
  | readExit hpos =>
      obtain ⟨hattempt, hreport⟩ := hfits
      have hstored : trace.getLast? = some (.stored c.statusCode) := by
        rw [h.status] at hpos ⊢
        exact getLast?_of_statusAfter_pos hpos hattempt hreport
      have hidle := h.not_running (by rw [hstored]; nofun)
      exact h.record hidle rfl ⟨hpos, hstored⟩ ⟨c.statusCode, by simp⟩
  | restart hauto =>
      obtain ⟨code, hreport⟩ := hfits
      have hpos := statusAfter_pos_of_report h.lawful hreport
      have hidle := h.not_running (by rw [hreport]; nofun)
      exact h.record hidle rfl (Or.inr ⟨hauto, hpos, code, hreport⟩) (by simp [Attention.Fits])
  | setDead hauto =>
      obtain ⟨code, hreport⟩ := hfits
      have hidle := h.not_running (by rw [hreport]; nofun)
      exact h.record hidle rfl ⟨hauto, code, hreport⟩ (by simp [Attention.Fits])
  | exit hexit => exact h.exit hexit
  | finish hfinish =>
      rw [List.append_nil]
      exact h.finish hfinish

theorem getLast?_of_dead_mem (hlawful : Lawful (Allowed autoRestart) trace)
    (hdead : .dead ∈ trace) : trace.getLast? = some .dead := by
  induction trace using List.reverseRecOn with
  | nil => cases hdead
  | append_singleton before e ih =>
      obtain ⟨hbefore, hallowed⟩ := lawful_append_singleton.mp hlawful
      rcases List.mem_append.mp hdead with hearlier | hlast
      · have hend := ih hbefore hearlier
        have hne : before ≠ [] := List.ne_nil_of_mem hearlier
        cases e <;> simp [Allowed, hend, hne] at hallowed
      · rw [List.mem_singleton.mp hlast, List.getLast?_concat]

end Moves

/-! ## Runs -/

variable {n : ℕ} {autoRestart : Fin n → Bool}

/-- The law of supervision, for one container.  A scan that comes to a positive status
reports it, and the step behind a report is what the scan does about it. -/
structure Supervised (autoRestart : Fin n → Bool) (i : Fin n) (s : Supervision n)
    (trace : List SupervisionEvent) : Prop where
  oneLive : ∀ j k, (s.threadContainerPool i).Live j → (s.threadContainerPool i).Live k → j = k
  status : (s.threadContainerPool i).statusCode = statusAfter trace
  lawful : Lawful (Allowed (autoRestart i)) trace
  read : ∀ code, 0 < code → trace.getLast? = some (.stored code) → s.pc = .getStatusCode i →
    ∀ spawns, s.events autoRestart (.orchestrator spawns) = [(i, .report code)]
  acted : ∀ code, trace.getLast? = some (.report code) → ∀ spawns,
    (s.step autoRestart (.orchestrator spawns)).isSome ∧
      s.events autoRestart (.orchestrator spawns) =
        [(i, if autoRestart i then .attempt else .dead)]
  dead : .dead ∈ trace → trace.getLast? = some .dead

theorem exited_of_attention {pc : OrchestratorPc n} {i : Fin n}
    (h : pc.attention i = .exited) : pc = .exited i := by
  cases pc with
  | exited j =>
      by_cases hji : j = i
      · rw [hji]
      · simp [OrchestratorPc.attention, hji] at h
  | scanLoop j => cases h
  | startLoop j =>
      simp only [OrchestratorPc.attention] at h
      split_ifs at h
  | getStatusCode j =>
      simp only [OrchestratorPc.attention] at h
      split_ifs at h
  | startThread j restart call =>
      simp only [OrchestratorPc.attention] at h
      split_ifs at h

/-- The invariant of container `i`, over the states and traces of the whole. -/
def SoundAt (autoRestart : Fin n → Bool) (i : Fin n)
    (u : Supervision n × List (Fin n × SupervisionEvent)) : Prop :=
  Sound (autoRestart i) (u.1.pc.attention i) (u.1.threadContainerPool i) (eventsOf i u.2)

theorem soundAt_start (i : Fin n) : SoundAt autoRestart i (start n, []) := by
  refine ⟨?_, ?_, rfl, lawful_nil _, ?_⟩
  · rintro k ⟨pc, hpc, -⟩
    cases hpc
  · intro k hk
    cases hk
  · simp [start, OrchestratorPc.attention, Attention.Fits]

theorem soundAt_step {i : Fin n} {u v : Supervision n × List (Fin n × SupervisionEvent)}
    {act : SupervisionAct n} (h : SoundAt autoRestart i u)
    (hstep : observed (step autoRestart) (events autoRestart) u act = some v) :
    SoundAt autoRestart i v := by
  obtain ⟨hact, htrace⟩ := observed_cases hstep
  rw [SoundAt, htrace, eventsOf_append]
  exact h.move (move_step hact i)

/-- Supervision keeps its law for every container: in every run of the orchestrator with
any number of containers, in which the controllers end at any moment and in any way and
the creation of threads may fail. -/
theorem supervised_of_reaches {s : Supervision n} {trace : List (Fin n × SupervisionEvent)}
    (hrun : Reaches (observed (step autoRestart) (events autoRestart)) (start n, []) (s, trace))
    (i : Fin n) : Supervised autoRestart i s (eventsOf i trace) := by
  have hsound : SoundAt autoRestart i (s, trace) :=
    hrun.invariant (soundAt_start i) fun _ _ _ h _ hstep => soundAt_step h hstep
  refine ⟨fun j k => hsound.eq_of_live, hsound.status, hsound.lawful, ?_, ?_,
    getLast?_of_dead_mem hsound.lawful⟩
  · intro code hpos hstored hpc spawns
    have hcode : (s.threadContainerPool i).statusCode = code :=
      hsound.status.trans (statusAfter_of_stored hstored)
    simp [events, hpc, hcode, hpos]
  · intro code hreport spawns
    have hpc : s.pc = .exited i := exited_of_attention (hsound.fits.exited_of_report hreport)
    refine ⟨?_, by simp [events, hpc]⟩
    cases hauto : autoRestart i <;> simp [step, orchestratorStep, hpc, hauto]

/-- The orchestrator takes some steps in which threads are created, or fail to be. -/
def orchestrate (spawns : Bool) (steps : ℕ) : List (SupervisionAct n) :=
  List.replicate steps (.orchestrator spawns)

/-- A controller with auto-restart returns 3; the creation of its next thread fails. -/
def restartFails : List (SupervisionAct 1) :=
  orchestrate true 7 ++ [.exit 0 0 (.returns 3)] ++ orchestrate true 2 ++ [.finish 0 0] ++
    orchestrate false 4

theorem supervised_of_reaches_restartFails :
    ∃ (s : Supervision 1) (trace : List (Fin 1 × SupervisionEvent)),
      runActs (observed (step fun _ => true) (events fun _ => true)) (fun _ _ => True)
          (start 1, []) restartFails = some (s, trace) ∧
      eventsOf 0 trace = [.attempt, .reset, .stored 3, .report 3, .attempt, .reset, .stored 1] ∧
      Supervised (fun _ => true) 0 s (eventsOf 0 trace) := by
  obtain ⟨s, trace, hrun, hevents⟩ : ∃ (s : Supervision 1)
      (trace : List (Fin 1 × SupervisionEvent)),
      runActs (observed (step fun _ => true) (events fun _ => true)) (fun _ _ => True)
          (start 1, []) restartFails = some (s, trace) ∧
      eventsOf 0 trace =
        [.attempt, .reset, .stored 3, .report 3, .attempt, .reset, .stored 1] :=
    ⟨_, _, rfl, by decide⟩
  exact ⟨s, trace, hrun, hevents, supervised_of_reaches (guarded_of_runActs hrun) 0⟩

end Supervision
end ControlEngine
