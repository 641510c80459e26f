import ControlEngine.Static.LogQueue

/-!
# Several loggers on one queue

`main` starts as many loggers as the configuration says.  Each tests whether the queue is
empty and pops later, in two calls.  Here every call of `push`, `pop` and `empty` is one
atomic step, so the locks do not matter; what matters is that between the test of a logger
and its pop another logger can pop.  Between a pop, or a test that found nothing, and its
next test a logger handles the record or cuts its batch, and logs on its own.
-/

namespace ControlEngine

/-- Where a logger stands in its loop. -/
inductive LoggerPc
  | test
  | pop
  | work
deriving DecidableEq, Repr

/-- The steps of a logger. -/
inductive LoggerStep
  | empty
  | pop
  | push (entry : LogEntry)
  | again
deriving DecidableEq, Repr

/-- `k` loggers and `p` other threads that log. -/
inductive LoggersAct (k p : ℕ)
  | produce (j : Fin p) (entry : LogEntry)
  | logger (i : Fin k) (step : LoggerStep)
deriving DecidableEq, Repr

/-- The queue, all that was pushed, all that was popped with the logger that did, and
whether `pop` was applied to an empty queue. -/
structure Loggers (k : ℕ) where
  mQueue : List LogEntry
  pushed : List LogEntry
  popped : List (Fin k × LogEntry)
  undefined : Bool
  pc : Fin k → LoggerPc

namespace Loggers

/-- The loggers when they start. -/
def start (k : ℕ) : Loggers k where
  mQueue := []
  pushed := []
  popped := []
  undefined := false
  pc _ := .test

variable {k p : ℕ}

/-- A `push`, by whichever thread. -/
def push (s : Loggers k) (entry : LogEntry) : Loggers k :=
  { s with
    mQueue := LogCall.access (.push entry) s.mQueue
    pushed := s.pushed ++ [entry] }

/-- One step of a logger. -/
def loggerStep (s : Loggers k) (i : Fin k) : LoggerPc → LoggerStep → Option (Loggers k)
  | .test, .empty =>
      some { s with pc := Function.update s.pc i (if s.mQueue.isEmpty then .work else .pop) }
  | .pop, .pop =>
      match s.mQueue.head? with
      | some entry =>
          some { s with
            mQueue := LogCall.access .pop s.mQueue
            popped := s.popped ++ [(i, entry)]
            pc := Function.update s.pc i .work }
      | none => some { s with undefined := true }
  | .work, .push entry => some (s.push entry)
  | .work, .again => some { s with pc := Function.update s.pc i .test }
  | _, _ => none

/-- One act; behind undefined behaviour there is none. -/
def step (s : Loggers k) (act : LoggersAct k p) : Option (Loggers k) :=
  if s.undefined then none
  else
    match act with
    | .produce _ entry => some (s.push entry)
    | .logger i step => s.loggerStep i (s.pc i) step

/-- `pop` was never applied to an empty queue, and the records were popped in the order in
which they were pushed, each by one of the loggers. -/
structure Safe (s : Loggers k) : Prop where
  defined : s.undefined = false
  order : s.pushed = s.popped.map Prod.snd ++ s.mQueue

/-- With what carries it for a single logger: what it has seen stays true. -/
structure Seen (s : Loggers k) : Prop where
  safe : s.Safe
  nonempty : ∀ i, s.pc i = .pop → s.mQueue ≠ []

variable {s s' : Loggers k} {act : LoggersAct k p}

theorem Seen.push (h : s.Seen) (entry : LogEntry) : (s.push entry).Seen where
  safe := ⟨h.safe.defined, by simp [Loggers.push, LogCall.access, h.safe.order]⟩
  nonempty i _ := by simp [Loggers.push, LogCall.access]

/-- A single logger pops what it has seen. -/
theorem seen_loggerStep [Subsingleton (Fin k)] (h : s.Seen) (i : Fin k) {step : LoggerStep}
    (hstep : s.loggerStep i (s.pc i) step = some s') : s'.Seen := by
  have hown : ∀ (pc : LoggerPc) (j : Fin k), Function.update s.pc i pc j = pc := by
    intro pc j
    rw [Subsingleton.elim j i]
    exact Function.update_self _ _ _
  cases hpc : s.pc i with
  | test =>
      rw [hpc] at hstep
      cases step <;> cases hstep
      refine ⟨⟨h.safe.defined, h.safe.order⟩, ?_⟩
      intro j hj hempty
      simp [hown] at hj
      exact hj hempty
  | pop =>
      rw [hpc] at hstep
      cases step <;> try cases hstep
      obtain ⟨entry, rest, hqueue⟩ := List.exists_cons_of_ne_nil (h.nonempty i hpc)
      simp only [loggerStep, hqueue, List.head?_cons] at hstep
      cases hstep
      refine ⟨⟨h.safe.defined, ?_⟩, ?_⟩
      · simp [h.safe.order, hqueue, LogCall.access]
      · intro j hj
        simp [hown] at hj
  | work =>
      rw [hpc] at hstep
      cases step <;> try cases hstep
      · exact h.push _
      · refine ⟨⟨h.safe.defined, h.safe.order⟩, ?_⟩
        intro j hj
        simp [hown] at hj

theorem seen_step [Subsingleton (Fin k)] (h : s.Seen) (hstep : s.step act = some s') :
    s'.Seen := by
  obtain ⟨-, hact⟩ := Option.ite_none_left_eq_some.mp hstep
  cases act with
  | produce j entry =>
      cases hact
      exact h.push entry
  | logger i step => exact seen_loggerStep h i hact

/-! ## Two loggers -/

/-- Both loggers see the only record, and both pop. -/
def popTwice {k p : ℕ} (i j : Fin k) (entry : LogEntry) : List (LoggersAct k p) :=
  [.logger i .empty, .logger i (.push entry), .logger i .again, .logger i .empty,
    .logger j .empty, .logger i .pop, .logger j .pop]

theorem exists_undefined {i j : Fin k} (hne : i ≠ j) (entry : LogEntry) :
    ∃ s : Loggers k, runActs (step (p := p)) (fun _ _ => True) (start k) (popTwice i j entry) =
      some s ∧ s.undefined = true := by
  simp [runActs, popTwice, step, loggerStep, start, push, LogCall.access, hne, hne.symm]

/-- Several logging threads share the queue safely, in every run and with any number of
other threads that log, exactly if there is at most one of them. -/
theorem safe_iff_one_logger (k p : ℕ) :
    (∀ s : Loggers k, Reaches (step : Loggers k → LoggersAct k p → Option (Loggers k))
      (start k) s → s.Safe) ↔ k ≤ 1 := by
  constructor
  · intro hsafe
    by_contra hmany
    have hne : (⟨0, by omega⟩ : Fin k) ≠ ⟨1, by omega⟩ := by simp
    obtain ⟨s, hrun, hundefined⟩ := exists_undefined (p := p) hne ⟨[], [], [], []⟩
    have hdefined := (hsafe s (guarded_of_runActs hrun)).defined
    rw [hundefined] at hdefined
    cases hdefined
  · intro hone s hrun
    have hsubsingleton : Subsingleton (Fin k) := Fin.subsingleton_iff_le_one.mpr hone
    have hstart : (start k).Seen := ⟨⟨rfl, rfl⟩, nofun⟩
    exact (hrun.invariant hstart fun _ _ _ h _ hstep => seen_step h hstep).safe

theorem not_safe_twoLoggers :
    ∃ s : Loggers 2, Reaches (step : Loggers 2 → LoggersAct 2 0 → Option (Loggers 2))
      (start 2) s ∧ ¬ s.Safe := by
  obtain ⟨s, hrun, hundefined⟩ : ∃ s : Loggers 2,
      runActs (step : Loggers 2 → LoggersAct 2 0 → Option (Loggers 2)) (fun _ _ => True)
        (start 2) (popTwice 0 1 ⟨[], [], [], []⟩) = some s ∧ s.undefined = true :=
    ⟨_, rfl, rfl⟩
  refine ⟨s, guarded_of_runActs hrun, ?_⟩
  intro hsafe
  rw [hsafe.defined] at hundefined
  cases hundefined

end Loggers
end ControlEngine
