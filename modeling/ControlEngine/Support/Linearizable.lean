import ControlEngine.Support.Transition
import Mathlib.Logic.Function.Basic

/-!
# Calls that take effect at once

Any number of threads call operations on shared data.  A call takes the one lock, reads the data
in several steps, commits in one step, releases the lock and returns.  Everybody may act in
between, and nobody waits for anything but the lock.  An access that is not defined on the data
it meets is not taken.

The data are then at every moment what the committed calls have made of it, one after the other
and each of them at once, and these calls have returned what they return there.  A call commits
between its beginning and its return, so a call that has returned before another one began comes
before it.
-/

namespace ControlEngine

variable {ι κ σ ν : Type*}

/-- The accesses of an operation, each of them one step: the reads, with the variables that they
set, and the commit, which may write. -/
structure CriticalSection (σ ν : Type*) where
  initial : ν
  reads : List (σ → ν → Option ν)
  commit : σ → ν → Option (σ × ν)

/-- Some reads, one after the other. -/
def readAll (data : σ) : List (σ → ν → Option ν) → ν → Option ν
  | [], v => some v
  | read :: reads, v => (read data v).bind (readAll data reads)

/-- An operation on data that nobody else accesses. -/
def CriticalSection.atomically (c : CriticalSection σ ν) (data : σ) : Option (σ × ν) :=
  (readAll data c.reads c.initial).bind (c.commit data)

/-- Where a thread is in a call. -/
inductive CallPhase (κ σ ν : Type*)
  | idle
  | called (call : κ)
  | inside (call : κ) (reads : List (σ → ν → Option ν)) (v : ν)
  | committed (call : κ) (answer : ν)
  | released (call : κ) (answer : ν)

/-- What is seen of a call. -/
inductive CallEvent (κ ν : Type*)
  | called (call : κ)
  | committed (call : κ) (answer : ν)
  | returned (call : κ) (answer : ν)

/-- The threads, the owner of the lock, the data, and what has been seen. -/
structure Monitor (ι κ σ ν : Type*) where
  phase : ι → CallPhase κ σ ν
  owner : Option ι
  data : σ
  history : List (ι × CallEvent κ ν)

/-- The steps of a call. -/
inductive MonitorAct (ι κ : Type*)
  | call (i : ι) (call : κ)
  | acquire (i : ι)
  | access (i : ι)
  | release (i : ι)
  | leave (i : ι)

namespace Monitor

/-- Nobody has called anything. -/
def start (data : σ) : Monitor ι κ σ ν where
  phase _ := .idle
  owner := none
  data := data
  history := []

variable [DecidableEq ι]

/-- A thread goes on. -/
def move (s : Monitor ι κ σ ν) (i : ι) (phase : CallPhase κ σ ν) : Monitor ι κ σ ν :=
  { s with phase := Function.update s.phase i phase }

/-- A thread goes on, and is seen. -/
def see (s : Monitor ι κ σ ν) (i : ι) (phase : CallPhase κ σ ν) (e : CallEvent κ ν) :
    Monitor ι κ σ ν :=
  { s.move i phase with history := s.history ++ [(i, e)] }

/-- One step. -/
def step (criticalSection : κ → CriticalSection σ ν) (s : Monitor ι κ σ ν) :
    MonitorAct ι κ → Option (Monitor ι κ σ ν)
  | .call i call =>
      match s.phase i with
      | .idle => some (s.see i (.called call) (.called call))
      | _ => none
  | .acquire i =>
      match s.phase i, s.owner with
      | .called call, none =>
          some { s.move i (.inside call (criticalSection call).reads
            (criticalSection call).initial) with owner := some i }
      | _, _ => none
  | .access i =>
      match s.phase i with
      | .inside call (read :: reads) v =>
          (read s.data v).map fun v' => s.move i (.inside call reads v')
      | .inside call [] v =>
          ((criticalSection call).commit s.data v).map fun (data, answer) =>
            { s.see i (.committed call answer) (.committed call answer) with data }
      | _ => none
  | .release i =>
      match s.phase i with
      | .committed call answer => some { s.move i (.released call answer) with owner := none }
      | _ => none
  | .leave i =>
      match s.phase i with
      | .released call answer => some (s.see i .idle (.returned call answer))
      | _ => none

end Monitor

/-! ## What it means -/

/-- The calls that were committed, with their answers, in order. -/
def committed (history : List (ι × CallEvent κ ν)) : List (κ × ν) :=
  history.flatMap fun e =>
    match e.2 with
    | .committed call answer => [(call, answer)]
    | _ => []

theorem committed_append (history : List (ι × CallEvent κ ν)) (i : ι) (call : κ) (answer : ν) :
    committed (history ++ [(i, .committed call answer)]) =
      committed history ++ [(call, answer)] := by
  simp [committed]

theorem committed_append_of_ne (history : List (ι × CallEvent κ ν)) (i : ι)
    {e : CallEvent κ ν} (he : ∀ call answer, e ≠ .committed call answer) :
    committed (history ++ [(i, e)]) = committed history := by
  rw [committed, List.flatMap_append, ← committed]
  cases e with
  | committed call answer => exact absurd rfl (he call answer)
  | _ => exact List.append_nil _

/-- The calls of a list, one after the other and each at once, lead from some data to other
data and give these answers. -/
inductive Replays (criticalSection : κ → CriticalSection σ ν) (data : σ) :
    List (κ × ν) → σ → Prop
  | nothing : Replays criticalSection data [] data
  | more {log : List (κ × ν)} {data' data'' : σ} {call : κ} {answer : ν}
      (hlog : Replays criticalSection data log data')
      (hcall : (criticalSection call).atomically data' = some (data'', answer)) :
      Replays criticalSection data (log ++ [(call, answer)]) data''

/-- How far the current call of a thread is, as it is seen. -/
inductive CallStage (κ ν : Type*)
  | idle
  | called (call : κ)
  | committed (call : κ) (answer : ν)

/-- A call is called, is committed, and returns what it was committed with. -/
inductive CallTurn : CallStage κ ν → CallEvent κ ν → CallStage κ ν → Prop
  | called (call : κ) : CallTurn .idle (.called call) (.called call)
  | committed (call : κ) (answer : ν) :
      CallTurn (.called call) (.committed call answer) (.committed call answer)
  | returned (call : κ) (answer : ν) :
      CallTurn (.committed call answer) (.returned call answer) .idle

/-- What is seen of a thread is one call after the other. -/
inductive InTurn : List (CallEvent κ ν) → CallStage κ ν → Prop
  | nothing : InTurn [] .idle
  | more {events : List (CallEvent κ ν)} {stage stage' : CallStage κ ν} {e : CallEvent κ ν}
      (hevents : InTurn events stage) (hturn : CallTurn stage e stage') :
      InTurn (events ++ [e]) stage'

section

variable [DecidableEq ι]

/-- What has been seen of a thread. -/
def seenOf (i : ι) (history : List (ι × CallEvent κ ν)) : List (CallEvent κ ν) :=
  (history.filter fun e => e.1 = i).map Prod.snd

/-- The calls have taken effect one after the other: in the order of their commits they lead to
the data with the answers that they have given, and each thread has called them, seen them
committed and got these answers in turn. -/
structure Monitor.Linearized (criticalSection : κ → CriticalSection σ ν) (data : σ)
    (s : Monitor ι κ σ ν) : Prop where
  replays : Replays criticalSection data (committed s.history) s.data
  turns : ∀ i, ∃ stage, InTurn (seenOf i s.history) stage

end

/-! ## The steps -/

namespace CallPhase

/-- The thread holds the lock. -/
def holds : CallPhase κ σ ν → Bool
  | inside _ _ _ | committed _ _ => true
  | _ => false

/-- What is seen of the phase. -/
def stage : CallPhase κ σ ν → CallStage κ ν
  | idle => .idle
  | called call | inside call _ _ => .called call
  | committed call answer | released call answer => .committed call answer

end CallPhase

namespace Monitor

variable [DecidableEq ι] {criticalSection : κ → CriticalSection σ ν} {data₀ : σ}
variable {s s' : Monitor ι κ σ ν} {act : MonitorAct ι κ}

/-- All that a step can do. -/
inductive Move (criticalSection : κ → CriticalSection σ ν) (s : Monitor ι κ σ ν) :
    Monitor ι κ σ ν → Prop
  | call {i : ι} {call : κ} (hphase : s.phase i = .idle) :
      Move criticalSection s (s.see i (.called call) (.called call))
  | acquire {i : ι} {call : κ} (hphase : s.phase i = .called call) (hfree : s.owner = none) :
      Move criticalSection s { s.move i (.inside call (criticalSection call).reads
        (criticalSection call).initial) with owner := some i }
  | read {i : ι} {call : κ} {read : σ → ν → Option ν} {reads : List (σ → ν → Option ν)} {v v' : ν}
      (hphase : s.phase i = .inside call (read :: reads) v) (hread : read s.data v = some v') :
      Move criticalSection s (s.move i (.inside call reads v'))
  | commit {i : ι} {call : κ} {v answer : ν} {data : σ} (hphase : s.phase i = .inside call [] v)
      (hcommit : (criticalSection call).commit s.data v = some (data, answer)) :
      Move criticalSection s
        { s.see i (.committed call answer) (.committed call answer) with data }
  | release {i : ι} {call : κ} {answer : ν} (hphase : s.phase i = .committed call answer) :
      Move criticalSection s { s.move i (.released call answer) with owner := none }
  | leave {i : ι} {call : κ} {answer : ν} (hphase : s.phase i = .released call answer) :
      Move criticalSection s (s.see i .idle (.returned call answer))

theorem move_of_step (h : s.step criticalSection act = some s') : Move criticalSection s s' := by
  cases act with
  | call i call =>
      simp only [step] at h
      split at h
      · cases h
        exact .call ‹_›
      · cases h
  | acquire i =>
      simp only [step] at h
      split at h
      · cases h
        exact .acquire ‹_› ‹_›
      · cases h
  | access i =>
      simp only [step] at h
      split at h
      · obtain ⟨v', hread, rfl⟩ := Option.map_eq_some_iff.mp h
        exact .read ‹_› hread
      · obtain ⟨⟨data, answer⟩, hcommit, rfl⟩ := Option.map_eq_some_iff.mp h
        exact .commit ‹_› hcommit
      · cases h
  | release i =>
      simp only [step] at h
      split at h
      · cases h
        exact .release ‹_›
      · cases h
  | leave i =>
      simp only [step] at h
      split at h
      · cases h
        exact .leave ‹_›
      · cases h

/-- The invariant: the lock belongs to the thread inside, what that has read is what it would
read at once, and the other parts of `Linearized`. -/
structure Settled (criticalSection : κ → CriticalSection σ ν) (data₀ : σ)
    (s : Monitor ι κ σ ν) : Prop where
  owned : ∀ i, (s.phase i).holds = true → s.owner = some i
  reading : ∀ i call reads v, s.phase i = .inside call reads v →
    (readAll s.data reads v).bind ((criticalSection call).commit s.data) =
      (criticalSection call).atomically s.data
  replays : Replays criticalSection data₀ (committed s.history) s.data
  turns : ∀ i, InTurn (seenOf i s.history) (s.phase i).stage

variable {i j : ι} {phase : CallPhase κ σ ν} {e : CallEvent κ ν}

theorem phase_move (s : Monitor ι κ σ ν) (i j : ι) (phase : CallPhase κ σ ν) :
    (s.move i phase).phase j = if j = i then phase else s.phase j :=
  Function.update_apply _ _ _ _

theorem seenOf_append (j i : ι) (history : List (ι × CallEvent κ ν)) (e : CallEvent κ ν) :
    seenOf j (history ++ [(i, e)]) = seenOf j history ++ if j = i then [e] else [] := by
  rw [seenOf, List.filter_append, List.map_append, ← seenOf]
  by_cases hj : j = i
  · simp [hj]
  · simp [hj, Ne.symm hj]

theorem phase_of_ne {other : CallPhase κ σ ν} (hj : (s.move i phase).phase j = other)
    (hne : phase ≠ other) : j ≠ i ∧ s.phase j = other := by
  rw [phase_move] at hj
  split at hj
  · exact absurd hj hne
  · exact ⟨‹_›, hj⟩

/-- A thread that goes on unseen is as far as before. -/
theorem Settled.turns_move (h : s.Settled criticalSection data₀)
    (hstage : phase.stage = (s.phase i).stage) (j : ι) :
    InTurn (seenOf j s.history) ((s.move i phase).phase j).stage := by
  rw [phase_move]
  split
  · rename_i hj
    rw [hstage, ← hj]
    exact h.turns j
  · exact h.turns j

/-- A thread that is seen takes its turn. -/
theorem Settled.turns_see (h : s.Settled criticalSection data₀)
    (hturn : CallTurn (s.phase i).stage e phase.stage) (j : ι) :
    InTurn (seenOf j (s.see i phase e).history) ((s.see i phase e).phase j).stage := by
  have hphase : (s.see i phase e).phase j = if j = i then phase else s.phase j := phase_move s i j _
  have hhistory : (s.see i phase e).history = s.history ++ [(i, e)] := rfl
  rw [hphase, hhistory, seenOf_append]
  by_cases hj : j = i
  · subst hj
    rw [if_pos rfl, if_pos rfl]
    exact .more (h.turns j) hturn
  · rw [if_neg hj, if_neg hj, List.append_nil]
    exact h.turns j

/-- Who is inside owns the lock, so nobody else is. -/
theorem Settled.eq_of_holds (h : s.Settled criticalSection data₀)
    (hi : (s.phase i).holds = true) (hj : (s.phase j).holds = true) : i = j :=
  Option.some.inj ((h.owned i hi).symm.trans (h.owned j hj))

theorem Settled.owned_move (h : s.Settled criticalSection data₀)
    (hholds : phase.holds = true → (s.phase i).holds = true) (j : ι)
    (hj : ((s.move i phase).phase j).holds = true) : s.owner = some j := by
  rw [phase_move] at hj
  split at hj
  · rename_i heq
    rw [heq]
    exact h.owned i (hholds hj)
  · exact h.owned j hj

/-- Where the data stay, only the thread that goes on may read something else. -/
theorem Settled.reading_move (h : s.Settled criticalSection data₀)
    (hreading : ∀ call reads v, phase = .inside call reads v →
      (readAll s.data reads v).bind ((criticalSection call).commit s.data) =
        (criticalSection call).atomically s.data) (j : ι) (call : κ)
    (reads : List (σ → ν → Option ν)) (v : ν)
    (hj : (s.move i phase).phase j = .inside call reads v) :
    (readAll s.data reads v).bind ((criticalSection call).commit s.data) =
      (criticalSection call).atomically s.data := by
  rw [phase_move] at hj
  split at hj
  · exact hreading call reads v hj
  · exact h.reading j call reads v hj

theorem settled_start : (start data₀ : Monitor ι κ σ ν).Settled criticalSection data₀ where
  owned := nofun
  reading := nofun
  replays := .nothing
  turns _ := .nothing

theorem Settled.step (h : s.Settled criticalSection data₀) (hmove : Move criticalSection s s') :
    s'.Settled criticalSection data₀ := by
  cases hmove with
  | @call i call hphase =>
      refine ⟨h.owned_move nofun, h.reading_move nofun, ?_, h.turns_see ?_⟩
      · have hsame : committed (s.see i (.called call) (.called call)).history =
            committed s.history := committed_append_of_ne _ _ nofun
        rw [hsame]
        exact h.replays
      · rw [hphase]
        exact .called call
  | @acquire i call hphase hfree =>
      refine ⟨?_, h.reading_move ?_, h.replays, h.turns_move (by rw [hphase]; rfl)⟩
      · intro j hj
        by_cases heq : j = i
        · rw [heq]
        · have hphase' : (s.move i (.inside call (criticalSection call).reads
              (criticalSection call).initial)).phase j = s.phase j :=
            (phase_move s i j _).trans (if_neg heq)
          have howner := h.owned j (by rw [← hphase']; exact hj)
          rw [hfree] at howner
          cases howner
      · intro call' reads v heq
        cases heq
        rfl
  | @read i call read reads v v' hphase hread =>
      refine ⟨h.owned_move fun _ => by rw [hphase]; rfl, h.reading_move ?_, h.replays,
        h.turns_move (by rw [hphase]; rfl)⟩
      intro call' reads' v'' heq
      cases heq
      rw [← h.reading i call (read :: reads) v hphase, readAll, hread]
      rfl
  | @commit i call v answer data hphase hcommit =>
      have hholds : (s.phase i).holds = true := by rw [hphase]; rfl
      refine ⟨h.owned_move fun _ => hholds, ?_, ?_,
        h.turns_see (by rw [hphase]; exact .committed _ _)⟩
      · -- Nobody else is inside who might have read the old data.
        intro j call' reads v' hj
        obtain ⟨hne, hj'⟩ := phase_of_ne hj nofun
        exact absurd (h.eq_of_holds (by rw [hj']; rfl) hholds) hne
      · have hatomic := h.reading i call [] v hphase
        have hsame : committed (s.see i (.committed call answer) (.committed call answer)).history =
            committed s.history ++ [(call, answer)] := committed_append _ _ _ _
        rw [hsame]
        exact .more h.replays (hatomic.symm.trans hcommit)
  | @release i call answer hphase =>
      refine ⟨?_, h.reading_move nofun, h.replays, h.turns_move (by rw [hphase]; rfl)⟩
      intro j hj
      have hother :
          CallPhase.released call answer ≠ (s.move i (.released call answer)).phase j := by
        intro heq
        rw [← heq] at hj
        cases hj
      obtain ⟨hne, hj'⟩ := phase_of_ne rfl hother
      exact absurd (h.eq_of_holds (by rw [hj']; exact hj) (by rw [hphase]; rfl)) hne
  | @leave i call answer hphase =>
      refine ⟨h.owned_move nofun, h.reading_move nofun, ?_, h.turns_see ?_⟩
      · have hsame : committed (s.see i .idle (.returned call answer)).history =
            committed s.history := committed_append_of_ne _ _ nofun
        rw [hsame]
        exact h.replays
      · rw [hphase]
        exact .returned call answer

/-- In every run the calls have taken effect at once. -/
theorem linearizes_of_reaches
    (hrun : Reaches (Monitor.step criticalSection) (start data₀) s) :
    s.Linearized criticalSection data₀ := by
  have hsettled : s.Settled criticalSection data₀ :=
    hrun.invariant settled_start fun _ _ _ h _ hstep => h.step (move_of_step hstep)
  exact ⟨hsettled.replays, fun i => ⟨_, hsettled.turns i⟩⟩

end Monitor

end ControlEngine
