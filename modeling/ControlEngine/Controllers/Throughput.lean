import ControlEngine.Controllers.SelfLogging
import ControlEngine.Support.Transition

/-!
# Throughput batches

The logger counts the records it handles in a batch, one counter for each severity, and
replaces the batch when it is older than a minute.  Before it does so it logs what the
batch has counted.  These records go to the queue that the logger empties, so a batch is
reported in records that the next one counts.

Other threads log at any time.  The thread of the logger is therefore taken apart into
steps, with a step for each record that it pushes itself.  A push to the log queue and a test
with its pop are one step each.  The code does not see to that: `LogQueue` locks different
mutexes for them, so they can overlap, which `Static/LogQueue` is about.
-/

namespace ControlEngine

/-- `getTotalCount`. -/
def LogThroughput.getTotalCount (batchEntry : LogThroughput) : BitVec 32 :=
  batchEntry.count .System + batchEntry.count .Info + batchEntry.count .Debug +
    batchEntry.count .Warning + batchEntry.count .Error

/-- `size`, where an `int` has four bytes. -/
def LogThroughput.size (batchEntry : LogThroughput) : BitVec 32 :=
  batchEntry.memSize .Info + batchEntry.memSize .System + batchEntry.memSize .Debug +
    batchEntry.memSize .Warning + batchEntry.memSize .Error + 4 + 4 + 4 + 4 + 4

/-- An `int` in a `stringbuilder`. -/
def intText (n : BitVec 32) : List Byte := textBytes (toString n.toInt)

namespace LoggingController

/-- `INFO` with the tag and the description of the controller. -/
def INFO (value : List Byte) : Holder where
  className := textBytes "LoggingController"
  value := value
  severity := .Info
  desc := []

/-- `ERROR` with the tag and the description of the controller. -/
def ERROR (value : List Byte) : Holder where
  className := textBytes "LoggingController"
  value := value
  severity := .Error
  desc := []

/-- The records of `cutBatchEntry`.  The quotient of the size and the elapsed time is a
`float`, and `rateText` is its text. -/
def cutBatchEntry (rateText : BitVec 32 → List Byte) (batchEntry : LogThroughput) :
    List Holder :=
  [INFO (textBytes "Total Log Count: " ++ intText batchEntry.getTotalCount),
    INFO (textBytes "Sys Log Count: " ++ intText (batchEntry.count .System)),
    INFO (textBytes "Info Log Count: " ++ intText (batchEntry.count .Info)),
    INFO (textBytes "Debug Log Count: " ++ intText (batchEntry.count .Debug)),
    INFO (textBytes "Warning Log Count: " ++ intText (batchEntry.count .Warning)),
    INFO (textBytes "Error Log Count: " ++ intText (batchEntry.count .Error)),
    INFO (textBytes "Log Throughput: ~" ++ rateText batchEntry.size ++
      textBytes " Bytes / Second"),
    INFO (textBytes "Log Mem Size: " ++ intText batchEntry.size ++ textBytes " Bytes")]

/-- What a handler has done when its network log throws. -/
def interrupted (c : LoggingController) (severity : Severity) (record : List Byte)
    (s : LoggingState) : LoggingState :=
  let s := s.pushLog severity record
  if c.screen.on severity then s.screenLog severity.stream record else s

end LoggingController

/-- What the `catch` of `startThread` logs. -/
def Thrown.caught : Thrown → List Holder
  | .exception what => [LoggingController.ERROR (textBytes what)]
  | .literal _ => []

/-- How `startThread` is left when this was thrown. -/
def Thrown.leave : Thrown → Except Thrown ℤ
  | .exception _ => .ok 1
  | .literal text => .error (.literal text)

/-- `elapsedTime`, in the nanoseconds of the clock. -/
def batchInterval : ℤ := 60 * 10 ^ 9

/-! ## The thread of the logger -/

/-- Where the thread stands: at the test of the queue, at the clock, in `cutBatchEntry`
for a batch closed at some time, or out of `startThread`. -/
inductive LoggerPhase
  | test
  | clock
  | cut (finishTime : ℤ)
  | left (result : Except Thrown ℤ)

/-- A batch that was replaced, with the records handled while it was the current one. -/
structure ClosedBatch where
  batchEntry : LogThroughput
  startTime : ℤ
  finishTime : ℤ
  handled : List Popped

/-- The thread of the logger with its queue, on which a push and a pop are taken as atomic
although they hold different locks.  `pending` are the records that it is about to push
itself.  The rest is its history: all records it has popped, the batches it has closed, and
the records handled since the last of them was. -/
structure LoggerThread where
  mQueue : List Holder
  written : LoggingState
  startTime : ℤ
  phase : LoggerPhase
  pending : List Holder
  popped : List Popped
  closed : List ClosedBatch
  handled : List Popped

/-- The steps of the thread, and those of the others that log. -/
inductive LoggerAct
  | push (holder : Holder)
  | log
  | pop (texts : ClockTexts)
  | readClock (finish : ℤ)
  | replace (start : ℤ)

namespace LoggerThread

/-- The thread when its first batch is made. -/
def start (mQueue : List Holder) (written : LoggingState) (now : ℤ) : LoggerThread where
  mQueue := mQueue
  written := { written with batchEntry := LogThroughput.new }
  startTime := now
  phase := .test
  pending := []
  popped := []
  closed := []
  handled := []

/-- Handle a record that was popped. -/
def handle (alloc : Allocator) (c : LoggingController) (s : LoggerThread) (r : Popped) :
    LoggerThread :=
  let s := { s with popped := s.popped ++ [r], handled := s.handled ++ [r] }
  match c.funcDict alloc r.holder.severity r.record s.written with
  | .error thrown =>
      { s with
        written := c.interrupted r.holder.severity r.record s.written
        phase := .left thrown.leave
        pending := c.notices alloc r ++ thrown.caught }
  | .ok written => { s with written, phase := .clock, pending := c.notices alloc r }

/-- The new batch. -/
def renew (s : LoggerThread) (finish start : ℤ) : LoggerThread :=
  let batch : ClosedBatch :=
    { batchEntry := s.written.batchEntry, startTime := s.startTime, finishTime := finish,
      handled := s.handled }
  { s with
    written := { s.written with batchEntry := LogThroughput.new }
    startTime := start
    phase := .test
    closed := s.closed ++ [batch]
    handled := [] }

/-- One step. -/
def step (alloc : Allocator) (rateText : BitVec 32 → List Byte) (c : LoggingController)
    (s : LoggerThread) : LoggerAct → Option LoggerThread
  | .push holder => some { s with mQueue := s.mQueue ++ [holder] }
  | .log =>
      match s.pending with
      | [] => none
      | holder :: pending => some { s with mQueue := s.mQueue ++ [holder], pending }
  | .pop texts =>
      match s.phase, s.pending, s.mQueue with
      | .test, [], [] => some { s with phase := .clock }
      | .test, [], holder :: mQueue =>
          some (handle alloc c { s with mQueue } (texts.popped holder))
      | _, _, _ => none
  | .readClock finish =>
      match s.phase, s.pending with
      | .clock, [] =>
          if finish - s.startTime > batchInterval then
            some { s with
              phase := .cut finish
              pending := LoggingController.cutBatchEntry rateText s.written.batchEntry }
          else some { s with phase := .test }
      | _, _ => none
  | .replace start =>
      match s.phase, s.pending with
      | .cut finish, [] => some (s.renew finish start)
      | _, _ => none

end LoggerThread

/-! ## What a step can do -/

variable {alloc : Allocator} {rateText : BitVec 32 → List Byte} {c : LoggingController}

namespace LoggerThread

variable {s t : LoggerThread} {act : LoggerAct}

/-- A step changes the queue only, handles a record, or is a step between phases. -/
theorem step_cases (h : s.step alloc rateText c act = some t) :
    (∃ mQueue pending, t = { s with mQueue, pending }) ∨
      (s.phase = .test ∧ t = { s with phase := .clock }) ∨
      (∃ r mQueue, s.phase = .test ∧ t = handle alloc c { s with mQueue } r) ∨
      (s.phase = .clock ∧ t = { s with phase := .test }) ∨
      (∃ finish pending, s.phase = .clock ∧ t = { s with phase := .cut finish, pending }) ∨
      ∃ finish start, s.phase = .cut finish ∧ t = s.renew finish start := by
  cases act with
  | push holder =>
      cases h
      exact .inl ⟨_, _, rfl⟩
  | log =>
      simp only [step] at h
      split at h
      · cases h
      · cases h
        exact .inl ⟨_, _, rfl⟩
  | pop texts =>
      simp only [step] at h
      split at h
      · rename_i hphase hpending hqueue
        cases h
        exact .inr (.inl ⟨hphase, rfl⟩)
      · rename_i hphase hpending hqueue
        cases h
        exact .inr (.inr (.inl ⟨_, _, hphase, rfl⟩))
      · cases h
  | readClock finish =>
      simp only [step] at h
      split at h
      · rename_i hphase hpending
        split at h
        · cases h
          exact .inr (.inr (.inr (.inr (.inl ⟨_, _, hphase, rfl⟩))))
        · cases h
          exact .inr (.inr (.inr (.inl ⟨hphase, rfl⟩)))
      · cases h
  | replace start =>
      simp only [step] at h
      split at h
      · rename_i hphase hpending
        cases h
        exact .inr (.inr (.inr (.inr (.inr ⟨_, _, hphase, rfl⟩))))
      · cases h

end LoggerThread

/-! ## The account of a batch -/

/-- The number of records with a severity. -/
def countWith (severity : Severity) (records : List Popped) : ℕ :=
  records.countP fun r => r.holder.severity = severity

theorem countWith_append (severity : Severity) (records later : List Popped) :
    countWith severity (records ++ later) = countWith severity records +
      countWith severity later :=
  List.countP_append

/-- Every record has one of the five severities. -/
theorem length_eq_countWith (records : List Popped) :
    countWith .System records + countWith .Info records + countWith .Debug records +
      countWith .Warning records + countWith .Error records = records.length := by
  induction records with
  | nil => rfl
  | cons r records ih =>
      have hcons : ∀ severity, countWith severity (r :: records) =
          countWith severity records + if r.holder.severity = severity then 1 else 0 := by
        intro severity
        simp only [countWith, List.countP_cons, decide_eq_true_eq]
      rw [hcons, hcons, hcons, hcons, hcons, List.length_cons, ← ih]
      cases r.holder.severity <;> simp only [if_true, reduceCtorEq, if_false] <;> omega

/-- The counters of a batch are those of these records, as far as an `int` goes. -/
def LogThroughput.Counts (batchEntry : LogThroughput) (records : List Popped) : Prop :=
  ∀ severity, batchEntry.count severity = BitVec.ofNat 32 (countWith severity records)

namespace LogThroughput

variable {batchEntry : LogThroughput} {records : List Popped}

theorem counts_new : new.Counts [] := fun _ => rfl

theorem Counts.push (h : batchEntry.Counts records) (r : Popped) (record : List Byte) :
    (batchEntry.push r.holder.severity record).Counts (records ++ [r]) := by
  intro severity
  rw [countWith_append]
  by_cases hsame : severity = r.holder.severity
  · subst hsame
    have hone : countWith r.holder.severity [r] = 1 := by simp [countWith]
    rw [hone, BitVec.ofNat_add, ← h r.holder.severity]
    exact Function.update_self _ _ _
  · have hnone : countWith severity [r] = 0 := by
      simp [countWith, Ne.symm hsame]
    rw [hnone, Nat.add_zero, ← h severity]
    exact Function.update_of_ne hsame _ _

theorem Counts.getTotalCount (h : batchEntry.Counts records) :
    batchEntry.getTotalCount = BitVec.ofNat 32 records.length := by
  rw [LogThroughput.getTotalCount, h, h, h, h, h, ← length_eq_countWith records,
    BitVec.ofNat_add, BitVec.ofNat_add, BitVec.ofNat_add, BitVec.ofNat_add]

end LogThroughput

theorem toInt_ofNat_of_lt {n : ℕ} (h : n < 2 ^ 31) : (BitVec.ofNat 32 n).toInt = n := by
  have htoNat : (BitVec.ofNat 32 n).toNat = n := by
    rw [BitVec.toNat_ofNat]
    exact Nat.mod_eq_of_lt (by omega)
  rw [BitVec.toInt_eq_toNat_of_lt (by omega), htoNat]

namespace LoggingController

variable {severity : Severity} {record : List Byte} {written written' : LoggingState}

theorem batchEntry_funcDict (h : c.funcDict alloc severity record written = .ok written') :
    written'.batchEntry = written.batchEntry.push severity record := by
  rw [funcDict_eq_deliver, deliver] at h
  have hscreen : ∀ (s : LoggingState) (flag : Bool) (stream : ScreenStream),
      (if flag then s.screenLog stream record else s).batchEntry = s.batchEntry := by
    intro s flag stream
    cases flag <;> rfl
  have hfile : ∀ (s : LoggingState) (flag : Bool),
      (if flag then s.fileLog record else s).batchEntry = s.batchEntry := by
    intro s flag
    cases flag <;> rfl
  have hnetwork : ∀ (s s' : LoggingState) (flag : Bool),
      (if flag then s.networkLog alloc record else .ok s) = .ok s' →
      s'.batchEntry = s.batchEntry := by
    intro s s' flag hs'
    cases flag with
    | false => rw [← Except.ok.inj hs']
    | true =>
        simp only [if_true, LoggingState.networkLog] at hs'
        split at hs'
        · cases hs'
        · rw [← Except.ok.inj hs']
  split at h
  · cases h
  · rename_i sent hsent
    rw [← Except.ok.inj h, hfile, hnetwork _ _ _ hsent, hscreen]
    rfl

/-- A handler that throws has counted the record before. -/
theorem batchEntry_interrupted (c : LoggingController) (severity : Severity)
    (record : List Byte) (written : LoggingState) :
    (c.interrupted severity record written).batchEntry =
      written.batchEntry.push severity record := by
  simp only [interrupted]
  split <;> rfl

end LoggingController

/-! ## The account of a run -/

namespace LoggerThread

variable {s s₀ t : LoggerThread} {act : LoggerAct}

/-- Every record popped was handled in one batch, and every batch has counted the records
handled in it. -/
structure Accounted (s : LoggerThread) : Prop where
  popped : s.popped = s.closed.flatMap ClosedBatch.handled ++ s.handled
  current : s.written.batchEntry.Counts s.handled
  closed : ∀ batch ∈ s.closed, batch.batchEntry.Counts batch.handled

theorem accounted_start (mQueue : List Holder) (written : LoggingState) (now : ℤ) :
    (start mQueue written now).Accounted where
  popped := rfl
  current := LogThroughput.counts_new
  closed _ hbatch := by cases hbatch

theorem Accounted.handle (h : s.Accounted) (mQueue : List Holder) (r : Popped) :
    (LoggerThread.handle alloc c { s with mQueue } r).Accounted := by
  have hpopped : s.popped ++ [r] = s.closed.flatMap ClosedBatch.handled ++
      (s.handled ++ [r]) := by
    rw [h.popped, List.append_assoc]
  have hcounts := h.current.push r r.record
  simp only [LoggerThread.handle]
  split
  · refine ⟨hpopped, ?_, h.closed⟩
    rw [LoggingController.batchEntry_interrupted]
    exact hcounts
  · rename_i written hwritten
    refine ⟨hpopped, ?_, h.closed⟩
    rw [LoggingController.batchEntry_funcDict hwritten]
    exact hcounts

theorem Accounted.renew (h : s.Accounted) (finish start : ℤ) :
    (s.renew finish start).Accounted where
  popped := by
    simp only [LoggerThread.renew, List.flatMap_append, List.flatMap_singleton,
      List.append_nil]
    exact h.popped
  current := LogThroughput.counts_new
  closed batch hbatch := by
    rcases List.mem_append.mp hbatch with hearlier | hlast
    · exact h.closed batch hearlier
    · rw [List.mem_singleton.mp hlast]
      exact h.current

theorem Accounted.step (h : s.Accounted) (hstep : s.step alloc rateText c act = some t) :
    t.Accounted := by
  rcases step_cases hstep with ⟨mQueue, pending, rfl⟩ | ⟨-, rfl⟩ | ⟨r, mQueue, -, rfl⟩ |
    ⟨-, rfl⟩ | ⟨finish, pending, -, rfl⟩ | ⟨finish, start, -, rfl⟩
  · exact ⟨h.popped, h.current, h.closed⟩
  · exact ⟨h.popped, h.current, h.closed⟩
  · exact h.handle mQueue r
  · exact ⟨h.popped, h.current, h.closed⟩
  · exact ⟨h.popped, h.current, h.closed⟩
  · exact h.renew finish start

theorem accounted_of_reaches (hstart : s₀.Accounted)
    (hrun : Reaches (LoggerThread.step alloc rateText c) s₀ s) : s.Accounted :=
  hrun.invariant hstart fun _ _ _ h _ hstep => h.step hstep

/-- For each severity, as many records were popped with it as its counters in the closed
batches and in the current one say, if none of these counters overflows. -/
theorem Accounted.countWith_popped (h : s.Accounted) {severity : Severity}
    (hclosed : ∀ batch ∈ s.closed, countWith severity batch.handled < 2 ^ 31)
    (hcurrent : countWith severity s.handled < 2 ^ 31) :
    (countWith severity s.popped : ℤ) =
      (s.closed.map fun batch => (batch.batchEntry.count severity).toInt).sum +
        (s.written.batchEntry.count severity).toInt := by
  have hsum : ∀ batches : List ClosedBatch, (∀ batch ∈ batches, batch ∈ s.closed) →
      (countWith severity (batches.flatMap ClosedBatch.handled) : ℤ) =
        (batches.map fun batch => (batch.batchEntry.count severity).toInt).sum := by
    intro batches hbatches
    induction batches with
    | nil => rfl
    | cons batch batches ih =>
        have hbatch := hbatches batch List.mem_cons_self
        rw [List.flatMap_cons, countWith_append, List.map_cons, List.sum_cons,
          ← ih fun b hb => hbatches b (List.mem_cons_of_mem _ hb),
          h.closed batch hbatch severity, toInt_ofNat_of_lt (hclosed batch hbatch)]
        push_cast
        rfl
  rw [h.popped, countWith_append, h.current severity, toInt_ofNat_of_lt hcurrent,
    ← hsum s.closed fun _ hbatch => hbatch]
  push_cast
  rfl

/-- The throughput batches of a run conserve its records. -/
theorem conserves_records (alloc : Allocator) (rateText : BitVec 32 → List Byte)
    (c : LoggingController) (mQueue : List Holder) (written : LoggingState) (now : ℤ)
    (hrun : Reaches (LoggerThread.step alloc rateText c) (start mQueue written now) s) :
    s.popped = s.closed.flatMap ClosedBatch.handled ++ s.handled ∧
      (∀ severity,
        (∀ batch ∈ s.closed, countWith severity batch.handled < 2 ^ 31) →
        countWith severity s.handled < 2 ^ 31 →
        (countWith severity s.popped : ℤ) =
          (s.closed.map fun batch => (batch.batchEntry.count severity).toInt).sum +
            (s.written.batchEntry.count severity).toInt) ∧
      ∀ batch ∈ s.closed,
        batch.batchEntry.getTotalCount = BitVec.ofNat 32 batch.handled.length ∧
          (batch.handled.length < 2 ^ 31 →
            batch.batchEntry.getTotalCount.toInt = batch.handled.length) := by
  have h := accounted_of_reaches (accounted_start mQueue written now) hrun
  refine ⟨h.popped, fun severity => h.countWith_popped, ?_⟩
  intro batch hbatch
  have htotal := (h.closed batch hbatch).getTotalCount
  refine ⟨htotal, ?_⟩
  intro hlength
  rw [htotal, toInt_ofNat_of_lt hlength]

/-- A record that fills the batch with a hundred bytes. -/
def someInfo : Holder where
  className := []
  value := List.replicate 24 46
  severity := .Info
  desc := []

/-- The texts of some clock. -/
def someTexts : ClockTexts where
  date := textBytes "01-01-2024"
  time := textBytes "00:00:00"

/-- The text of a quotient that is a whole number. -/
def wholeRate (size : BitVec 32) : List Byte := textBytes (toString (size.toNat / 60))

/-- A record is handled, its batch is cut a minute later, and the first record that this
logs is handled too. -/
def cutActs : List LoggerAct :=
  [.pop someTexts, .readClock (61 * 10 ^ 9), .log, .log, .log, .log, .log, .log, .log, .log,
    .replace (61 * 10 ^ 9), .pop someTexts]

theorem conserves_records_cutActs :
    ∃ s, runActs (LoggerThread.step Allocator.zeroed wholeRate
        (LoggingController.ofToggles fun _ _ => false)) (fun _ _ => True)
        (start [someInfo] LoggingState.start 0) cutActs = some s ∧
      s.closed.length = 1 ∧ s.popped.length = 2 ∧
      (countWith .Info s.popped : ℤ) =
        (s.closed.map fun batch => (batch.batchEntry.count .Info).toInt).sum +
          (s.written.batchEntry.count .Info).toInt := by
  obtain ⟨s, hrun, hone, htwo, hclosed, hcurrent⟩ :
      ∃ s, runActs (LoggerThread.step Allocator.zeroed wholeRate
          (LoggingController.ofToggles fun _ _ => false)) (fun _ _ => True)
          (start [someInfo] LoggingState.start 0) cutActs = some s ∧
        s.closed.length = 1 ∧ s.popped.length = 2 ∧
        (∀ batch ∈ s.closed, countWith .Info batch.handled < 2 ^ 31) ∧
        countWith .Info s.handled < 2 ^ 31 := by
    refine ⟨_, rfl, rfl, rfl, ?_, by decide⟩
    intro batch hbatch
    rw [List.mem_singleton.mp hbatch]
    decide
  have hconserved := conserves_records Allocator.zeroed wholeRate
    (LoggingController.ofToggles fun _ _ => false) [someInfo] LoggingState.start 0
    (guarded_of_runActs hrun)
  exact ⟨s, hrun, hone, htwo, hconserved.2.1 .Info hclosed hcurrent⟩

/-! ## The thread and its turns -/

end LoggerThread

theorem LoggingController.startThread_concat (written : LoggingState) (turns : List Turn)
    (last : Turn) :
    c.startThread alloc written (turns ++ [last]) =
      match c.startThread alloc written turns with
      | .error thrown => .error thrown
      | .ok written => c.turn alloc written last := by
  induction turns generalizing written with
  | nil =>
      simp only [List.nil_append, startThread]
      cases c.turn alloc written last <;> rfl
  | cons first turns ih =>
      simp only [List.cons_append, startThread]
      cases c.turn alloc written first with
      | error thrown => rfl
      | ok next => exact ih next

theorem LoggingController.turn_elapsed {written written' : LoggingState}
    {popped : Option Popped}
    (h : c.turn alloc written { popped, elapsed := false } = .ok written') :
    c.turn alloc written { popped, elapsed := true } =
      .ok { written' with batchEntry := LogThroughput.new } := by
  simp only [turn] at h ⊢
  split at h
  · cases h
  · rw [← Except.ok.inj h]
    rfl

theorem poppedIn_concat (turns : List Turn) (last : Turn) :
    poppedIn (turns ++ [last]) = poppedIn turns ++ last.popped.toList := by
  obtain ⟨popped, elapsed⟩ := last
  rw [poppedIn, List.filterMap_append]
  cases popped <;> rfl

namespace LoggerThread

variable {s s₀ t : LoggerThread} {act : LoggerAct}

/-- The thread has taken turns of the loop; unless it stands at the test, the last of them
is not over. -/
def Follows (alloc : Allocator) (c : LoggingController) (written : LoggingState)
    (s : LoggerThread) : Prop :=
  match s.phase with
  | .test => ∃ turns, c.startThread alloc written turns = .ok s.written ∧
      poppedIn turns = s.popped
  | .clock | .cut _ => ∃ turns last before, c.startThread alloc written turns = .ok before ∧
      c.turn alloc before { popped := last, elapsed := false } = .ok s.written ∧
      poppedIn turns ++ last.toList = s.popped
  | .left result => ∃ turns thrown, c.startThread alloc written turns = .error thrown ∧
      poppedIn turns = s.popped ∧ result = thrown.leave

theorem Follows.handle {written : LoggingState} (h : s.Follows alloc c written)
    (hphase : s.phase = .test) (mQueue : List Holder) (r : Popped) :
    (LoggerThread.handle alloc c { s with mQueue } r).Follows alloc c written := by
  rw [Follows, hphase] at h
  obtain ⟨turns, hturns, hpopped⟩ := h
  simp only [LoggerThread.handle]
  split
  · rename_i thrown hthrown
    refine ⟨turns ++ [{ popped := some r, elapsed := false }], thrown, ?_, ?_, rfl⟩
    · rw [LoggingController.startThread_concat, hturns]
      simp only [LoggingController.turn, Option.elim_some, hthrown]
    · rw [poppedIn_concat, hpopped]
      rfl
  · rename_i handled hhandled
    refine ⟨turns, some r, s.written, hturns, ?_, ?_⟩
    · simp only [LoggingController.turn, Option.elim_some, hhandled]
      rfl
    · rw [hpopped]
      rfl

theorem exists_turns_of_last {written before after : LoggingState} {turns : List Turn}
    {last : Turn} {popped : List Popped}
    (hturns : c.startThread alloc written turns = .ok before)
    (hlast : c.turn alloc before last = .ok after)
    (hpopped : poppedIn turns ++ last.popped.toList = popped) :
    ∃ turns, c.startThread alloc written turns = .ok after ∧ poppedIn turns = popped := by
  refine ⟨turns ++ [last], ?_, ?_⟩
  · rw [LoggingController.startThread_concat, hturns]
    exact hlast
  · rw [poppedIn_concat, hpopped]

theorem Follows.step {written : LoggingState} (h : s.Follows alloc c written)
    (hstep : s.step alloc rateText c act = some t) : t.Follows alloc c written := by
  rcases step_cases hstep with ⟨mQueue, pending, rfl⟩ | ⟨hphase, rfl⟩ |
    ⟨r, mQueue, hphase, rfl⟩ | ⟨hphase, rfl⟩ | ⟨finish, pending, hphase, rfl⟩ |
    ⟨finish, start, hphase, rfl⟩
  · exact h
  · rw [Follows, hphase] at h
    obtain ⟨turns, hturns, hpopped⟩ := h
    refine ⟨turns, none, s.written, hturns, rfl, ?_⟩
    rw [hpopped]
    exact List.append_nil _
  · exact h.handle hphase mQueue r
  · rw [Follows, hphase] at h
    obtain ⟨turns, last, before, hturns, hlast, hpopped⟩ := h
    exact exists_turns_of_last hturns hlast hpopped
  · rw [Follows, hphase] at h
    exact h
  · rw [Follows, hphase] at h
    obtain ⟨turns, last, before, hturns, hlast, hpopped⟩ := h
    have hcut := LoggingController.turn_elapsed hlast
    exact exists_turns_of_last hturns hcut hpopped

/-- Whatever the others log meanwhile, the thread does what `startThread` does in turns in
which the same records are popped. -/
theorem follows_of_reaches {mQueue : List Holder} {written : LoggingState} {now : ℤ}
    (hrun : Reaches (LoggerThread.step alloc rateText c) (start mQueue written now) s) :
    s.Follows alloc c { written with batchEntry := LogThroughput.new } :=
  hrun.invariant ⟨[], rfl, rfl⟩ fun _ _ _ h _ hstep => h.step hstep

/-- At the test, with nothing left to log, the thread is where the loop by itself is. -/
structure AtTest (s : LoggerThread) (loop : LoggerLoop) : Prop where
  phase : s.phase = .test
  pending : s.pending = []
  mQueue : s.mQueue = loop.mQueue
  written : s.written = loop.written

theorem reaches_log (alloc : Allocator) (rateText : BitVec 32 → List Byte)
    (c : LoggingController) (s : LoggerThread) :
    Reaches (LoggerThread.step alloc rateText c) s
      { s with mQueue := s.mQueue ++ s.pending, pending := [] } := by
  obtain ⟨mQueue, written, startTime, phase, pending, popped, closed, handled⟩ := s
  induction pending generalizing mQueue with
  | nil =>
      simp only [List.append_nil]
      exact Guarded.refl _
  | cons holder pending ih =>
      have hfirst : LoggerThread.step alloc rateText c
          ⟨mQueue, written, startTime, phase, holder :: pending, popped, closed, handled⟩ .log =
          some ⟨mQueue ++ [holder], written, startTime, phase, pending, popped, closed,
            handled⟩ := rfl
      have hrest := ih (mQueue ++ [holder])
      rw [List.append_assoc] at hrest
      exact Relation.ReflTransGen.head ⟨_, trivial, hfirst⟩ hrest

/-- Past the test the thread can log what is pending and go back to the test, if the clock
stands. -/
theorem reaches_test {texts : ClockTexts}
    (hpop : s.step alloc rateText c (.pop texts) = some t) (hclock : t.phase = .clock) :
    ∃ next, Reaches (LoggerThread.step alloc rateText c) s next ∧
      next.AtTest ⟨t.mQueue ++ t.pending, t.written⟩ := by
  have hread : LoggerThread.step alloc rateText c
      { t with mQueue := t.mQueue ++ t.pending, pending := [] } (.readClock t.startTime) =
      some { t with mQueue := t.mQueue ++ t.pending, pending := [], phase := .test } := by
    simp only [LoggerThread.step, hclock, sub_self, batchInterval]
    rfl
  have hrun := (reaches_log alloc rateText c t).tail trivial hread
  exact ⟨_, Relation.ReflTransGen.head ⟨_, trivial, hpop⟩ hrun, rfl, rfl, rfl, rfl⟩

/-- While nobody else logs and the clock stands, the thread takes the turns of the loop by
itself. -/
theorem reaches_turn {loop next : LoggerLoop} {texts : ClockTexts} (h : s.AtTest loop)
    (hturn : loop.turn alloc c texts = .ok next) :
    ∃ t, Reaches (LoggerThread.step alloc rateText c) s t ∧ t.AtTest next := by
  obtain ⟨mQueue, written⟩ := loop
  rw [LoggerLoop.turn] at hturn
  split at hturn
  · cases hturn
  · rename_i written' hwritten
    rw [← Except.ok.inj hturn]
    cases mQueue with
    | nil =>
        have hpop : s.step alloc rateText c (.pop texts) = some { s with phase := .clock } := by
          simp only [LoggerThread.step, h.phase, h.pending, h.mQueue]
        obtain ⟨t, hrun, htest⟩ := reaches_test hpop rfl
        rw [← Except.ok.inj hwritten]
        simp only [h.mQueue, h.pending, h.written] at htest
        exact ⟨t, hrun, htest⟩
    | cons holder mQueue =>
        have hhandled : c.funcDict alloc holder.severity (texts.popped holder).record s.written =
            .ok written' := by
          rw [h.written]
          simp only [LoggingController.turn, List.head?_cons, Option.map_some,
            Option.elim_some] at hwritten
          split at hwritten
          · cases hwritten
          · rename_i done hdone
            rw [← Except.ok.inj hwritten]
            exact hdone
        have hpop : s.step alloc rateText c (.pop texts) =
            some { s with
              mQueue
              popped := s.popped ++ [texts.popped holder]
              handled := s.handled ++ [texts.popped holder]
              written := written'
              phase := .clock
              pending := c.notices alloc (texts.popped holder) } := by
          have hsame : (texts.popped holder).holder.severity = holder.severity := rfl
          simp only [LoggerThread.step, h.phase, h.pending, h.mQueue, handle, hsame, hhandled]
        exact reaches_test hpop rfl

end LoggerThread
end ControlEngine
