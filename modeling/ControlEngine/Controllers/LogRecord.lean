import ControlEngine.Controllers.Throughput
import ControlEngine.Support.Columns

/-!
# Reading the log back

`buildLogRecord` writes a record as a line of columns: the date, the time, the severity and
the name of the class, padded to their widths, and behind them the value.  The description
has a column of its own only if it is not empty, and no class has one.  A line can be read
back if the texts of the clock have the length that `strftime` gives them, the name fits its
column, and nothing contains a line break.

The records that the logger pushes itself are of this kind.  So the log file, however the
other threads interleave with the logger, holds exactly the records that were handled to their
end with a severity that is on for it, each with all its fields.  What is on for the file is
what the handlers test, and that of warnings tests a flag of the network.
-/

namespace ControlEngine

/-! ## The texts of the clock -/

/-- `std::tm`, as far as the formats use it. -/
structure Tm where
  tm_mday : ℕ
  tm_mon : ℕ
  tm_year : ℕ
  tm_hour : ℕ
  tm_min : ℕ
  tm_sec : ℕ
deriving DecidableEq, Repr

/-- `%d`, `%m`, `%H`, `%M` and `%S`, for numbers below a hundred. -/
def twoDigits (n : ℕ) : List Byte := [UInt8.ofNat (48 + n / 10), UInt8.ofNat (48 + n % 10)]

/-- `strftime` writes a text to a buffer if there is room for it and for the zero behind it;
otherwise the buffer holds anything. -/
def strftime (size : ℕ) (text : List Byte) : Option (List Byte) :=
  if text.length < size then some text else none

/-- `grabDate`, with the format `%d-%m-%Y`. -/
def grabDate (timeinfo : Tm) : Option (List Byte) :=
  strftime 11 (twoDigits timeinfo.tm_mday ++ textBytes "-" ++ twoDigits (timeinfo.tm_mon + 1) ++
    textBytes "-" ++ textBytes (toString (timeinfo.tm_year + 1900)))

/-- `grabTime`, with the format `%H:%M:%S`. -/
def grabTime (timeinfo : Tm) : Option (List Byte) :=
  strftime 11 (twoDigits timeinfo.tm_hour ++ textBytes ":" ++ twoDigits timeinfo.tm_min ++
    textBytes ":" ++ twoDigits timeinfo.tm_sec)

/-- The line break. -/
def lineBreak : Byte := 10

/-- The texts of the clock have the lengths of their columns. -/
structure ClockTexts.Fit (texts : ClockTexts) : Prop where
  date : texts.date.length = 10
  time : texts.time.length = 8
  date_line : lineBreak ∉ texts.date
  time_line : lineBreak ∉ texts.time

instance (texts : ClockTexts) : Decidable texts.Fit :=
  decidable_of_iff (texts.date.length = 10 ∧ texts.time.length = 8 ∧
      lineBreak ∉ texts.date ∧ lineBreak ∉ texts.time)
    ⟨fun h => ⟨h.1, h.2.1, h.2.2.1, h.2.2.2⟩, fun h => ⟨h.date, h.time, h.date_line, h.time_line⟩⟩

theorem lineBreak_notMem_toString (n : ℕ) : lineBreak ∉ textBytes (toString n) := by
  intro hmem
  obtain ⟨c, hc, hbreak⟩ := List.mem_map.mp hmem
  have hdigit : c.isDigit = true := by
    rw [Nat.toString_eq_ofList_toDigits, String.toList_ofList] at hc
    exact Nat.isDigit_of_mem_toDigits (by decide) (by decide) hc
  have hrange : 48 ≤ c.toNat ∧ c.toNat ≤ 57 := by
    simp only [Char.isDigit, ge_iff_le, Bool.and_eq_true, decide_eq_true_eq,
      UInt32.le_iff_toNat_le] at hdigit
    exact hdigit
  have hvalue := congrArg UInt8.toNat hbreak
  rw [UInt8.toNat_ofNat', Nat.mod_eq_of_lt (by omega), lineBreak] at hvalue
  simp only [UInt8.reduceToNat] at hvalue
  omega

theorem lineBreak_notMem_twoDigits {n : ℕ} (h : n < 100) : lineBreak ∉ twoDigits n := by
  have hdigits : ∀ n < 100, lineBreak ∉ twoDigits n := by decide
  exact hdigits n h

/-- A broken-down time, as `localtime` returns it after the year 1900. -/
structure Tm.Valid (timeinfo : Tm) : Prop where
  mday : timeinfo.tm_mday ≤ 31
  mon : timeinfo.tm_mon ≤ 11
  hour : timeinfo.tm_hour ≤ 23
  min : timeinfo.tm_min ≤ 59
  sec : timeinfo.tm_sec ≤ 60

/-- The texts are those of two moments, and there was room for both. -/
def ClockTexts.Grabbed (texts : ClockTexts) : Prop :=
  ∃ day now : Tm, day.Valid ∧ now.Valid ∧ grabDate day = some texts.date ∧
    grabTime now = some texts.time

theorem lineBreak_notMem_append {s t : List Byte} (hs : lineBreak ∉ s) (ht : lineBreak ∉ t) :
    lineBreak ∉ s ++ t := by
  rw [List.mem_append, not_or]
  exact ⟨hs, ht⟩

/-- The text of a year from 1900 on that `grabDate` finds room for has four digits. -/
theorem length_yearText {year : ℕ} (hroom : 6 + (textBytes (toString (year + 1900))).length < 11) :
    (textBytes (toString (year + 1900))).length = 4 := by
  have hlength : ∀ k, 0 < k → ((textBytes (toString (year + 1900))).length ≤ k ↔
      year + 1900 < 10 ^ k) := by
    intro k hk
    rw [textBytes, List.length_map, Nat.toString_eq_ofList_toDigits, String.toList_ofList]
    exact Nat.length_toDigits_le_iff (by decide) hk
  have hfour := hlength 3 (by decide)
  omega

theorem strftime_eq_some {size : ℕ} {text s : List Byte} (h : strftime size text = some s) :
    text.length < size ∧ s = text := by
  obtain ⟨hroom, hsame⟩ := Option.ite_none_right_eq_some.mp h
  exact ⟨hroom, (Option.some.inj hsame).symm⟩

theorem ClockTexts.Grabbed.fit {texts : ClockTexts} (h : texts.Grabbed) : texts.Fit := by
  obtain ⟨day, now, hday, hnow, hdate, htime⟩ := h
  obtain ⟨date, time⟩ := texts
  obtain ⟨hroom, rfl⟩ := strftime_eq_some hdate
  obtain ⟨-, rfl⟩ := strftime_eq_some htime
  have hmon : day.tm_mon + 1 < 100 := by
    have := hday.mon
    omega
  have hdash : lineBreak ∉ textBytes "-" := by decide
  have hcolon : lineBreak ∉ textBytes ":" := by decide
  have htwo : ∀ n, (twoDigits n).length = 2 := fun _ => rfl
  have hone : (textBytes "-").length = 1 := rfl
  refine ⟨?_, rfl, ?_, ?_⟩
  · simp only [List.length_append, htwo, hone] at hroom ⊢
    rw [length_yearText (by omega)]
  · apply lineBreak_notMem_append _ (lineBreak_notMem_toString _)
    apply lineBreak_notMem_append _ hdash
    apply lineBreak_notMem_append _ (lineBreak_notMem_twoDigits hmon)
    apply lineBreak_notMem_append _ hdash
    exact lineBreak_notMem_twoDigits (by have := hday.mday; omega)
  · apply lineBreak_notMem_append _ (lineBreak_notMem_twoDigits (by have := hnow.sec; omega))
    apply lineBreak_notMem_append _ hcolon
    apply lineBreak_notMem_append _ (lineBreak_notMem_twoDigits (by have := hnow.min; omega))
    apply lineBreak_notMem_append _ hcolon
    exact lineBreak_notMem_twoDigits (by have := hnow.hour; omega)

/-! ## One line -/

/-- The escape sequence before a record, `_WHITE_FONT`. -/
def whiteFont : List Byte := textBytes "\x1b[1;37m"

/-- The escape sequence behind a record, `_RESET_FONT`. -/
def resetFont : List Byte := textBytes "\x1b[0m"

/-- What stands between two columns. -/
def columnBar : List Byte := textBytes " | "

/-- The severity with a name. -/
def Severity.ofName (name : List Byte) : Option Severity :=
  [Info, System, Debug, Warning, Error].find? fun severity => textBytes severity.name = name

/-- Read a line of the log back. -/
def parseLogRecord (line : List Byte) : Option Popped := do
  let text ← line.dropPrefix? whiteFont
  let (date, text) ← readColumn columnBar 10 text
  let (time, text) ← readColumn columnBar 8 text
  let (name, text) ← readColumn columnBar 7 text
  let (className, text) ← readColumn columnBar 27 text
  let severity ← Severity.ofName (unpad 32 name)
  let value ← text.dropSuffix? resetFont
  some
    { holder := { className := unpad 32 className, value, severity, desc := [] }
      date := date
      time := time }

/-- Read a log back. -/
def parseLog (text : List Byte) : Option (List Popped) :=
  (toLines lineBreak text).mapM parseLogRecord

/-- A record as the classes of the program log it: their names fit the column, their
descriptions are empty, and the values are of one line. -/
structure Holder.Plain (holder : Holder) : Prop where
  className : FitsColumn 32 27 holder.className
  desc : holder.desc = []
  className_line : lineBreak ∉ holder.className
  value_line : lineBreak ∉ holder.value

/-- A plain record with texts of the clock that fit. -/
structure Popped.Legible (r : Popped) : Prop where
  holder : r.holder.Plain
  texts : ClockTexts.Fit ⟨r.date, r.time⟩

/-- A record without the line break at its end. -/
def Popped.line (r : Popped) : List Byte :=
  whiteFont ++ (r.date ++ (columnBar ++ (r.time ++ (columnBar ++
    (pad 32 7 (textBytes r.holder.severity.name) ++ (columnBar ++
      (pad 32 27 r.holder.className ++ (columnBar ++ (r.holder.value ++ resetFont)))))))))

instance (holder : Holder) : Decidable holder.Plain :=
  decidable_of_iff (FitsColumn 32 27 holder.className ∧ holder.desc = [] ∧
      lineBreak ∉ holder.className ∧ lineBreak ∉ holder.value)
    ⟨fun h => ⟨h.1, h.2.1, h.2.2.1, h.2.2.2⟩,
      fun h => ⟨h.className, h.desc, h.className_line, h.value_line⟩⟩

variable {r : Popped}

theorem Popped.Legible.record_eq (h : r.Legible) : r.record = r.line ++ [lineBreak] := by
  have hname : r.holder.className.take 27 = r.holder.className :=
    List.take_of_length_le h.holder.className.length_le
  simp only [record, buildLogRecord, hname, h.holder.desc, ne_eq, not_true_eq_false, if_false,
    List.append_nil, line, whiteFont, columnBar, resetFont, List.append_assoc]
  rfl

theorem Severity.ofName_name (severity : Severity) :
    Severity.ofName (textBytes severity.name) = some severity := by
  cases severity <;> decide

theorem Severity.fitsColumn_name (severity : Severity) :
    FitsColumn 32 7 (textBytes severity.name) := by
  cases severity <;> exact ⟨by decide, by decide⟩

theorem Popped.Legible.parseLogRecord_line (h : r.Legible) :
    parseLogRecord r.line = some r := by
  obtain ⟨⟨className, value, severity, desc⟩, date, time⟩ := r
  obtain ⟨hclass, rfl, -, -⟩ := h.holder
  have hvalue : (value ++ resetFont).dropSuffix? resetFont = some value :=
    List.dropSuffix?_eq_some_iff.mpr ⟨resetFont, rfl, beq_self_eq_true _⟩
  simp only [parseLogRecord, line,
    List.dropPrefix?_append_of_beq _ (beq_self_eq_true whiteFont),
    readColumn_append columnBar h.texts.date, readColumn_append columnBar h.texts.time,
    readColumn_append columnBar (length_pad _ severity.fitsColumn_name.length_le),
    readColumn_append columnBar (length_pad _ hclass.length_le), unpad_pad hclass,
    unpad_pad severity.fitsColumn_name, Severity.ofName_name, hvalue, Option.bind_eq_bind,
    Option.bind_some]

theorem lineBreak_notMem_pad {width : ℕ} {cell : List Byte} (h : lineBreak ∉ cell) :
    lineBreak ∉ pad 32 width cell := by
  apply lineBreak_notMem_append h
  intro hmem
  exact absurd (List.eq_of_mem_replicate hmem) (by decide)

theorem Popped.Legible.lineBreak_notMem_line (h : r.Legible) : lineBreak ∉ r.line := by
  have hname : lineBreak ∉ textBytes r.holder.severity.name := by
    cases r.holder.severity <;> decide
  have hbar : lineBreak ∉ columnBar := by decide
  apply lineBreak_notMem_append (by decide)
  apply lineBreak_notMem_append h.texts.date_line
  apply lineBreak_notMem_append hbar
  apply lineBreak_notMem_append h.texts.time_line
  apply lineBreak_notMem_append hbar
  apply lineBreak_notMem_append (lineBreak_notMem_pad hname)
  apply lineBreak_notMem_append hbar
  apply lineBreak_notMem_append (lineBreak_notMem_pad h.holder.className_line)
  apply lineBreak_notMem_append hbar
  exact lineBreak_notMem_append h.holder.value_line (by decide)

theorem parseLog_records {records : List Popped} (h : ∀ r ∈ records, r.Legible) :
    parseLog (records.map Popped.record).flatten = some records := by
  have hlines : (records.map Popped.record).flatten =
      ofLines lineBreak (records.map Popped.line) := by
    rw [ofLines, List.flatMap_def, List.map_map]
    apply congrArg
    apply List.map_congr_left
    intro r hr
    exact (h r hr).record_eq
  have hwhole : ∀ line ∈ records.map Popped.line, lineBreak ∉ line := by
    intro line hline
    obtain ⟨r, hr, rfl⟩ := List.mem_map.mp hline
    exact (h r hr).lineBreak_notMem_line
  rw [parseLog, hlines, toLines_ofLines hwhole]
  clear hlines hwhole
  induction records with
  | nil => rfl
  | cons r records ih =>
      have hrest := ih fun r' hr' => h r' (List.mem_cons_of_mem _ hr')
      rw [List.map_cons, List.mapM_cons, (h r List.mem_cons_self).parseLogRecord_line, hrest]
      rfl

/-! ## The logger's own records -/

theorem FitsColumn.of_name {name : String} (h : FitsColumn 32 27 (textBytes name) ∧
    lineBreak ∉ textBytes name) {value : List Byte} (hvalue : lineBreak ∉ value)
    (severity : Severity) : Holder.Plain ⟨textBytes name, value, severity, []⟩ :=
  ⟨h.1, rfl, h.2, hvalue⟩

variable {alloc : Allocator} {c : LoggingController}

theorem plain_of_mem_writeNotices {cursor : BufferCursor} {s : List Byte} {notice : Holder}
    (h : notice ∈ cursor.writeNotices s) : notice.Plain := by
  induction s generalizing cursor with
  | nil => cases h
  | cons byte bytes ih =>
      rw [BufferCursor.writeNotices, List.mem_append] at h
      rcases h with hwraps | hlater
      · split at hwraps
        · rw [List.mem_singleton.mp hwraps]
          decide
        · cases hwraps
      · exact ih hlater

/-- What handling a record logs is plain. -/
theorem plain_of_mem_notices {notice : Holder} (h : notice ∈ c.notices alloc r) :
    notice.Plain := by
  rw [LoggingController.notices] at h
  split at h
  · rw [noticesFromString, List.mem_append] at h
    rcases h with hallocate | hwrite
    · rw [Buffer.allocateNotices, if_pos (by simp [Buffer.fresh])] at hallocate
      rw [List.mem_singleton.mp hallocate]
      apply FitsColumn.of_name (by decide)
      apply lineBreak_notMem_append _ (lineBreak_notMem_toString _)
      apply lineBreak_notMem_append _ (by decide)
      exact lineBreak_notMem_append (by decide) (lineBreak_notMem_toString _)
    · split at hwrite
      · cases hwrite
      · exact plain_of_mem_writeNotices hwrite
  · cases h

theorem textBytes_append (s t : String) : textBytes (s ++ t) = textBytes s ++ textBytes t := by
  rw [textBytes, String.toList_append, List.map_append]
  rfl

theorem lineBreak_notMem_intText (n : BitVec 32) : lineBreak ∉ intText n := by
  rw [intText]
  cases n.toInt with
  | ofNat m => exact lineBreak_notMem_toString m
  | negSucc m =>
      have htext : textBytes (toString (Int.negSucc m)) =
          textBytes "-" ++ textBytes (toString (m + 1)) := by
        rw [← textBytes_append]
        rfl
      rw [htext]
      exact lineBreak_notMem_append (by decide) (lineBreak_notMem_toString _)

theorem LoggingController.plain_INFO {value : List Byte} (hvalue : lineBreak ∉ value) :
    (LoggingController.INFO value).Plain :=
  FitsColumn.of_name (by decide) hvalue .Info

/-- What cutting a batch logs is plain, as far as the text of the rate is. -/
theorem plain_of_mem_cutBatchEntry {rateText : BitVec 32 → List Byte}
    (hrate : ∀ size, lineBreak ∉ rateText size) {batchEntry : LogThroughput} {notice : Holder}
    (h : notice ∈ LoggingController.cutBatchEntry rateText batchEntry) : notice.Plain := by
  have hcount : ∀ (text : String) (n : BitVec 32), lineBreak ∉ textBytes text →
      (LoggingController.INFO (textBytes text ++ intText n)).Plain := fun text n htext =>
    LoggingController.plain_INFO (lineBreak_notMem_append htext (lineBreak_notMem_intText n))
  have hbytes : ∀ (text unit : String) (number : List Byte), lineBreak ∉ textBytes text →
      lineBreak ∉ number → lineBreak ∉ textBytes unit →
      (LoggingController.INFO (textBytes text ++ number ++ textBytes unit)).Plain := by
    intro text unit number htext hnumber hunit
    apply LoggingController.plain_INFO
    exact lineBreak_notMem_append (lineBreak_notMem_append htext hnumber) hunit
  simp only [LoggingController.cutBatchEntry, List.mem_cons, List.not_mem_nil, or_false] at h
  rcases h with rfl | rfl | rfl | rfl | rfl | rfl | rfl | rfl
  · exact hcount _ _ (by decide)
  · exact hcount _ _ (by decide)
  · exact hcount _ _ (by decide)
  · exact hcount _ _ (by decide)
  · exact hcount _ _ (by decide)
  · exact hcount _ _ (by decide)
  · exact hbytes _ _ _ (by decide) (hrate _) (by decide)
  · exact hbytes _ _ _ (by decide) (lineBreak_notMem_intText _) (by decide)

/-! ## A run of the logger -/

/-- What the sinks receive from a handler that returns. -/
structure LoggingController.Handles (c : LoggingController) (alloc : Allocator)
    (severity : Severity) (record : List Byte) (s s' : LoggingState) : Prop where
  screen : s'.screen = s.screen ++ if c.screen.on severity then [(severity.stream, record)] else []
  network : ∃ messages, s'.writeBuffer = s.writeBuffer ++ messages ∧
    MadeFrom alloc (if c.network.on severity then [record] else []) messages
  file : s'.fout = s.fout ++ if c.fileOn severity then [record] else []

theorem LoggingController.handles_of_funcDict {severity : Severity} {record : List Byte}
    {s s' : LoggingState} (h : c.funcDict alloc severity record s = .ok s') :
    c.Handles alloc severity record s s' := by
  rw [funcDict_eq_deliver, deliver] at h
  -- The network comes between the screen and the file, and it alone may throw.
  have hnetwork : ∀ (flag : Bool) (t t' : LoggingState),
      (if flag then t.networkLog alloc record else .ok t) = .ok t' →
      t'.screen = t.screen ∧ t'.fout = t.fout ∧ ∃ messages,
        t'.writeBuffer = t.writeBuffer ++ messages ∧
          MadeFrom alloc (if flag then [record] else []) messages := by
    intro flag t t' hsent
    cases flag with
    | false =>
        cases hsent
        exact ⟨rfl, rfl, [], (List.append_nil _).symm, .nil⟩
    | true =>
        simp only [if_true, LoggingState.networkLog] at hsent
        split at hsent
        · cases hsent
        · rename_i message hmessage
          cases hsent
          exact ⟨rfl, rfl, [message], rfl, .cons hmessage .nil⟩
  split at h
  · cases h
  · rename_i sent hsent
    obtain ⟨hscreen, hfile, messages, hbuffer, hmade⟩ := hnetwork _ _ _ hsent
    cases h
    refine ⟨?_, ⟨messages, ?_, hmade⟩, ?_⟩
    · cases c.fileOn severity <;> cases hon : c.screen.on severity <;>
        simp [hon, hscreen, LoggingState.fileLog, LoggingState.screenLog, LoggingState.pushLog]
    · cases c.fileOn severity <;> cases hon : c.screen.on severity <;>
        simp [hon, hbuffer, LoggingState.fileLog, LoggingState.screenLog, LoggingState.pushLog]
    · cases c.fileOn severity <;> cases hon : c.screen.on severity <;>
        simp [hon, hfile, LoggingState.fileLog, LoggingState.screenLog, LoggingState.pushLog]

namespace LoggerThread

variable {rateText : BitVec 32 → List Byte} {s t : LoggerThread} {act : LoggerAct}

/-- The others log plain records, and the clock gives its texts. -/
def PlainAct : LoggerAct → Prop
  | .push holder => holder.Plain
  | .pop texts => texts.Grabbed
  | .log | .readClock _ | .replace _ => True

/-- What was popped, with a severity that is on. -/
def poppedWith (s : LoggerThread) (on : Severity → Bool) : List Popped :=
  s.popped.filter fun r => on r.holder.severity

/-- The thread has not left its loop. -/
def InLoop (s : LoggerThread) : Prop := ∀ result, s.phase ≠ .left result

/-- What was handled to its end: all that was popped, but for the record on which the thread
has left its loop. -/
def completed (s : LoggerThread) : List Popped :=
  match s.phase with
  | .left _ => s.popped.dropLast
  | .test | .clock | .cut _ => s.popped

/-- What was handled to its end, with a severity that is on. -/
def completedWith (s : LoggerThread) (on : Severity → Bool) : List Popped :=
  s.completed.filter fun r => on r.holder.severity

/-- While the thread is in its loop everything to be logged is plain; the screen holds what was
popped, and the file what was handled to its end. -/
structure Readable (c : LoggingController) (s : LoggerThread) : Prop where
  mQueue : s.InLoop → ∀ holder ∈ s.mQueue, holder.Plain
  pending : s.InLoop → ∀ holder ∈ s.pending, holder.Plain
  popped : ∀ r ∈ s.popped, r.Legible
  screen : s.written.screen =
    (s.poppedWith c.screen.on).map fun r => (r.holder.severity.stream, r.record)
  file : s.written.fout = (s.completedWith c.fileOn).map Popped.record

theorem poppedWith_append {on : Severity → Bool} {s t : LoggerThread} {r : Popped}
    (h : t.popped = s.popped ++ [r]) :
    t.poppedWith on = s.poppedWith on ++ if on r.holder.severity then [r] else [] := by
  rw [poppedWith, h, List.filter_append, poppedWith]
  cases hon : on r.holder.severity <;> simp [hon]

theorem InLoop.completed (h : s.InLoop) : s.completed = s.popped := by
  rw [LoggerThread.completed]
  split
  · rename_i result hleft
    exact absurd hleft (h result)
  all_goals rfl

theorem InLoop.completedWith (h : s.InLoop) (on : Severity → Bool) :
    s.completedWith on = s.poppedWith on := by
  rw [LoggerThread.completedWith, h.completed, poppedWith]

theorem inLoop_of_phase {phase : LoggerPhase} (h : s.phase = phase)
    (hin : ∀ result, phase ≠ .left result) : s.InLoop := by
  intro result hleft
  exact hin result (h.symm.trans hleft)

/-- A record is handled, or the thread leaves its loop with the record on the screen. -/
theorem Readable.handle {holder : Holder} {texts : ClockTexts} {mQueue : List Holder}
    (h : s.Readable c) (hphase : s.phase = .test) (hholder : holder.Plain)
    (hmQueue : ∀ h ∈ mQueue, h.Plain) (htexts : texts.Fit) :
    (LoggerThread.handle alloc c { s with mQueue } (texts.popped holder)).Readable c := by
  have hlegible : ∀ r ∈ s.popped ++ [texts.popped holder], r.Legible := by
    intro r hr
    rcases List.mem_append.mp hr with hold | hnew
    · exact h.popped r hold
    · rw [List.mem_singleton.mp hnew]
      exact ⟨hholder, htexts⟩
  have hfile : s.written.fout = (s.poppedWith c.fileOn).map Popped.record := by
    rw [h.file, (inLoop_of_phase hphase (by simp)).completedWith]
  simp only [LoggerThread.handle]
  split
  · rename_i thrown hthrown
    refine ⟨fun hin => absurd rfl (hin _), fun hin => absurd rfl (hin _), hlegible, ?_, ?_⟩
    · rw [poppedWith_append rfl, List.map_append, ← h.screen]
      simp only [LoggingController.interrupted]
      split <;> simp [LoggingState.screenLog, LoggingState.pushLog, *]
    · have hbefore : (s.popped ++ [texts.popped holder]).dropLast = s.popped :=
        List.dropLast_concat
      simp only [LoggerThread.completedWith, LoggerThread.completed, hbefore]
      refine Eq.trans ?_ hfile
      simp only [LoggingController.interrupted]
      split <;> rfl
  · rename_i written hwritten
    have hhandles := LoggingController.handles_of_funcDict hwritten
    refine ⟨fun _ => hmQueue, fun _ notice => plain_of_mem_notices, hlegible, ?_, ?_⟩
    · rw [poppedWith_append rfl, List.map_append, ← h.screen, hhandles.screen]
      split <;> rfl
    · rw [(inLoop_of_phase rfl (by simp)).completedWith, poppedWith_append rfl, List.map_append,
        ← hfile, hhandles.file]
      split <;> rfl

/-- A step between two phases of the loop, with something plain to be logged. -/
theorem Readable.move {phase : LoggerPhase} {pending : List Holder} (h : s.Readable c)
    (hin : s.InLoop) (hphase : ∀ result, phase ≠ .left result)
    (hpending : ∀ holder ∈ pending, holder.Plain) :
    { s with phase, pending }.Readable c := by
  have hin' : InLoop { s with phase, pending } := hphase
  refine ⟨fun _ => h.mQueue hin, fun _ => hpending, h.popped, h.screen, ?_⟩
  rw [hin'.completedWith, h.file, hin.completedWith]
  rfl

theorem readable_step (hrate : ∀ size, lineBreak ∉ rateText size) (h : s.Readable c)
    (hplain : PlainAct act) (hstep : s.step alloc rateText c act = some t) : t.Readable c := by
  cases act with
  | push holder =>
      cases hstep
      refine ⟨?_, h.pending, h.popped, h.screen, h.file⟩
      intro hin notice hnotice
      rcases List.mem_append.mp hnotice with hold | hnew
      · exact h.mQueue hin notice hold
      · rw [List.mem_singleton.mp hnew]
        exact hplain
  | log =>
      simp only [step] at hstep
      split at hstep
      · cases hstep
      · rename_i holder pending hpending
        cases hstep
        have hplainPending : s.InLoop → ∀ notice ∈ holder :: pending, notice.Plain := by
          rw [← hpending]
          exact h.pending
        refine ⟨?_, ?_, h.popped, h.screen, h.file⟩
        · intro hin notice hnotice
          rcases List.mem_append.mp hnotice with hold | hnew
          · exact h.mQueue hin notice hold
          · rw [List.mem_singleton.mp hnew]
            exact hplainPending hin holder List.mem_cons_self
        · intro hin notice hnotice
          exact hplainPending hin notice (List.mem_cons_of_mem _ hnotice)
  | pop texts =>
      simp only [step] at hstep
      split at hstep
      · rename_i hphase hpending hqueue
        cases hstep
        have hin := inLoop_of_phase hphase (by simp)
        exact h.move hin (by simp) (h.pending hin)
      · rename_i holder mQueue hphase hpending hqueue
        cases hstep
        have hplainQueue : ∀ notice ∈ holder :: mQueue, notice.Plain := by
          rw [← hqueue]
          exact h.mQueue (inLoop_of_phase hphase (by simp))
        exact h.handle hphase (hplainQueue holder List.mem_cons_self)
          (fun notice hnotice => hplainQueue notice (List.mem_cons_of_mem _ hnotice))
          (ClockTexts.Grabbed.fit hplain)
      · cases hstep
  | readClock finish =>
      simp only [step] at hstep
      split at hstep
      · rename_i hphase hpending
        have hin := inLoop_of_phase hphase (by simp)
        split at hstep
        · cases hstep
          exact h.move hin (by simp) fun notice => plain_of_mem_cutBatchEntry hrate
        · cases hstep
          exact h.move hin (by simp) (h.pending hin)
      · cases hstep
  | replace start =>
      simp only [step] at hstep
      split at hstep
      · rename_i finish hphase hpending
        cases hstep
        have hin := inLoop_of_phase hphase (by simp)
        have hmoved : { s with phase := .test }.Readable c :=
          h.move hin (by simp) (h.pending hin)
        exact ⟨hmoved.mQueue, hmoved.pending, hmoved.popped, hmoved.screen, hmoved.file⟩
      · cases hstep

/-- Everything but the network is switched on. -/
def noNetwork (sink _ : String) : Bool := sink != "Network"

theorem grabbed_someTexts : someTexts.Grabbed :=
  ⟨⟨1, 0, 124, 0, 0, 0⟩, ⟨1, 0, 124, 0, 0, 0⟩,
    ⟨by decide, by decide, by decide, by decide, by decide⟩,
    ⟨by decide, by decide, by decide, by decide, by decide⟩, by decide, by decide⟩

end LoggerThread

end ControlEngine
