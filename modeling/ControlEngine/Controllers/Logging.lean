import ControlEngine.Socket.Framing
import Mathlib.Data.List.Forall2

/-!
# Routing log records

`LoggingController` pops records from the log queue and hands each, rendered, to
the handler of its severity.  A handler consults one flag for each of the three
sinks.  Four of the five handlers are the same function of their own flags;
`logWarning` asks the network flags where it should ask those of the file.

The sinks are modelled by what was written to them: the records on the screen
with the stream they went to, the messages pushed to the write buffer of the
"Logs" description, and the records written to the log file.
-/

namespace ControlEngine

/-- The severities under which the program logs. -/
inductive Severity
  | Info
  | System
  | Debug
  | Warning
  | Error
deriving DecidableEq, Repr

/-- The name of a severity: `_INFO`, `_SYS`, `_DEBUG`, `_WARNING`, `_ERROR`. -/
def Severity.name : Severity → String
  | Info => "Info"
  | System => "System"
  | Debug => "Debug"
  | Warning => "Warning"
  | Error => "Error"

/-- The bytes of a text of the source. -/
def textBytes (text : String) : List Byte := text.toList.map fun c => UInt8.ofNat c.toNat

/-- The four strings of a log record. -/
structure Holder where
  className : List Byte
  value : List Byte
  severity : Severity
  desc : List Byte
deriving DecidableEq, Repr

/-- `std::setw` with `std::left`. -/
def setw (width : ℕ) (s : List Byte) : List Byte :=
  s ++ List.replicate (width - s.length) 32

/-- `buildLogRecord`, for the texts that `grabDate` and `grabTime` return. -/
def buildLogRecord (date time : List Byte) (holder : Holder) : List Byte :=
  textBytes "\x1b[1;37m" ++ date ++ textBytes " | " ++ time ++ textBytes " | " ++
    setw 7 (textBytes holder.severity.name) ++ textBytes " | " ++
    setw 27 (holder.className.take 27) ++ textBytes " | " ++
    (if holder.desc ≠ [] then setw 15 holder.desc ++ textBytes " | " else []) ++
    holder.value ++ textBytes "\x1b[0m" ++ textBytes "\n"

/-- `LogThroughput`: a counter and a size for each severity, `int`s both. -/
structure LogThroughput where
  count : Severity → BitVec 32
  memSize : Severity → BitVec 32

/-- The constructor of `LogThroughput`. -/
def LogThroughput.new : LogThroughput where
  count _ := 0
  memSize _ := 0

/-- `pushSysLog`, `pushInfoLog`, `pushDebugLog`, `pushWarningLog` and
`pushErrorLog`. -/
def LogThroughput.push (batchEntry : LogThroughput) (severity : Severity)
    (record : List Byte) : LogThroughput where
  count := Function.update batchEntry.count severity (batchEntry.count severity + 1)
  memSize := Function.update batchEntry.memSize severity
    (batchEntry.memSize severity + BitVec.ofNat 32 record.length)

/-- `loggingFlags`. -/
structure LoggingFlags where
  info : Bool
  debug : Bool
  warning : Bool
  system : Bool
  error : Bool
deriving DecidableEq, Repr

/-- The flags of `LoggingController`. -/
structure LoggingController where
  screen : LoggingFlags
  network : LoggingFlags
  file : LoggingFlags
deriving DecidableEq, Repr

/-- The flags of one sink, from the `Toggle-Logging-Flags` of the configuration. -/
def LoggingFlags.ofToggles (toggles : String → String → Bool) (sink : String) :
    LoggingFlags where
  info := toggles sink Severity.Info.name
  debug := toggles sink Severity.Debug.name
  warning := toggles sink Severity.Warning.name
  system := toggles sink Severity.System.name
  error := toggles sink Severity.Error.name

/-- The flags that the constructor of `LoggingController` reads. -/
def LoggingController.ofToggles (toggles : String → String → Bool) : LoggingController where
  screen := LoggingFlags.ofToggles toggles "Screen"
  network := LoggingFlags.ofToggles toggles "Network"
  file := LoggingFlags.ofToggles toggles "File"

/-- The streams of the screen. -/
inductive ScreenStream
  | cout
  | cerr
deriving DecidableEq, Repr

/-- What the loop of the logger has written, and its current batch. -/
structure LoggingState where
  screen : List (ScreenStream × List Byte)
  writeBuffer : List TcpMessage
  fout : List (List Byte)
  batchEntry : LogThroughput

namespace LoggingState

/-- The state in which the loop begins. -/
def start : LoggingState where
  screen := []
  writeBuffer := []
  fout := []
  batchEntry := LogThroughput.new

def pushLog (s : LoggingState) (severity : Severity) (record : List Byte) : LoggingState :=
  { s with batchEntry := s.batchEntry.push severity record }

/-- `screenLogOut` and `screenLogErr`. -/
def screenLog (s : LoggingState) (stream : ScreenStream) (record : List Byte) : LoggingState :=
  { s with screen := s.screen ++ [(stream, record)] }

/-- `networkLog`, through `pushWriteBuffer`. -/
def networkLog (alloc : Allocator) (s : LoggingState) (record : List Byte) :
    Except Thrown LoggingState :=
  match TcpMesageFromString alloc record with
  | .error thrown => .error thrown
  | .ok message => .ok { s with writeBuffer := s.writeBuffer ++ [message] }

/-- `fileLog`. -/
def fileLog (s : LoggingState) (record : List Byte) : LoggingState :=
  { s with fout := s.fout ++ [record] }

end LoggingState

namespace LoggingController

/-- The handlers that consult one flag for each sink. -/
def deliver (alloc : Allocator) (severity : Severity) (stream : ScreenStream)
    (toScreen toNetwork toFile : Bool) (record : List Byte) (s : LoggingState) :
    Except Thrown LoggingState :=
  let s := s.pushLog severity record
  let s := if toScreen then s.screenLog stream record else s
  match (if toNetwork then s.networkLog alloc record else .ok s) with
  | .error thrown => .error thrown
  | .ok s => .ok (if toFile then s.fileLog record else s)

def logInfo (alloc : Allocator) (c : LoggingController) :
    List Byte → LoggingState → Except Thrown LoggingState :=
  deliver alloc .Info .cout c.screen.info c.network.info c.file.info

def logSystem (alloc : Allocator) (c : LoggingController) :
    List Byte → LoggingState → Except Thrown LoggingState :=
  deliver alloc .System .cout c.screen.system c.network.system c.file.system

def logDebug (alloc : Allocator) (c : LoggingController) :
    List Byte → LoggingState → Except Thrown LoggingState :=
  deliver alloc .Debug .cout c.screen.debug c.network.debug c.file.debug

/-- The handler of warnings, whose last test repeats the one before it. -/
def logWarning (alloc : Allocator) (c : LoggingController) (record : List Byte)
    (s : LoggingState) : Except Thrown LoggingState :=
  let s := s.pushLog .Warning record
  let s := if c.screen.warning then s.screenLog .cout record else s
  match (if c.network.warning then s.networkLog alloc record else .ok s) with
  | .error thrown => .error thrown
  | .ok s => .ok (if c.network.warning then s.fileLog record else s)

def logError (alloc : Allocator) (c : LoggingController) :
    List Byte → LoggingState → Except Thrown LoggingState :=
  deliver alloc .Error .cerr c.screen.error c.network.error c.file.error

/-- `funcDict`. -/
def funcDict (alloc : Allocator) (c : LoggingController) :
    Severity → List Byte → LoggingState → Except Thrown LoggingState
  | .Info => c.logInfo alloc
  | .System => c.logSystem alloc
  | .Debug => c.logDebug alloc
  | .Warning => c.logWarning alloc
  | .Error => c.logError alloc

end LoggingController

/-- A record that was popped, with the texts of the clock at that moment. -/
structure Popped where
  holder : Holder
  date : List Byte
  time : List Byte
deriving DecidableEq, Repr

/-- The rendered record. -/
def Popped.record (r : Popped) : List Byte := buildLogRecord r.date r.time r.holder

/-- What one turn of the logger's loop meets: a record, if the queue is not empty,
and whether the batch is older than a minute. -/
structure Turn where
  popped : Option Popped
  elapsed : Bool
deriving DecidableEq, Repr

/-- The records popped in a sequence of turns. -/
def poppedIn (turns : List Turn) : List Popped := turns.filterMap Turn.popped

namespace LoggingController

/-- One turn of the loop of `startThread`. -/
def turn (alloc : Allocator) (c : LoggingController) (s : LoggingState) (t : Turn) :
    Except Thrown LoggingState :=
  match t.popped.elim (.ok s) fun r => c.funcDict alloc r.holder.severity r.record s with
  | .error thrown => .error thrown
  | .ok s => .ok (if t.elapsed then { s with batchEntry := LogThroughput.new } else s)

/-- `startThread` for a sequence of turns. -/
def startThread (alloc : Allocator) (c : LoggingController) :
    LoggingState → List Turn → Except Thrown LoggingState
  | s, [] => .ok s
  | s, t :: turns =>
      match c.turn alloc s t with
      | .error thrown => .error thrown
      | .ok s => startThread alloc c s turns

end LoggingController

/-! ## What the sinks receive -/

/-- The flag of a severity. -/
def LoggingFlags.on (flags : LoggingFlags) : Severity → Bool
  | .Info => flags.info
  | .System => flags.system
  | .Debug => flags.debug
  | .Warning => flags.warning
  | .Error => flags.error

/-- The rendered records whose severity is switched on, in the order in which they
were popped. -/
def routed (on : Severity → Bool) (records : List Popped) : List (List Byte) :=
  (records.filter fun r => on r.holder.severity).map Popped.record

/-- The sinks have received just these records. -/
structure Received (alloc : Allocator) (s : LoggingState)
    (onScreen onNetwork onFile : List (List Byte)) : Prop where
  screen : s.screen.map Prod.snd = onScreen
  network : MadeFrom alloc onNetwork s.writeBuffer
  file : s.fout = onFile

/-- The flag that decides over the file: for warnings it is that of the network. -/
def LoggingController.fileOn (c : LoggingController) (severity : Severity) : Bool :=
  if severity = .Warning then c.network.warning else c.file.on severity

theorem routed_cons (on : Severity → Bool) (r : Popped) (records : List Popped) :
    routed on (r :: records) =
      (if on r.holder.severity then [r.record] else []) ++ routed on records := by
  cases hon : on r.holder.severity <;> simp [routed, hon]

theorem LoggingFlags.on_ofToggles (toggles : String → String → Bool) (sink : String)
    (severity : Severity) :
    (LoggingFlags.ofToggles toggles sink).on severity = toggles sink severity.name := by
  cases severity <;> rfl

/-- The stream on which a severity reaches the screen. -/
def Severity.stream : Severity → ScreenStream
  | .Error => .cerr
  | _ => .cout

/-- Every handler is a `deliver`; that of warnings gives the flag of the network
for the file. -/
theorem LoggingController.funcDict_eq_deliver (alloc : Allocator) (c : LoggingController)
    (severity : Severity) :
    c.funcDict alloc severity =
      deliver alloc severity severity.stream (c.screen.on severity) (c.network.on severity)
        (c.fileOn severity) := by
  cases severity <;> rfl

section Delivery

variable {alloc : Allocator} {s : LoggingState} {record : List Byte}
variable {onScreen onNetwork onFile : List (List Byte)}

theorem Received.screenLog (h : Received alloc s onScreen onNetwork onFile) (flag : Bool)
    (stream : ScreenStream) (record : List Byte) :
    Received alloc (if flag then s.screenLog stream record else s)
      (onScreen ++ if flag then [record] else []) onNetwork onFile := by
  cases flag with
  | false => simpa using h
  | true => exact ⟨by simp [LoggingState.screenLog, h.screen], h.network, h.file⟩

theorem Received.networkLog (h : Received alloc s onScreen onNetwork onFile) (flag : Bool)
    (hprovides : alloc.Provides (BitVec.ofNat 64 record.length)) :
    ∃ s', (if flag then s.networkLog alloc record else .ok s) = .ok s' ∧
      Received alloc s' onScreen (onNetwork ++ if flag then [record] else []) onFile := by
  cases flag with
  | false => exact ⟨s, rfl, by simpa using h⟩
  | true =>
      obtain ⟨message, hmessage⟩ := exists_TcpMesageFromString hprovides
      refine ⟨{ s with writeBuffer := s.writeBuffer ++ [message] }, ?_, h.screen, ?_, h.file⟩
      · simp only [if_true, LoggingState.networkLog, hmessage]
      · exact List.rel_append h.network (.cons hmessage .nil)

theorem Received.fileLog (h : Received alloc s onScreen onNetwork onFile) (flag : Bool)
    (record : List Byte) :
    Received alloc (if flag then s.fileLog record else s) onScreen onNetwork
      (onFile ++ if flag then [record] else []) := by
  cases flag with
  | false => simpa using h
  | true => exact ⟨h.screen, h.network, by simp [LoggingState.fileLog, h.file]⟩

theorem Received.deliver (h : Received alloc s onScreen onNetwork onFile) (severity : Severity)
    (stream : ScreenStream) (toScreen toNetwork toFile : Bool)
    (hprovides : alloc.Provides (BitVec.ofNat 64 record.length)) :
    ∃ s', LoggingController.deliver alloc severity stream toScreen toNetwork toFile record s =
        .ok s' ∧
      Received alloc s' (onScreen ++ if toScreen then [record] else [])
        (onNetwork ++ if toNetwork then [record] else [])
        (onFile ++ if toFile then [record] else []) := by
  have hcounted : Received alloc (s.pushLog severity record) onScreen onNetwork onFile :=
    ⟨h.screen, h.network, h.file⟩
  obtain ⟨s', hs', hsent⟩ :=
    (hcounted.screenLog toScreen stream record).networkLog toNetwork hprovides
  refine ⟨if toFile then s'.fileLog record else s', ?_, hsent.fileLog toFile record⟩
  simp only [LoggingController.deliver, hs']

end Delivery

/-! ## Runs of the logger -/

/-- A run of the logger routes by the flags of the three sinks, except that the
file goes by `fileOn`. -/
theorem received_startThread (alloc : Allocator) (c : LoggingController) {s : LoggingState}
    {onScreen onNetwork onFile : List (List Byte)} (turns : List Turn)
    (hprovides : ∀ r ∈ poppedIn turns, alloc.Provides (BitVec.ofNat 64 r.record.length))
    (h : Received alloc s onScreen onNetwork onFile) :
    ∃ s', c.startThread alloc s turns = .ok s' ∧
      Received alloc s' (onScreen ++ routed c.screen.on (poppedIn turns))
        (onNetwork ++ routed c.network.on (poppedIn turns))
        (onFile ++ routed c.fileOn (poppedIn turns)) := by
  induction turns generalizing s onScreen onNetwork onFile with
  | nil => exact ⟨s, rfl, by simpa [routed, poppedIn] using h⟩
  | cons t turns ih =>
      obtain ⟨popped, elapsed⟩ := t
      -- The batch is of no consequence for the sinks.
      have hcut : ∀ {s : LoggingState} {a b d : List (List Byte)}, Received alloc s a b d →
          Received alloc (if elapsed then { s with batchEntry := LogThroughput.new } else s)
            a b d := by
        intro s a b d h
        cases elapsed with
        | false => exact h
        | true => exact ⟨h.screen, h.network, h.file⟩
      cases popped with
      | none =>
          obtain ⟨s', hs', hrest⟩ := ih hprovides (hcut h)
          exact ⟨s', hs', hrest⟩
      | some r =>
          have hfirst := hprovides r (by simp [poppedIn])
          obtain ⟨s₁, hs₁, hdelivered⟩ := h.deliver r.holder.severity r.holder.severity.stream
            (c.screen.on r.holder.severity) (c.network.on r.holder.severity)
            (c.fileOn r.holder.severity) hfirst
          rw [← c.funcDict_eq_deliver] at hs₁
          obtain ⟨s', hs', hrest⟩ := ih
            (fun r' hr' => hprovides r' (by simp [poppedIn] at hr' ⊢; right; exact hr'))
            (hcut hdelivered)
          refine ⟨s', ?_, ?_⟩
          · simp only [LoggingController.startThread, LoggingController.turn, Option.elim_some,
              hs₁]
            exact hs'
          · have hpopped : poppedIn ({ popped := some r, elapsed } :: turns) =
                r :: poppedIn turns := by simp [poppedIn]
            rw [hpopped, routed_cons, routed_cons, routed_cons, ← List.append_assoc,
              ← List.append_assoc, ← List.append_assoc]
            exact hrest

/-- A record that only the wider of two switches routes makes a difference. -/
theorem length_routed_lt {on on' : Severity → Bool} {records : List Popped} {r : Popped}
    (hwider : ∀ severity, on severity = true → on' severity = true) (hr : r ∈ records)
    (hoff : on r.holder.severity = false) (hon : on' r.holder.severity = true) :
    (routed on records).length < (routed on' records).length := by
  have hnarrow : (records.filter fun r => on r.holder.severity) =
      (records.filter fun r => on' r.holder.severity).filter fun r => on r.holder.severity := by
    rw [List.filter_filter]
    apply List.filter_congr
    intro r' _
    have hr' := hwider r'.holder.severity
    cases hcase : on r'.holder.severity with
    | false => simp
    | true => simp [hr' hcase]
  rw [routed, routed, List.length_map, List.length_map, hnarrow,
    List.length_filter_lt_length_iff_exists]
  exact ⟨r, List.mem_filter.mpr ⟨hr, hon⟩, by simp [hoff]⟩

/-- Two ways of switching severities that agree off one of them route the same
records exactly if they agree on it as well, or no record has it. -/
theorem routed_eq_routed_iff {on on' : Severity → Bool} (odd : Severity)
    (hagree : ∀ severity, severity ≠ odd → on severity = on' severity)
    (records : List Popped) :
    routed on records = routed on' records ↔
      on odd = on' odd ∨ ∀ r ∈ records, r.holder.severity ≠ odd := by
  constructor
  · intro hsame
    by_contra hdiffer
    push Not at hdiffer
    obtain ⟨hne, r, hr, hodd⟩ := hdiffer
    have hlength := congrArg List.length hsame
    -- One of the two switches is on for the odd severity, and is then the wider one.
    cases hon : on odd with
    | false =>
        have hon' : on' odd = true := by simpa [hon] using hne
        have hwider : ∀ severity, on severity = true → on' severity = true := by
          intro severity hseverity
          by_cases hcase : severity = odd
          · rwa [hcase]
          · rwa [← hagree severity hcase]
        have hlt := length_routed_lt hwider hr (by rwa [hodd]) (by rwa [hodd])
        omega
    | true =>
        have hon' : on' odd = false := by simpa [hon] using hne
        have hwider : ∀ severity, on' severity = true → on severity = true := by
          intro severity hseverity
          by_cases hcase : severity = odd
          · rwa [hcase]
          · rwa [hagree severity hcase]
        have hlt := length_routed_lt hwider hr (by rwa [hodd]) (by rwa [hodd])
        omega
  · intro hequal
    have hfilter : (records.filter fun r => on r.holder.severity) =
        records.filter fun r => on' r.holder.severity := by
      apply List.filter_congr
      intro r hr
      by_cases hcase : r.holder.severity = odd
      · rcases hequal with hodd | hnone
        · rw [hcase, hodd]
        · exact absurd hcase (hnone r hr)
      · exact hagree _ hcase
    rw [routed, routed, hfilter]

/-- Each sink has received the popped records whose severity is switched on for
it, each once and in the order in which they were popped. -/
def RoutedByToggles (alloc : Allocator) (toggles : String → String → Bool)
    (records : List Popped) (s : LoggingState) : Prop :=
  Received alloc s
    (routed (fun severity => toggles "Screen" severity.name) records)
    (routed (fun severity => toggles "Network" severity.name) records)
    (routed (fun severity => toggles "File" severity.name) records)

/-- The logger routes its records by the toggles exactly if those of the network and
the file agree on warnings, or no warning was popped. -/
theorem routedByToggles_iff (alloc : Allocator) (toggles : String → String → Bool)
    (turns : List Turn)
    (hprovides : ∀ r ∈ poppedIn turns, alloc.Provides (BitVec.ofNat 64 r.record.length)) :
    ∃ s, (LoggingController.ofToggles toggles).startThread alloc LoggingState.start turns =
        .ok s ∧
      (RoutedByToggles alloc toggles (poppedIn turns) s ↔
        toggles "Network" "Warning" = toggles "File" "Warning" ∨
          ∀ r ∈ poppedIn turns, r.holder.severity ≠ .Warning) := by
  have hstart : Received alloc LoggingState.start [] [] [] := ⟨rfl, .nil, rfl⟩
  obtain ⟨s, hs, hreceived⟩ :=
    received_startThread alloc (LoggingController.ofToggles toggles) turns hprovides hstart
  have hscreen : (LoggingController.ofToggles toggles).screen.on =
      fun severity => toggles "Screen" severity.name :=
    funext (LoggingFlags.on_ofToggles toggles "Screen")
  have hnetwork : (LoggingController.ofToggles toggles).network.on =
      fun severity => toggles "Network" severity.name :=
    funext (LoggingFlags.on_ofToggles toggles "Network")
  have hfile : routed (LoggingController.ofToggles toggles).fileOn (poppedIn turns) =
      routed (fun severity => toggles "File" severity.name) (poppedIn turns) ↔
        toggles "Network" "Warning" = toggles "File" "Warning" ∨
          ∀ r ∈ poppedIn turns, r.holder.severity ≠ .Warning := by
    apply routed_eq_routed_iff .Warning
    intro severity hseverity
    rw [LoggingController.fileOn, if_neg hseverity]
    exact LoggingFlags.on_ofToggles toggles "File" severity
  rw [List.nil_append, List.nil_append, List.nil_append, hscreen, hnetwork] at hreceived
  refine ⟨s, hs, ?_⟩
  rw [← hfile]
  constructor
  · intro hrouted
    rw [← hreceived.file, hrouted.file]
  · intro hsame
    exact ⟨hreceived.screen, hreceived.network, hreceived.file.trans hsame⟩

/-- Warnings go to the file only. -/
def warningsToFile (sink severity : String) : Bool := sink == "File" && severity == "Warning"

/-- A warning, popped at some moment. -/
def someWarning : Popped where
  holder := { className := [], value := [], severity := .Warning, desc := [] }
  date := []
  time := []

theorem routedByToggles_iff_someWarning :
    ∃ s, (LoggingController.ofToggles warningsToFile).startThread Allocator.zeroed
        LoggingState.start [{ popped := some someWarning, elapsed := false }] = .ok s ∧
      (RoutedByToggles Allocator.zeroed warningsToFile
          (poppedIn [{ popped := some someWarning, elapsed := false }]) s ↔
        warningsToFile "Network" "Warning" = warningsToFile "File" "Warning" ∨
          ∀ r ∈ poppedIn [{ popped := some someWarning, elapsed := false }],
            r.holder.severity ≠ .Warning) :=
  routedByToggles_iff Allocator.zeroed warningsToFile _
    (by
      intro r hr
      rw [List.mem_singleton.mp hr]
      exact Allocator.zeroed_provides (by decide))

/-- A warning that is switched on for the file alone never reaches it. -/
theorem not_routedByToggles_someWarning :
    ∃ s, (LoggingController.ofToggles warningsToFile).startThread Allocator.zeroed
        LoggingState.start [{ popped := some someWarning, elapsed := false }] = .ok s ∧
      ¬ RoutedByToggles Allocator.zeroed warningsToFile [someWarning] s := by
  refine ⟨_, rfl, ?_⟩
  intro h
  have hfile := congrArg List.length h.file
  cases hfile

end ControlEngine
