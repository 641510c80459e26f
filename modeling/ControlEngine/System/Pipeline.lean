import ControlEngine.Controllers.LogRecord
import ControlEngine.System.Interleaving

/-!
# From the log queue to the peer

A record that is logged waits in the log queue, is popped and rendered by the logger,
waits as a message in the write buffer of the "Logs" description, is taken by the writer of
that description and sent.  The logger and the threads of the client run side by side, and
everybody logs.

`networkLog` pushes the message in the middle of a handler, behind the records that making
the message logs.  So the logger goes on only when it has pushed what it owes.

No record overtakes another one, and none is in two places.  On a connection that stays
established and carries no ping the peer receives consecutive ones of the records that were
popped for the network.  All this is about runs in which a push to the log queue and a test
with its pop are one step each, as in `Throughput`.
-/

namespace ControlEngine

/-- The logger, the client with its threads, and all that was pushed to the log queue. -/
structure Pipeline where
  logged : List Holder
  logger : LoggerThread
  system : System

/-- A step of the logger or a record of somebody else, the `push` of `networkLog`, and the
steps of the threads of the client. -/
inductive PipelineAct
  | logger (act : LoggerAct)
  | networkLog
  | thread (t : Tid) (outcome : Outcome)

/-- The records that an act pushes to the log queue. -/
def LoggerAct.logs (s : LoggerThread) : LoggerAct → List Holder
  | push holder => [holder]
  | log => s.pending.take 1
  | _ => []

/-- The steps in which the logger leaves a handler behind. -/
def LoggerAct.goesOn : LoggerAct → Bool
  | push _ | log => false
  | _ => true

namespace Pipeline

/-- The engine begins. -/
def start (mQueue : List Holder) (now : ℤ) : Pipeline where
  logged := mQueue
  logger := LoggerThread.start mQueue LoggingState.start now
  system := System.start

/-- The record whose message the logger has to push next. -/
def owed (c : LoggingController) (p : Pipeline) : Option Popped :=
  (p.logger.poppedWith c.network.on)[(pushed p.system.history).length]?

/-- The act of the client that an act contains. -/
def clientAct (c : LoggingController) (p : Pipeline) : PipelineAct → Option Act
  | .logger _ => none
  | .networkLog =>
      if p.logger.pending = [] then (p.owed c).map fun r => .pushWriteBuffer r.record else none
  | .thread t outcome => some (.thread t outcome)

/-- One act. -/
def step (env : Environment) (rateText : BitVec 32 → List Byte) (c : LoggingController)
    (p : Pipeline) : PipelineAct → Option Pipeline
  | .logger act =>
      if act.goesOn = true → p.owed c = none then
        (p.logger.step env.alloc rateText c act).map fun logger =>
          { p with logged := p.logged ++ act.logs p.logger, logger }
      else none
  | act =>
      (p.clientAct c act).bind fun clientAct =>
        (p.system.step env clientAct).map fun system => { p with system }

end Pipeline

variable {env : Environment} {rateText : BitVec 32 → List Byte} {c : LoggingController}

/-! ## What a step can do -/

namespace LoggerThread

variable {alloc : Allocator} {s t : LoggerThread} {act : LoggerAct}

theorem popped_handle (alloc : Allocator) (c : LoggingController) (s : LoggerThread) (r : Popped) :
    (handle alloc c s r).popped = s.popped ++ [r] ∧ (handle alloc c s r).mQueue = s.mQueue := by
  simp only [handle]
  split <;> exact ⟨rfl, rfl⟩

theorem exists_popped (h : s.step alloc rateText c act = some t) :
    ∃ new, t.popped = s.popped ++ new ∧ (act.goesOn = false → new = []) ∧ new.length ≤ 1 ∧
      s.mQueue ++ act.logs s = new.map Popped.holder ++ t.mQueue := by
  cases act with
  | push holder =>
      cases h
      exact ⟨[], (List.append_nil _).symm, fun _ => rfl, Nat.zero_le _, rfl⟩
  | log =>
      simp only [step] at h
      split at h
      · cases h
      · rename_i holder pending hpending
        cases h
        refine ⟨[], (List.append_nil _).symm, fun _ => rfl, Nat.zero_le _, ?_⟩
        rw [LoggerAct.logs, hpending]
        rfl
  | pop texts =>
      simp only [step] at h
      split at h
      · cases h
        exact ⟨[], (List.append_nil _).symm, fun _ => rfl, Nat.zero_le _, List.append_nil _⟩
      · rename_i holder mQueue hphase hpending hqueue
        cases h
        obtain ⟨hpopped, hrest⟩ := popped_handle alloc c { s with mQueue } (texts.popped holder)
        refine ⟨[texts.popped holder], hpopped, by simp [LoggerAct.goesOn], le_rfl, ?_⟩
        rw [hrest, hqueue]
        exact List.append_nil _
      · cases h
  | readClock finish =>
      simp only [step] at h
      split at h
      · split at h <;> cases h <;>
          exact ⟨[], (List.append_nil _).symm, fun _ => rfl, Nat.zero_le _, List.append_nil _⟩
      · cases h
  | replace start =>
      simp only [step] at h
      split at h
      · cases h
        exact ⟨[], (List.append_nil _).symm, fun _ => rfl, Nat.zero_le _, List.append_nil _⟩
      · cases h

end LoggerThread

/-- The messages that `pushWriteBuffer` makes of the records. -/
def MadeOf (env : Environment) : List Popped → List TcpMessage → Prop :=
  List.Forall₂ fun r m => pushWriteBuffer env r.record = some m

theorem MadeOf.split {records : List Popped} {first last : List TcpMessage}
    (h : MadeOf env records (first ++ last)) :
    ∃ before behind, records = before ++ behind ∧ MadeOf env before first ∧
      MadeOf env behind last :=
  ⟨_, _, (List.take_append_drop first.length records).symm,
    List.forall₂_take_append records first last h, List.forall₂_drop_append records first last h⟩

namespace Pipeline

variable {p p' : Pipeline} {act : PipelineAct}

theorem step_cases (h : p.step env rateText c act = some p') :
    (∃ loggerAct logger, (loggerAct.goesOn = true → p.owed c = none) ∧
      p.logger.step env.alloc rateText c loggerAct = some logger ∧
      p.clientAct c act = none ∧
      p' = { p with logged := p.logged ++ loggerAct.logs p.logger, logger }) ∨
    ∃ clientAct system, p.clientAct c act = some clientAct ∧
      p.system.step env clientAct = some system ∧ p' = { p with system } := by
  cases act with
  | logger loggerAct =>
      obtain ⟨hwaits, htaken⟩ := Option.ite_none_right_eq_some.mp h
      obtain ⟨logger, hlogger, rfl⟩ := Option.map_eq_some_iff.mp htaken
      exact Or.inl ⟨loggerAct, logger, hwaits, hlogger, rfl, rfl⟩
  | networkLog =>
      obtain ⟨clientAct, hact, htaken⟩ := Option.bind_eq_some_iff.mp h
      obtain ⟨system, hsystem, rfl⟩ := Option.map_eq_some_iff.mp htaken
      exact Or.inr ⟨clientAct, system, hact, hsystem, rfl⟩
  | thread t outcome =>
      obtain ⟨system, hsystem, rfl⟩ := Option.map_eq_some_iff.mp h
      exact Or.inr ⟨.thread t outcome, system, rfl, hsystem, rfl⟩

/-- The client in a pipeline is the client by itself. -/
theorem reaches_system {p₀ : Pipeline} (hrun : Reaches (Pipeline.step env rateText c) p₀ p) :
    Reaches (System.step env) p₀.system p.system := by
  induction hrun with
  | refl => exact Guarded.refl _
  | tail _ hlast ih =>
      obtain ⟨act, -, hstep⟩ := hlast
      rcases step_cases hstep with ⟨-, -, -, -, -, rfl⟩ | ⟨clientAct, system, -, hsystem, rfl⟩
      · exact ih
      · exact ih.tail trivial hsystem

/-! ## Where the records are -/

/-- The queue holds what was logged and not popped, and the logger has pushed the messages of
the records it popped, except perhaps for the last of them. -/
structure Linked (env : Environment) (c : LoggingController) (p : Pipeline) : Prop where
  logged : p.logged = p.logger.popped.map Popped.holder ++ p.logger.mQueue
  pushed : ∃ handed atLogger, p.logger.poppedWith c.network.on = handed ++ atLogger ∧
    MadeOf env handed (pushed p.system.history) ∧ atLogger.length ≤ 1

theorem owed_eq {handed atLogger : List Popped}
    (hsplit : p.logger.poppedWith c.network.on = handed ++ atLogger)
    (hmade : MadeOf env handed (pushed p.system.history)) : p.owed c = atLogger.head? := by
  rw [owed, hsplit, ← hmade.length_eq, List.getElem?_append_right le_rfl, Nat.sub_self,
    List.head?_eq_getElem?]

theorem linked_step (h : p.Linked env c) (hstep : p.step env rateText c act = some p') :
    p'.Linked env c := by
  obtain ⟨hlogged, handed, atLogger, hsplit, hmade, hone⟩ := h
  have howed := owed_eq hsplit hmade
  rcases step_cases hstep with
    ⟨loggerAct, logger, hwaits, hlogger, -, rfl⟩ | ⟨clientAct, system, hact, hsystem, rfl⟩
  · obtain ⟨new, hpopped, hstays, hnew, hqueue⟩ := LoggerThread.exists_popped hlogger
    have hsplit' : logger.poppedWith c.network.on =
        handed ++ (atLogger ++ new.filter fun r => c.network.on r.holder.severity) := by
      rw [LoggerThread.poppedWith, hpopped, List.filter_append, ← LoggerThread.poppedWith,
        hsplit, List.append_assoc]
    refine ⟨?_, handed, _, hsplit', hmade, ?_⟩
    · simp only [hlogged, hpopped, List.map_append, List.append_assoc, hqueue]
    · -- The logger pops only when it owes nothing.
      cases hgoes : loggerAct.goesOn with
      | false =>
          rw [hstays hgoes, List.filter_nil, List.append_nil]
          exact hone
      | true =>
          rw [hwaits hgoes] at howed
          rw [List.head?_eq_none_iff.mp howed.symm, List.nil_append]
          exact (List.length_filter_le _ _).trans hnew
  · refine ⟨hlogged, ?_⟩
    rcases System.step_cases hsystem with
      ⟨t, outcome, e, pc, rfl, hthread, -, rfl⟩ | ⟨data, m, rfl, hpush, -, rfl⟩
    · refine ⟨handed, atLogger, hsplit, ?_, hone⟩
      simp only [System.record, pushed_append, pushed_of_threadStep hthread, List.append_nil]
      exact hmade
    · -- The message that is pushed is the one that was owed.
      cases act with
      | logger loggerAct => cases hact
      | thread t outcome => cases hact
      | networkLog =>
          obtain ⟨-, hact⟩ := Option.ite_none_right_eq_some.mp hact
          obtain ⟨r, hr, hdata⟩ := Option.map_eq_some_iff.mp hact
          obtain rfl : r.record = data := Act.pushWriteBuffer.inj hdata
          obtain ⟨rest, rfl⟩ := List.head?_eq_some_iff.mp (howed.symm.trans hr)
          refine ⟨handed ++ [r], rest, ?_, ?_, ?_⟩
          · rw [hsplit, List.append_assoc]
            rfl
          · rw [System.record, pushed_append]
            exact List.rel_append hmade (.cons hpush .nil)
          · rw [List.length_cons] at hone
            exact (Nat.le_succ _).trans hone

theorem linked_of_reaches {mQueue : List Holder} {now : ℤ}
    (hrun : Reaches (Pipeline.step env rateText c) (start mQueue now) p) : p.Linked env c :=
  hrun.invariant ⟨rfl, [], [], rfl, .nil, Nat.zero_le _⟩ fun _ _ _ h _ hstep =>
    linked_step h hstep

/-- The messages that `sendData` has returned for are those of the first records, and the
writer holds that of the next one, if it holds one. -/
theorem exists_gone {mQueue : List Holder} {now : ℤ}
    (hrun : Reaches (Pipeline.step env rateText c) (start mQueue now) p) :
    ∃ gone current later, p.logger.poppedWith c.network.on = gone ++ current ++ later ∧
      MadeOf env gone ((returned p.system.history).map Prod.fst) ∧
      MadeOf env current (WriterPc.held (p.system.threads .writer)) := by
  obtain ⟨-, handed, atLogger, hsplit, hmade, -⟩ := linked_of_reaches hrun
  rw [balanced_of_reaches (reaches_system hrun)] at hmade
  obtain ⟨taken, waiting, rfl, htaken, -⟩ := hmade.split
  obtain ⟨gone, current, rfl, hgone, hcurrent⟩ := htaken.split
  exact ⟨gone, current, waiting ++ atLogger, by rw [hsplit, List.append_assoc], hgone, hcurrent⟩

/-- Every record is accounted for on its way: in every run the log queue holds what was logged
and not popped, and the records that were popped for the network are, in their order, those
whose messages `sendData` has returned for, with whatever result, the one that the writer
holds, those in the write buffer, and at most one that the logger has not pushed. -/
theorem conserves_of_reaches {mQueue : List Holder} {now : ℤ}
    (hrun : Reaches (Pipeline.step env rateText c) (start mQueue now) p) :
    p.logged = p.logger.popped.map Popped.holder ++ p.logger.mQueue ∧
      ∃ gone held waiting atLogger : List Popped,
        p.logger.poppedWith c.network.on = gone ++ held ++ waiting ++ atLogger ∧
        MadeOf env gone ((returned p.system.history).map Prod.fst) ∧
        MadeOf env held (WriterPc.held (p.system.threads .writer)) ∧
        MadeOf env waiting p.system.client.writeBuffer ∧
        atLogger.length ≤ 1 := by
  obtain ⟨hlogged, handed, atLogger, hsplit, hmade, hone⟩ := linked_of_reaches hrun
  rw [balanced_of_reaches (reaches_system hrun)] at hmade
  obtain ⟨taken, waiting, rfl, htaken, hwaiting⟩ := hmade.split
  obtain ⟨gone, held, rfl, hgone, hheld⟩ := htaken.split
  exact ⟨hlogged, gone, held, waiting, atLogger, hsplit, hgone, hheld, hwaiting, hone⟩

/-! ## What the peer reads -/

/-- The connection stays as it is, every `send` accepts all its bytes, and none is a ping. -/
def KeepsStream (env : Environment) (c : LoggingController) (p : Pipeline)
    (act : PipelineAct) : Prop :=
  ∀ clientAct ∈ p.clientAct c act, StaysEstablished env p.system clientAct ∧
    ∀ e ∈ p.system.eventOf env clientAct, e.isPing = false

instance (env : Environment) (c : LoggingController) (p : Pipeline) (act : PipelineAct) :
    Decidable (KeepsStream env c p act) :=
  Option.decidableForallMem _

/-- The client by itself stays on its connection and sends no ping. -/
theorem guarded_system {p₀ : Pipeline}
    (hrun : Guarded (Pipeline.step env rateText c) (KeepsStream env c) p₀ p) :
    Guarded (System.step env) (StaysEstablished env) p₀.system p.system ∧
      ∃ later, p.system.history = p₀.system.history ++ later ∧ ∀ e ∈ later, e.isPing = false := by
  induction hrun with
  | refl => exact ⟨Guarded.refl _, [], (List.append_nil _).symm, fun e he => by cases he⟩
  | tail _ hlast ih =>
      obtain ⟨act, hguard, hstep⟩ := hlast
      obtain ⟨hsystem, later, hhistory, hpings⟩ := ih
      rcases step_cases hstep with ⟨-, -, -, -, -, rfl⟩ | ⟨clientAct, system, hact, htaken, rfl⟩
      · exact ⟨hsystem, later, hhistory, hpings⟩
      · obtain ⟨hstays, hping⟩ := hguard clientAct hact
        obtain ⟨e, hevent, -, hlonger, -⟩ := System.focus .writer htaken
        refine ⟨hsystem.tail hstays htaken, later ++ [e], ?_, ?_⟩
        · rw [hlonger, hhistory, List.append_assoc]
        · intro e' he'
          rcases List.mem_append.mp he' with hold | hnew
          · exact hpings e' hold
          · rw [List.mem_singleton.mp hnew]
            exact hping e hevent

theorem contents_of_made {r : Popped} {m : TcpMessage}
    (h : pushWriteBuffer env r.record = some m) :
    m.buffer.contents = r.record ∧ (r.Legible → parseLog m.buffer.contents = some [r]) := by
  have hcontents := (carries_of_pushWriteBuffer h).2.contents
  refine ⟨hcontents, ?_⟩
  intro hlegible
  have hone : parseLog ([r].map Popped.record).flatten = some [r] := by
    apply parseLog_records
    intro r' hr'
    rw [List.mem_singleton.mp hr']
    exact hlegible
  rwa [List.map_singleton, List.flatten_singleton, ← hcontents] at hone

theorem transmitted_prefix_frame (order : ByteOrder) (m : TcpMessage) (part : FramePart) :
    (WriterPc.fetch m part).transmitted order <+: m.frame order := by
  rw [TcpMessage.frame, List.append_assoc]
  cases part with
  | size => exact List.nil_prefix
  | type => exact List.prefix_append _ _
  | payload =>
      rw [← List.append_assoc]
      exact List.prefix_append _ _

theorem transmitted_prefix_held (order : ByteOrder) (pc : WriterPc) :
    pc.transmitted order <+: (pc.held.map (·.frame order)).flatten := by
  cases pc with
  | fetch m part => simpa [WriterPc.held] using transmitted_prefix_frame order m part
  | send m part fd =>
      have hfetch : (WriterPc.send m part fd).transmitted order =
          (WriterPc.fetch m part).transmitted order := by cases part <;> rfl
      rw [hfetch]
      simpa [WriterPc.held] using transmitted_prefix_frame order m part
  | unlock m result => exact ⟨[], by simp [WriterPc.held, WriterPc.transmitted]⟩
  | _ => exact List.nil_prefix

/-- From the log to the peer: while a connection stays established, every `send` accepts its
bytes and there is no ping, the bytes on the connection are the frames of consecutive ones of
the records that were popped for the network, and behind them the beginning of the frame of the
next one.  Wherever `recv` cuts them, the header fields excepted, `readData` reads back messages
that contain these records, and every legible record can be read out of its message. -/
theorem peer_reads_records {p₀ : Pipeline} {mQueue : List Holder} {now : ℤ} {object : ℕ}
    {receiver : Allocator}
    (hreceiver : ∀ size : SizeT, size.toNat < 2 ^ 63 → receiver.Provides size)
    (hbefore : Reaches (Pipeline.step env rateText c) (start mQueue now) p₀)
    (hestablished : p₀.system.Established object)
    (hrun : Guarded (Pipeline.step env rateText c) (KeepsStream env c) p₀ p) :
    ∃ earlier records current later messages,
      p.logger.poppedWith c.network.on = earlier ++ records ++ current ++ later ∧
      earlier.length = (returned p₀.system.history).length ∧
      bytesOn object (p₀.system.since p.system) =
        (messages.map (·.frame env.order)).flatten ++
          WriterPc.transmitted env.order (p.system.threads .writer) ∧
      MadeOf env current (WriterPc.held (p.system.threads .writer)) ∧
      WriterPc.transmitted env.order (p.system.threads .writer) <+:
        ((WriterPc.held (p.system.threads .writer)).map (·.frame env.order)).flatten ∧
      List.Forall₂ (fun r m => m.buffer.contents = r.record ∧
        (r.Legible → parseLog m.buffer.contents = some [r])) records messages ∧
      ∀ cut, HeadersUncut env.order cut 0 messages →
        ReadsBack receiver env.order ⟨bytesOn object (p₀.system.since p.system), cut, .blocks⟩ 0
          messages := by
  obtain ⟨hsystem, history, hhistory, hpings⟩ := guarded_system hrun
  have hsince : p₀.system.since p.system = history := by
    rw [System.since, hhistory, List.drop_left]
  -- The messages that have left are those of the records that are gone.
  obtain ⟨gone, current, later, hsplit, hgone, hcurrent⟩ :=
    exists_gone (hbefore.trans hrun.reaches)
  have hreturned : (returned p.system.history).map Prod.fst =
      (returned p₀.system.history).map Prod.fst ++ finished history := by
    rw [hhistory, returned, List.flatMap_append, List.map_append]
    rfl
  rw [hreturned] at hgone
  obtain ⟨earlier, records, rfl, hearlier, hrecords⟩ := hgone.split
  have hstreaming : p.system.Streaming p₀.system object env.order :=
    hsystem.invariant hestablished.streaming fun _ _ _ h hguard hstep =>
      streaming_step h hguard hstep
  have hstream : bytesOn object (p₀.system.since p.system) =
      ((finished history).map (·.frame env.order)).flatten ++
        WriterPc.transmitted env.order (p.system.threads .writer) := by
    have hframes := hstreaming.frames
    rw [hsince] at hframes ⊢
    rw [← hframes, frameBytesOn, List.filter_eq_self.mpr]
    intro e he
    simp [hpings e he]
  have hcarries : ∀ m ∈ finished history, ∃ data, data.length < 2 ^ 63 ∧ m.Carries data := by
    rw [← hsince]
    exact carries_of_finished p₀.system ((reaches_system hbefore).trans hsystem.reaches)
  refine ⟨earlier, records, current, later, finished history, hsplit, ?_, hstream, hcurrent,
    transmitted_prefix_held _ _, hrecords.imp fun r m => contents_of_made, ?_⟩
  · rw [hearlier.length_eq, List.length_map]
  · intro cut huncut
    exact readsBack_of_headersUncut hreceiver hcarries hstream huncut

/-! ## A run -/

/-- The step of a thread of the client, or the push of the logger. -/
def ofAct : Act → PipelineAct
  | .thread t outcome => .thread t outcome
  | .pushWriteBuffer _ => .networkLog

/-- A record is popped, and with what making its message logs it is pushed and sent. -/
def sendRecord : List PipelineAct :=
  [.logger (.pop LoggerThread.someTexts), .logger .log, .logger .log, .networkLog] ++
    List.replicate 6 (.thread .writer .plain) ++
    [.thread .writer (.returns 8), .thread .writer .plain, .thread .writer (.returns 4),
      .thread .writer .plain, .thread .writer (.returns 100), .thread .writer .plain]

/-- Only the network is switched on, and not for the records of the system. -/
def networkOnly : LoggingController :=
  LoggingController.ofToggles fun sink severity => sink == "Network" && severity != "System"

/-- The run goes on from an established connection. -/
theorem exists_sendRecord : ∃ p₀ p : Pipeline,
    runActs (step Environment.plain LoggerThread.wholeRate networkOnly) (fun _ _ => True)
      (start [LoggerThread.someInfo] 0) ((connect 5 6).map ofAct) = some p₀ ∧
    p₀.system.Established 1 ∧
    runActs (step Environment.plain LoggerThread.wholeRate networkOnly)
      (KeepsStream Environment.plain networkOnly) p₀ sendRecord = some p ∧
    (p.logger.poppedWith networkOnly.network.on).length = 1 ∧
    (returned p.system.history).length = 1 := by
  set_option maxRecDepth 10000 in
  exact ⟨_, _, rfl, ⟨rfl, rfl, rfl, rfl⟩, rfl, by decide, by decide⟩

theorem conserves_of_reaches_sendRecord : ∃ p : Pipeline,
    Reaches (step Environment.plain LoggerThread.wholeRate networkOnly)
      (start [LoggerThread.someInfo] 0) p ∧
    (returned p.system.history).length = 1 ∧
    p.logged = p.logger.popped.map Popped.holder ++ p.logger.mQueue := by
  obtain ⟨p₀, p, hbefore, -, hrun, -, hone⟩ := exists_sendRecord
  have hreaches := (guarded_of_runActs hbefore).trans (guarded_of_runActs hrun).reaches
  exact ⟨p, hreaches, hone, (conserves_of_reaches hreaches).1⟩

theorem peer_reads_records_sendRecord : ∃ p₀ p : Pipeline,
    p₀.system.Established 1 ∧
    Guarded (step Environment.plain LoggerThread.wholeRate networkOnly)
      (KeepsStream Environment.plain networkOnly) p₀ p ∧
    ∃ earlier records current later, ∃ messages : List TcpMessage,
      p.logger.poppedWith networkOnly.network.on = earlier ++ records ++ current ++ later ∧
      bytesOn 1 (p₀.system.since p.system) =
        (messages.map (·.frame .little)).flatten ++
          WriterPc.transmitted .little (p.system.threads .writer) := by
  obtain ⟨p₀, p, hbefore, hestablished, hrun, -, -⟩ := exists_sendRecord
  obtain ⟨earlier, records, current, later, messages, hsplit, -, hstream, -⟩ :=
    peer_reads_records (fun _ hsize => Allocator.zeroed_provides hsize)
      (guarded_of_runActs hbefore) hestablished (guarded_of_runActs hrun)
  exact ⟨p₀, p, hestablished, guarded_of_runActs hrun, earlier, records, current, later, messages,
    hsplit, hstream⟩

end Pipeline

end ControlEngine
