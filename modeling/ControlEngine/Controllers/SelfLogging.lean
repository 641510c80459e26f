import ControlEngine.Controllers.Logging
import ControlEngine.Support.WorkQueue

/-!
# The logger's own records

Handling a record can log.  Of the three sinks only the network does: `networkLog` turns
the record into a message, `Allocate` logs the size of the block it got, and the cursor
that fills the block logs when it wraps.  All of these records have the severity `System`
and are pushed to the queue that the logger is emptying.

The loop is taken by itself here: nobody else pushes, and no batch is cut.
-/

namespace ControlEngine

/-! ## What making a message logs -/

/-- The record of `wrapBuffer`. -/
def BufferCursor.wrapNotice : Holder where
  className := textBytes "BufferCursor"
  value := textBytes "System Noticed warpBuffer() Call..."
  severity := .System
  desc := []

/-- The records of `writeBytes`: one for each time the cursor wraps. -/
def BufferCursor.writeNotices (c : BufferCursor) : List Byte → List Holder
  | [] => []
  | _ :: bytes =>
      (if c.forwardLength - 1 = 0 then [wrapNotice] else []) ++ c.afterByte.writeNotices bytes

/-- The record of `Allocate`, which it logs before it looks at the size. -/
def Buffer.mallocNotice (realUsable size : SizeT) : Holder where
  className := textBytes "MessageBuffer"
  value := textBytes "Verifying MessageBuffer malloc: " ++ textBytes (toString realUsable.toNat) ++
    textBytes " >= " ++ textBytes (toString size.toNat)
  severity := .System
  desc := []

/-- The records of `Allocate`. -/
def Buffer.allocateNotices (alloc : Allocator) (b : Buffer) (size : SizeT) : List Holder :=
  if ¬ b.alreadyAllocatedBuffer then
    [mallocNotice (mallocUsableSize (alloc.malloc size)) size]
  else []

/-- The records of `TcpMesageFromString`. -/
def noticesFromString (alloc : Allocator) (s : List Byte) : List Holder :=
  let size := BitVec.ofNat 64 s.length
  Buffer.fresh.allocateNotices alloc size ++
    match Buffer.fresh.Allocate alloc size with
    | .error _ => []
    | .ok (buffer, _) => buffer.getBufferCursor.writeNotices s

/-- The records of handling a record. -/
def LoggingController.notices (alloc : Allocator) (c : LoggingController) (r : Popped) :
    List Holder :=
  if c.network.on r.holder.severity then noticesFromString alloc r.record else []

/-! ## The loop with its queue -/

/-- The queue of log records, and what the logger has written. -/
structure LoggerLoop where
  mQueue : List Holder
  written : LoggingState

/-- The texts of `grabDate` and `grabTime`. -/
structure ClockTexts where
  date : List Byte
  time : List Byte

/-- A record, rendered at some moment. -/
def ClockTexts.popped (texts : ClockTexts) (holder : Holder) : Popped where
  holder := holder
  date := texts.date
  time := texts.time

namespace LoggerLoop

/-- One turn of the loop of `startThread`, in which no batch is cut. -/
def turn (alloc : Allocator) (c : LoggingController) (texts : ClockTexts) (s : LoggerLoop) :
    Except Thrown LoggerLoop :=
  let popped := s.mQueue.head?.map texts.popped
  match c.turn alloc s.written { popped, elapsed := false } with
  | .error thrown => .error thrown
  | .ok written =>
      .ok { mQueue := s.mQueue.tail ++ popped.elim [] (c.notices alloc), written }

/-- A number of turns, at the times of a clock. -/
def turns (alloc : Allocator) (c : LoggingController) :
    (ℕ → ClockTexts) → ℕ → LoggerLoop → Except Thrown LoggerLoop
  | _, 0, s => .ok s
  | clock, n + 1, s =>
      match s.turn alloc c (clock 0) with
      | .error thrown => .error thrown
      | .ok s => turns alloc c (fun k => clock (k + 1)) n s

/-- After finitely many turns the queue is empty. -/
def Empties (alloc : Allocator) (c : LoggingController) (clock : ℕ → ClockTexts)
    (s : LoggerLoop) : Prop :=
  ∃ n s', s.turns alloc c clock n = .ok s' ∧ s'.mQueue = []

end LoggerLoop

variable {alloc : Allocator} {c : LoggingController}

theorem system_of_mem_writeNotices {cursor : BufferCursor} {s : List Byte} {notice : Holder}
    (h : notice ∈ cursor.writeNotices s) : notice.severity = .System := by
  induction s generalizing cursor with
  | nil => cases h
  | cons byte bytes ih =>
      rw [BufferCursor.writeNotices, List.mem_append] at h
      rcases h with hwraps | hlater
      · split at hwraps
        · rw [List.mem_singleton.mp hwraps]
          rfl
        · cases hwraps
      · exact ih hlater

theorem system_of_mem_notices {r : Popped} {notice : Holder}
    (h : notice ∈ c.notices alloc r) : notice.severity = .System := by
  rw [LoggingController.notices] at h
  split at h
  · rcases List.mem_append.mp h with hmalloc | hwrite
    · rw [List.mem_singleton.mp hmalloc]
      rfl
    · split at hwrite
      · cases hwrite
      · exact system_of_mem_writeNotices hwrite
  · cases h

theorem exists_mem_notices (alloc : Allocator) {r : Popped}
    (h : c.network.on r.holder.severity = true) :
    ∃ notice ∈ c.notices alloc r, notice.severity = .System := by
  rw [LoggingController.notices, if_pos h]
  exact ⟨_, List.mem_append_left _ (List.mem_singleton_self _), rfl⟩

/-- The network is all that can fail. -/
theorem LoggingController.exists_turn {written : LoggingState} {r : Popped}
    (hprovides : c.network.on r.holder.severity = true →
      alloc.Provides (BitVec.ofNat 64 r.record.length)) :
    ∃ written', c.turn alloc written { popped := some r, elapsed := false } = .ok written' := by
  simp only [turn, Option.elim_some, funcDict_eq_deliver, deliver]
  cases hon : c.network.on r.holder.severity with
  | false => exact ⟨_, rfl⟩
  | true =>
      obtain ⟨message, hmessage⟩ := exists_TcpMesageFromString (hprovides hon)
      simp only [if_true, LoggingState.networkLog, hmessage]
      exact ⟨_, rfl⟩

namespace LoggerLoop

/-- What handling a record at some moment makes. -/
def spawn (alloc : Allocator) (c : LoggingController) (texts : ClockTexts) (holder : Holder) :
    List Holder :=
  c.notices alloc (texts.popped holder)

variable {s s' : LoggerLoop}

/-- The logger works its queue. -/
theorem turn_mQueue {texts : ClockTexts} (h : s.turn alloc c texts = .ok s') :
    s'.mQueue = workTurn (spawn alloc c texts) s.mQueue := by
  obtain ⟨mQueue, written⟩ := s
  rw [turn] at h
  split at h
  · cases h
  · rw [← Except.ok.inj h]
    cases mQueue with
    | nil => rfl
    | cons holder rest => rfl

theorem turns_mQueue {clock : ℕ → ClockTexts} {n : ℕ}
    (h : s.turns alloc c clock n = .ok s') :
    s'.mQueue = workTurns (fun k => spawn alloc c (clock k)) n s.mQueue := by
  induction n generalizing s clock with
  | zero =>
      rw [turns] at h
      rw [Except.ok.inj h, workTurns]
  | succ n ih =>
      rw [turns] at h
      split at h
      · cases h
      · rename_i next hnext
        rw [workTurns, ih h, turn_mQueue hnext]

/-- A turn fails only if the record it pops is for the network and its allocation fails. -/
theorem exists_turn {texts : ClockTexts}
    (hprovides : ∀ holder ∈ s.mQueue, c.network.on holder.severity = true →
      alloc.Provides (BitVec.ofNat 64 (texts.popped holder).record.length)) :
    ∃ s', s.turn alloc c texts = .ok s' := by
  obtain ⟨mQueue, written⟩ := s
  have hwritten : ∃ written', c.turn alloc written
      { popped := mQueue.head?.map texts.popped, elapsed := false } = .ok written' := by
    cases mQueue with
    | nil => exact ⟨written, rfl⟩
    | cons holder rest =>
        apply LoggingController.exists_turn
        exact hprovides holder List.mem_cons_self
  obtain ⟨written', hwritten'⟩ := hwritten
  simp only [turn, hwritten']
  exact ⟨_, rfl⟩

/-- The loop does not fail if all its records are of a kind that can be handled at every
moment and makes records of this kind only. -/
theorem exists_turns {clock : ℕ → ClockTexts} (fit : Holder → Prop)
    (hprovides : ∀ holder, fit holder → c.network.on holder.severity = true → ∀ k,
      alloc.Provides (BitVec.ofNat 64 ((clock k).popped holder).record.length))
    (hspawn : ∀ holder, fit holder → ∀ texts, ∀ notice ∈ spawn alloc c texts holder, fit notice)
    (hqueue : ∀ holder ∈ s.mQueue, fit holder) (n : ℕ) :
    ∃ s', s.turns alloc c clock n = .ok s' := by
  induction n generalizing s clock with
  | zero => exact ⟨s, rfl⟩
  | succ n ih =>
      obtain ⟨next, hnext⟩ := exists_turn fun holder hholder hon =>
        hprovides holder (hqueue holder hholder) hon 0
      rw [turns, hnext]
      apply ih
      · intro holder hfit hon k
        exact hprovides holder hfit hon (k + 1)
      · rw [turn_mQueue hnext]
        apply forall_mem_workTurn _ hqueue
        intro holder hfit
        exact hspawn holder hfit (clock 0)

/-- Once a record for the network waits while records of the severity `System` go there,
the queue is never empty again. -/
theorem mQueue_ne_nil {clock : ℕ → ClockTexts} {n : ℕ}
    (hsystem : c.network.on .System = true)
    (hon : ∃ holder ∈ s.mQueue, c.network.on holder.severity = true)
    (h : s.turns alloc c clock n = .ok s') : s'.mQueue ≠ [] := by
  have hfertile : ∀ k holder, c.network.on holder.severity = true →
      ∃ notice ∈ spawn alloc c (clock k) holder, c.network.on notice.severity = true := by
    intro k holder hholder
    have hon' : c.network.on ((clock k).popped holder).holder.severity = true := hholder
    obtain ⟨notice, hnotice, hseverity⟩ := exists_mem_notices alloc hon'
    exact ⟨notice, hnotice, by rwa [hseverity]⟩
  obtain ⟨holder, hholder, _⟩ := exists_mem_workTurns hfertile hon n
  rw [turns_mQueue h]
  exact List.ne_nil_of_mem hholder

theorem spawn_of_off {texts : ClockTexts} {holder : Holder}
    (hoff : c.network.on holder.severity = false) : spawn alloc c texts holder = [] := by
  rw [spawn, LoggingController.notices, ClockTexts.popped, hoff, if_neg Bool.false_ne_true]

/-- A record that can be handled and makes none for the network. -/
def Quiet (alloc : Allocator) (c : LoggingController) (clock : ℕ → ClockTexts)
    (holder : Holder) : Prop :=
  c.network.on holder.severity = false ∨
    c.network.on .System = false ∧ ∀ k,
      alloc.Provides (BitVec.ofNat 64 ((clock k).popped holder).record.length)

theorem Quiet.spawn_off {clock : ℕ → ClockTexts} {holder notice : Holder} {texts : ClockTexts}
    (h : Quiet alloc c clock holder) (hnotice : notice ∈ spawn alloc c texts holder) :
    c.network.on notice.severity = false := by
  rcases h with hoff | ⟨hsystem, _⟩
  · rw [spawn_of_off hoff] at hnotice
    cases hnotice
  · rwa [system_of_mem_notices hnotice]

theorem empties_of_quiet {clock : ℕ → ClockTexts}
    (hquiet : ∀ holder ∈ s.mQueue, Quiet alloc c clock holder) : s.Empties alloc c clock := by
  have hworked : ∃ n, workTurns (fun k => spawn alloc c (clock k)) n (s.mQueue ++ []) = [] := by
    apply exists_workTurns_eq_nil
    · intro k holder hoff
      exact spawn_of_off hoff
    · intro holder hholder k notice hnotice
      exact (hquiet holder hholder).spawn_off hnotice
    · intro holder hholder
      cases hholder
  obtain ⟨n, hn⟩ := hworked
  have hruns : ∃ s', s.turns alloc c clock n = .ok s' := by
    apply exists_turns (Quiet alloc c clock)
    · intro holder hholder hon
      rcases hholder with hoff | ⟨_, hprovides⟩
      · rw [hoff] at hon
        cases hon
      · exact hprovides
    · intro holder hholder texts notice hnotice
      exact Or.inl (hholder.spawn_off hnotice)
    · exact hquiet
  obtain ⟨s', hs'⟩ := hruns
  refine ⟨n, s', hs', ?_⟩
  rw [turns_mQueue hs', ← List.append_nil s.mQueue]
  exact hn

/-- The loop empties its queue exactly if the records of the severity `System` do not go
to the network, or nothing in the queue does. -/
theorem empties_iff (alloc : Allocator) (toggles : String → String → Bool)
    (clock : ℕ → ClockTexts) (s : LoggerLoop)
    (hprovides : ∀ holder ∈ s.mQueue, ∀ k,
      alloc.Provides (BitVec.ofNat 64 ((clock k).popped holder).record.length)) :
    s.Empties alloc (LoggingController.ofToggles toggles) clock ↔
      toggles "Network" "System" = false ∨
        ∀ holder ∈ s.mQueue, toggles "Network" holder.severity.name = false := by
  have hon : ∀ severity, (LoggingController.ofToggles toggles).network.on severity =
      toggles "Network" severity.name := LoggingFlags.on_ofToggles toggles "Network"
  constructor
  · rintro ⟨n, s', hs', hempty⟩
    by_contra hfeeds
    push Not at hfeeds
    obtain ⟨hsystem, holder, hholder, hseverity⟩ := hfeeds
    apply mQueue_ne_nil _ ⟨holder, hholder, ?_⟩ hs' hempty
    · rw [hon]
      exact Bool.eq_true_of_not_eq_false hsystem
    · rw [hon]
      exact Bool.eq_true_of_not_eq_false hseverity
  · intro hquiet
    apply empties_of_quiet
    intro holder hholder
    rcases hquiet with hsystem | hoff
    · refine Or.inr ⟨?_, hprovides holder hholder⟩
      rw [hon]
      exact hsystem
    · left
      rw [hon]
      exact hoff holder hholder

/-- One record of the severity `System` in the queue. -/
def someSystem : LoggerLoop where
  mQueue := [{ className := [], value := [], severity := .System, desc := [] }]
  written := LoggingState.start

/-- A clock that shows nothing. -/
def silentClock (_ : ℕ) : ClockTexts where
  date := []
  time := []

/-- All flags on but the one for the records of the severity `System` on the network. -/
def allButOne (sink severity : String) : Bool := !(sink == "Network" && severity == "System")

theorem empties_iff_allButOne :
    someSystem.Empties Allocator.generous (LoggingController.ofToggles allButOne) silentClock ↔
      allButOne "Network" "System" = false ∨
        ∀ holder ∈ someSystem.mQueue, allButOne "Network" holder.severity.name = false :=
  empties_iff Allocator.generous allButOne silentClock someSystem
    fun _ _ _ => Allocator.generous_provides _

/-- With all flags on one record keeps the loop busy for ever, though nothing is thrown. -/
theorem not_empties_allOn :
    (∀ n, ∃ s, someSystem.turns Allocator.generous (LoggingController.ofToggles fun _ _ => true)
        silentClock n = .ok s) ∧
      ¬ someSystem.Empties Allocator.generous (LoggingController.ofToggles fun _ _ => true)
        silentClock := by
  constructor
  · intro n
    apply exists_turns fun _ => True
    · intro _ _ _ _
      exact Allocator.generous_provides _
    · intro _ _ _ _ _
      trivial
    · intro _ _
      trivial
  · rintro ⟨n, s, hs, hempty⟩
    exact mQueue_ne_nil rfl ⟨_, List.mem_singleton_self _, rfl⟩ hs hempty

end LoggerLoop
end ControlEngine
