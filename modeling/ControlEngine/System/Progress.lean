import ControlEngine.Support.Progress
import ControlEngine.System.WriteBuffer

/-!
# The writer gets on

The writer is never blocked: nobody else locks `sendMutex`, and it pops only what is there.
Each step brings it nearer to the return of `sendData` for the message in front, whatever the
other threads do in between, as long as it finds the client connected when it looks, and a size
that is not negative as an `int`.  So a message is sent, or given up, within fifteen steps of
the writer for itself and each message before it.
-/

namespace ControlEngine

/-- The writer finds the client connected when it tests the status, and the size of the buffer
positive as an `int` unless it is empty. -/
def WriterPc.Served (c : Client) : WriterPc → Prop
  | .pollStatus => c.connectionStatus = true
  | .pollSize => c.writeBuffer.length < 2 ^ 31
  | _ => True

instance (c : Client) : ∀ pc : WriterPc, Decidable (pc.Served c)
  | .pollStatus => inferInstanceAs (Decidable (_ = _))
  | .pollSize => inferInstanceAs (Decidable (_ < _))
  | .pop | .enter _ | .lock _ | .fetch _ _ | .send _ _ _ | .failing _ _ | .unlock _ _ =>
      inferInstanceAs (Decidable True)

/-- The writer is served when it acts. -/
def ServesWriter (s : System) (act : Act) : Prop :=
  act.tid = some .writer → WriterPc.Served s.client (s.threads .writer)

instance (s : System) (act : Act) : Decidable (ServesWriter s act) :=
  inferInstanceAs (Decidable (act.tid = some .writer →
    WriterPc.Served s.client (id (s.threads .writer : WriterPc))))

/-- The acts of a thread. -/
def Act.of (t : Tid) (act : Act) : List Act := if act.tid = some t then [act] else []

/-! ## The writer is never blocked -/

/-- The writer may hold the mutex. -/
def WriterPc.mayHold : WriterPc → Bool
  | .fetch _ _ | .send _ _ _ | .failing _ _ | .unlock _ _ => true
  | _ => false

/-- What the writer waits for is there. -/
structure System.WriterReady (s : System) : Prop where
  pending : s.threads .writer = WriterPc.pop → s.client.writeBuffer ≠ []
  free : WriterPc.mayHold (s.threads .writer) = false → s.client.sendMutex = none

variable {env : Environment} {c : Client} {e : Event} {s s' s₀ : System} {act : Act}

theorem WriterMove.frees {pc pc' : WriterPc} (h : WriterMove env c pc e pc')
    (hfree : pc.mayHold = false → c.sendMutex = none) :
    pc'.mayHold = false → (c.after e).sendMutex = none := by
  cases h with
  | lock => nofun
  | @send m part fd n hn hlength => cases part <;> nofun
  | @closing m point e next hclose => cases hclose <;> nofun
  | refuse => nofun
  | unlock => exact fun _ => rfl
  | _ => exact hfree

theorem writerReady_step (h : s.WriterReady) (hstep : s.step env act = some s') :
    s'.WriterReady := by
  obtain ⟨e, -, hclient, -, hwriter | hother⟩ := System.focus .writer hstep
  · obtain ⟨-, outcome, hthread⟩ := hwriter
    have hmove := writerMove_of_step hthread
    constructor
    · rw [hclient]
      exact hmove.takes.2.2
    · rw [hclient]
      exact hmove.frees h.free
  · obtain ⟨-, hexclusive, hsame⟩ := hother
    constructor
    · rw [hsame, hclient, (e.balance hexclusive).2]
      intro hpop hempty
      exact h.pending hpop (List.append_eq_nil_iff.mp hempty).1
    · rw [hsame, hclient]
      intro hnot
      cases e with
      | lock => exact absurd rfl hexclusive
      | unlock => rfl
      | _ => exact h.free hnot

theorem writerReady_of_reaches (hrun : Reaches (System.step env) System.start s) :
    s.WriterReady :=
  hrun.invariant ⟨nofun, fun _ => rfl⟩ fun _ _ _ h _ hstep => writerReady_step h hstep

theorem System.WriterReady.canStep (h : s.WriterReady) (env : Environment) :
    ∃ outcome s', s.step env (.thread .writer outcome) = some s' := by
  have hcan : ∃ outcome, (writerStep env s.client (s.threads .writer) outcome).isSome := by
    obtain ⟨hpending, hfree⟩ := h
    generalize s.threads .writer = pc at hpending hfree
    cases pc with
    | pop =>
        refine ⟨.plain, ?_⟩
        obtain ⟨m, rest, hrest⟩ := List.exists_cons_of_ne_nil (hpending rfl)
        simp [writerStep, hrest]
    | lock m => exact ⟨.plain, by simp [writerStep, hfree rfl]⟩
    | send m part fd => exact ⟨.returns (-1), by simp [writerStep]⟩
    | _ => exact ⟨.plain, rfl⟩
  obtain ⟨outcome, hcan⟩ := hcan
  obtain ⟨r, hr⟩ := Option.isSome_iff_exists.mp hcan
  exact ⟨outcome, _, congrArg (Option.map fun r : Event × WriterPc =>
    s.record r.1 (Function.update s.threads .writer r.2)) hr⟩

/-! ## Fifteen steps a message -/

/-- The steps that the writer has taken for the current message, at least. -/
def WriterPc.spent : WriterPc → ℕ
  | .pollStatus => 0
  | .pollSize => 1
  | .pop => 2
  | .enter _ => 3
  | .lock _ => 4
  | .fetch _ .size => 5
  | .send _ .size _ => 6
  | .fetch _ .type => 7
  | .send _ .type _ => 8
  | .fetch _ .payload => 9
  | .send _ .payload _ => 10
  | .failing _ .clear => 11
  | .failing _ .fetch => 12
  | .failing _ (.close _) => 13
  | .unlock _ _ => 14

theorem WriterPc.spent_lt (pc : WriterPc) : pc.spent < 15 := by
  cases pc with
  | fetch m part => cases part <;> simp [spent]
  | send m part fd => cases part <;> simp [spent]
  | failing m point => cases point <;> simp [spent]
  | _ => simp [spent]

/-- A size that fits in an `int` is positive unless it is that of an empty queue. -/
theorem queueSize_pos {queue : List TcpMessage} (hne : queue ≠ []) (hsize : queue.length < 2 ^ 31) :
    queueSize queue > 0 := by
  have hpos := List.length_pos_of_ne_nil hne
  rw [queueSize, BitVec.toInt_eq_toNat_of_lt]
  · rw [BitVec.toNat_ofNat, Nat.mod_eq_of_lt (by omega)]
    omega
  · rw [BitVec.toNat_ofNat, Nat.mod_eq_of_lt (by omega)]
    omega

/-- Beyond its two tests the writer gets on with each step. -/
theorem WriterMove.spent_lt {pc pc' : WriterPc} (h : WriterMove env c pc e pc')
    (hstatus : pc ≠ .pollStatus) (hsize : pc ≠ .pollSize) :
    pc.spent < 15 * e.returned.length + pc'.spent := by
  cases h with
  | sleep => exact absurd rfl hstatus
  | empty => exact absurd rfl hsize
  | @fetch m part => cases part <;> simp [WriterPc.spent]
  | @send m part fd n hn hlength => cases part <;> simp [WriterPc.spent, WriterPc.afterSend]
  | @sendFails m part fd => cases part <;> simp [WriterPc.spent]
  | closing hclose => cases hclose <;> simp [WriterPc.spent]
  | _ => simp [WriterPc.spent, Event.returned]

/-- Each step of a writer that is served spends one on the message in front. -/
theorem spent_lt_of_writerStep {pc pc' : WriterPc} {outcome : Outcome}
    (h : writerStep env c pc outcome = some (e, pc')) (hserved : pc.Served c)
    (hwaiting : pc.held = [] → c.writeBuffer ≠ []) :
    pc.spent < 15 * e.returned.length + pc'.spent := by
  cases pc with
  | pollStatus =>
      have hconnected : c.connectionStatus = true := hserved
      cases outcome <;> cases h
      simp [hconnected, WriterPc.spent]
  | pollSize =>
      have hsize := queueSize_pos (hwaiting rfl) hserved
      cases outcome <;> cases h
      simp [hsize, WriterPc.spent]
  | _ => exact (writerMove_of_step h).spent_lt nofun nofun

/-- The first `n` messages that were pushed are still to be returned for, some of them, and the
steps for these are not all taken. -/
def System.stepsLeft (n : ℕ) (s : System) : ℕ :=
  15 * (n - (returned s.history).length) - WriterPc.spent (s.threads .writer)

theorem stepsLeft_step {n : ℕ} (hn : n ≤ (pushed s.history).length) (hbalanced : s.Balanced)
    (hguard : ServesWriter s act) (hstep : s.step env act = some s') :
    s'.stepsLeft n ≤ s.stepsLeft n - (act.of .writer).length := by
  obtain ⟨e, -, -, hhistory, hwriter | hother⟩ := System.focus .writer hstep
  · obtain ⟨hact, outcome, hthread⟩ := hwriter
    have hone : (act.of .writer).length = 1 := by simp [Act.of, hact]
    have hreturned : (returned s'.history).length =
        (returned s.history).length + e.returned.length := by
      rw [hhistory, returned_append, List.length_append]
    rw [System.stepsLeft, System.stepsLeft, hone, hreturned]
    by_cases hdone : n ≤ (returned s.history).length
    · omega
    · have hwaiting : WriterPc.held (s.threads .writer) = [] → s.client.writeBuffer ≠ [] := by
        intro hheld hempty
        rw [hbalanced, hheld, hempty] at hn
        simp at hn
        exact hdone hn
      have hspent := spent_lt_of_writerStep hthread (hguard hact) hwaiting
      have hlimit := WriterPc.spent_lt (s.threads .writer)
      omega
  · obtain ⟨hact, hexclusive, hsame⟩ := hother
    have hnone : (act.of .writer).length = 0 := by simp [Act.of, hact]
    obtain ⟨hreturned, -⟩ := e.balance (c := s.client) hexclusive
    rw [System.stepsLeft, System.stepsLeft, hnone, hhistory, returned_append, hreturned, hsame,
      List.append_nil]
    exact le_rfl

theorem stepsLeft_of_watched {acts : List Act} (hbalanced : s₀.Balanced)
    (hrun : Watched (System.step env) (fun _ act => act.of .writer) ServesWriter s₀ s acts) :
    (s.Balanced ∧ pushed s₀.history <+: pushed s.history) ∧
      s.stepsLeft (pushed s₀.history).length ≤
        s₀.stepsLeft (pushed s₀.history).length - acts.length := by
  apply hrun.potential_le ⟨hbalanced, List.prefix_refl _⟩
  rintro s act t ⟨hbalanced, hprefix⟩ hguard hstep
  refine ⟨⟨balanced_step hbalanced hstep, ?_⟩,
    stepsLeft_step hprefix.length_le hbalanced hguard hstep⟩
  obtain ⟨e, -, -, hhistory, -⟩ := System.focus .writer hstep
  rw [hhistory, pushed_append]
  exact hprefix.trans (List.prefix_append _ _)

/-- The writer gets on: it is never blocked, and after fifteen of its steps for the message in
its hand and for each one in the buffer, `sendData` has returned for all of them, whatever the
other threads did in between, if the writer was served. -/
theorem returned_of_enough_steps {acts : List Act}
    (hbefore : Reaches (System.step env) System.start s₀)
    (hrun : Watched (System.step env) (fun _ act => act.of .writer) ServesWriter s₀ s acts) :
    (∃ outcome s', s.step env (.thread .writer outcome) = some s') ∧
      (15 * (WriterPc.held (s₀.threads .writer) ++ s₀.client.writeBuffer).length ≤ acts.length →
        pushed s₀.history <+: (returned s.history).map Prod.fst) := by
  have hready := writerReady_of_reaches (hbefore.trans hrun.guarded.reaches)
  refine ⟨hready.canStep env, ?_⟩
  intro henough
  have hstart := balanced_of_reaches hbefore
  obtain ⟨⟨hbalanced, hprefix⟩, hleft⟩ := stepsLeft_of_watched hstart hrun
  have hgone : (returned s.history).map Prod.fst <+: pushed s.history := by
    rw [hbalanced, List.append_assoc]
    exact List.prefix_append _ _
  apply List.prefix_of_prefix_length_le hprefix hgone
  have hlength := congrArg List.length hstart
  have hlimit := WriterPc.spent_lt (s.threads .writer)
  rw [System.stepsLeft, System.stepsLeft] at hleft
  simp only [List.length_append, List.length_map] at hlength henough ⊢
  omega

/-- A message is pushed on a connection. -/
def connectAndPush : List Act := connect 5 6 ++ [.pushWriteBuffer [65]]

/-- The writer sends it, and looks for another one. -/
def sendAndLook : List Act :=
  sendOneByte.drop connectAndPush.length ++ List.replicate 3 (.thread .writer .plain)

theorem returned_of_enough_steps_sendAndLook :
    ∃ s₀ s acts, Reaches (System.step Environment.plain) System.start s₀ ∧
      Watched (System.step Environment.plain) (fun _ act => act.of .writer) ServesWriter s₀ s
        acts ∧
      (pushed s₀.history).length = 1 ∧
      pushed s₀.history <+: (returned s.history).map Prod.fst := by
  obtain ⟨s₀, s, acts, hbefore, hrun, hpushed, henough⟩ : ∃ s₀ s acts,
      runActs (System.step Environment.plain) (fun _ _ => True) System.start connectAndPush =
        some s₀ ∧
      runActs (observed (System.step Environment.plain) fun _ act => act.of .writer)
        (fun s act => ServesWriter s.1 act) (s₀, []) sendAndLook = some (s, acts) ∧
      (pushed s₀.history).length = 1 ∧
      15 * (WriterPc.held (s₀.threads .writer) ++ s₀.client.writeBuffer).length ≤ acts.length := by
    set_option maxRecDepth 10000 in
    exact ⟨_, _, _, rfl, rfl, by decide, by decide⟩
  have hreaches := guarded_of_runActs hbefore
  have hwatched : Watched (System.step Environment.plain) (fun _ act => act.of .writer)
      ServesWriter s₀ s acts := guarded_of_runActs hrun
  exact ⟨s₀, s, acts, hreaches, hwatched, hpushed,
    (returned_of_enough_steps hreaches hwatched).2 henough⟩

end ControlEngine
