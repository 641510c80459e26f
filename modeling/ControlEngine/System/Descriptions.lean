import ControlEngine.System.Process

/-!
# Descriptions that keep to themselves

Whether a call leads to the connection of another description cannot be seen by the threads that
make it.  What they can see is enough: if each description reads a number for a close at most
once after it was stored, then no description closes a connection of another one; and if each of
them sends and is answered on open connections of its own only, then nothing is sent on a
connection of another one, or taken from it.  Each description relies on this for its own part,
and gives the same to the others.
-/

namespace ControlEngine

/-- What a whole `send` has put on a connection, it has put on an open one of its client. -/
theorem Event.object_ne_none_of_whole {e : Event} (hwhole : e.whole = true)
    (hbytes : e.bytesSent ≠ []) : e.object ≠ none := by
  cases e with
  | send call object bytes n =>
      have hn : n ≠ -1 := by
        rintro rfl
        exact hbytes rfl
      cases call with
      | frame m part =>
          have hsent : n = -1 ∨ (object ≠ none ∧ n = bytes.length) := by
            simpa [Event.whole] using hwhole
          exact (hsent.resolve_left hn).1
      | ping => exact absurd (by simpa [Event.whole] using hwhole) hn
  | _ => exact absurd rfl hbytes

theorem Event.object_ne_none_of_answered {e : Event} (hanswered : e.answered = true)
    (hbytes : e.bytesReceived ≠ []) : e.object ≠ none := by
  cases e with
  | recv object result =>
      cases result with
      | data chunk =>
          have hopen : object ≠ none := by simpa [Event.answered] using hanswered
          exact hopen
      | error => exact absurd rfl hbytes
  | _ => exact absurd rfl hbytes

variable {κ : Type*}

/-- A `close` is made on an object of the description itself. -/
def Call.ClosesOwn (call : Call κ) : Prop :=
  ∀ fd object, call.event = .close fd object → ∃ object, call.object = some (call.caller, object)

namespace Process

variable [DecidableEq κ] {env : Environment} {p q : Process κ} {act : κ × Act}
variable {e : Event}

/-- A number that was taken while it was untaken is closed on an object of the description. -/
theorem own_of_takesUntaken (h : (p.view act.1).Owned)
    (hguard : TakesUntaken env (p.view act.1) act.2) (hstep : step env p act = some q)
    {fd : Fd} {object : Option ℕ}
    (hevent : (p.view act.1).eventOf env act.2 = some (.close fd object)) :
    ∃ object, p.object act = some (act.1, object) := by
  obtain ⟨e, s, hevent', hs, -⟩ := step_cases hstep
  obtain rfl := Option.some.inj (hevent'.symm.trans hevent)
  apply own_of_object hevent
  obtain ⟨-, hhistory, -⟩ := System.focus_of_event .controller hs hevent
  apply (owned_step h hguard hs).closes (.close fd object)
  rw [hhistory]
  exact List.mem_append_right _ List.mem_cons_self

theorem localStep_of_takesUntaken (h : (p.view act.1).Owned)
    (hguard : TakesUntaken env (p.view act.1) act.2) (hstep : step env p act = some q) :
    LocalStep (System.step env) view p q act := by
  apply localStep_of_step hstep
  intro fd object hevent
  exact fst_eq_of_own (own_of_takesUntaken h hguard hstep hevent)

/-- Every client owns what it holds, and every `close` so far was made on an object of the
description itself. -/
structure Owned (p : Process κ) : Prop where
  views : ∀ i, (p.view i).Owned
  closes : ∀ call ∈ p.history, call.ClosesOwn

theorem Owned.start : (start : Process κ).Owned where
  views _ := owned_start
  closes call hcall := by cases hcall

theorem Owned.step (h : p.Owned) (hguard : TakesUntaken env (p.view act.1) act.2)
    (hstep : step env p act = some q) : q.Owned := by
  have hlocal := localStep_of_takesUntaken (h.views act.1) hguard hstep
  constructor
  · exact hlocal.forall_view (P := fun _ s => s.Owned) h.views
      (owned_step (h.views act.1) hguard hlocal.steps)
  · obtain ⟨e, s, hevent, -, -, rfl⟩ := step_cases hstep
    intro call hcall
    rcases List.mem_append.mp hcall with hearlier | hlast
    · exact h.closes call hearlier
    · rw [List.mem_singleton.mp hlast]
      rintro fd object rfl
      exact own_of_takesUntaken (h.views act.1) hguard hstep hevent

/-- No description closes a connection of another one: in every run in which each description
reads a number that it has stored for a close at most once, and no other number, every `close` is
made on an object of the description itself, and the state of each description is one that its own
acts lead to.  What its calls return on a number that is not open for it is left to the run. -/
theorem closesNoOther_of_takesUntaken
    (hrun : Guarded (step env) (fun p act => TakesUntaken env (p.view act.1) act.2) start p) :
    (∀ call ∈ p.history, call.ClosesOwn) ∧
      ∀ i, Guarded (System.step env) (TakesUntaken env) System.start (p.view i) := by
  constructor
  · exact (hrun.invariant Owned.start fun _ _ _ h hguard hstep => h.step hguard hstep).closes
  · intro i
    have hviews := hrun.components (fun _ => owned_start)
      (fun _ _ _ h hguard hstep => owned_step h hguard hstep)
      (fun _ act _ h hguard hstep => localStep_of_takesUntaken (h act.1) hguard hstep) i
    exact hviews.2

/-- Two descriptions are given the same number, one after the other. -/
def restartBoth : List (ℕ × Act) := restartOnce.map (0, ·) ++ restartOnce.map (1, ·)

theorem closesNoOther_of_takesUntaken_restartBoth :
    ∃ p : Process ℕ, runActs (step Environment.plain)
        (fun p act => TakesUntaken Environment.plain (p.view act.1) act.2) start restartBoth =
          some p ∧
      ⟨0, .close 5 (some 0), some (0, 0)⟩ ∈ p.history ∧
      ⟨1, .close 5 (some 0), some (1, 0)⟩ ∈ p.history ∧ ∀ call ∈ p.history, call.ClosesOwn := by
  obtain ⟨p, hrun, hfirst, hsecond⟩ : ∃ p : Process ℕ, runActs (step Environment.plain)
        (fun p act => TakesUntaken Environment.plain (p.view act.1) act.2) start restartBoth =
          some p ∧
      ⟨0, .close 5 (some 0), some (0, 0)⟩ ∈ p.history ∧
      ⟨1, .close 5 (some 0), some (1, 0)⟩ ∈ p.history := ⟨_, rfl, by decide, by decide⟩
  exact ⟨p, hrun, hfirst, hsecond, (closesNoOther_of_takesUntaken (guarded_of_runActs hrun)).1⟩

/-! ## Delivery -/

/-- The description reads numbers for a close only while they are untaken, and its frames arrive
whole or not at all. -/
def KeepsOwnFrames (env : Environment) (s : System) (act : Act) : Prop :=
  TakesUntaken env s act ∧ KeepsFrames env s act

instance (env : Environment) (s : System) (act : Act) : Decidable (KeepsOwnFrames env s act) :=
  inferInstanceAs (Decidable (_ ∧ _))

theorem separate_of_keepsOwnFrames
    (hrun : Guarded (step env) (fun p act => KeepsOwnFrames env (p.view act.1) act.2) start p) :
    p.Separate Event.bytesSent := by
  have hstart : (start : Process κ).Separate Event.bytesSent := fun _ _ => rfl
  apply hrun.invariant hstart
  intro p act q h hguard hstep
  obtain ⟨e, -, hevent, -⟩ := step_cases hstep
  apply separate_step h hstep hevent
  intro hbytes
  have hopen := Event.object_ne_none_of_whole (hguard.2 e hevent).1 hbytes
  exact fst_eq_of_own (own_of_object hevent hopen)

/-- One description sends and loses its connection, and the other one sends on the same number. -/
def sendBoth : List (ℕ × Act) :=
  (sendOneByte ++ loseConnection).map (0, ·) ++ (connect 7 6).map (1, ·) ++
    (sendOneByte.drop (connect 5 6).length).map (1, ·)

/-- The process with what each reader has reported, as far as header fields arrive whole. -/
def stepReporting (env : Environment) (u : Process κ × (κ → List TcpMessage)) (act : κ × Act) :
    Option (Process κ × (κ → List TcpMessage)) :=
  if (u.1.view act.1).headerWhole act.2 then
    (step env u.1 act).map fun q =>
      (q, Function.update u.2 act.1 (u.2 act.1 ++ System.reported env (u.1.view act.1) act.2))
  else
    none

/-- The part of a description. -/
def viewReporting (u : Process κ × (κ → List TcpMessage)) (i : κ) : System × List TcpMessage :=
  (u.1.view i, u.2 i)

/-- The description reads numbers for a close only while they are untaken, and its reader is
answered on open connections that are not replaced under a frame. -/
def KeepsOwnReading (env : Environment) (s : System × List TcpMessage) (act : Act) : Prop :=
  TakesUntaken env s.1 act ∧ KeepsReading env s act

instance (env : Environment) (s : System × List TcpMessage) (act : Act) :
    Decidable (KeepsOwnReading env s act) :=
  inferInstanceAs (Decidable (_ ∧ _))

variable {u v : Process κ × (κ → List TcpMessage)}

theorem stepReporting_cases (h : stepReporting env u act = some v) :
    (u.1.view act.1).headerWhole act.2 = true ∧ step env u.1 act = some v.1 ∧
      v.2 = Function.update u.2 act.1
        (u.2 act.1 ++ System.reported env (u.1.view act.1) act.2) := by
  obtain ⟨hwhole, hrest⟩ := Option.ite_none_right_eq_some.mp h
  obtain ⟨q, hstep, rfl⟩ := Option.map_eq_some_iff.mp hrest
  exact ⟨hwhole, hstep, rfl⟩

theorem localStep_reporting (h : (u.1.view act.1).Owned)
    (hguard : TakesUntaken env (u.1.view act.1) act.2) (hstep : stepReporting env u act = some v) :
    LocalStep (observed (System.stepWhole env) (System.reported env)) viewReporting u v act := by
  obtain ⟨hwhole, hprocess, hreports⟩ := stepReporting_cases hstep
  have hlocal := localStep_of_takesUntaken h hguard hprocess
  constructor
  · rw [viewReporting, observed, System.stepWhole, if_pos hwhole, hlocal.steps, viewReporting,
      hreports, Function.update_self]
    rfl
  · intro j hji
    rw [viewReporting, viewReporting, hlocal.others j hji, hreports, Function.update_of_ne hji]

theorem owned_step_whole {s t : System × List TcpMessage} {act : Act} (h : s.1.Owned)
    (hguard : TakesUntaken env s.1 act)
    (hstep : observed (System.stepWhole env) (System.reported env) s act = some t) :
    t.1.Owned :=
  owned_step h hguard (Option.ite_none_right_eq_some.mp (observed_cases hstep).1).2

theorem separate_of_keepsOwnReading
    (hrun : Guarded (stepReporting env)
      (fun u act => KeepsOwnReading env (viewReporting u act.1) act.2) (start, fun _ => []) u) :
    u.1.Separate Event.bytesReceived := by
  have hstart : (start : Process κ).Separate Event.bytesReceived := fun _ _ => rfl
  apply hrun.invariant hstart
  intro u act v h hguard hstep
  obtain ⟨-, hprocess, -⟩ := stepReporting_cases hstep
  obtain ⟨e, -, hevent, -⟩ := step_cases hprocess
  apply separate_step h hprocess hevent
  intro hbytes
  obtain ⟨hanswered, -⟩ := hguard.2.2 e hevent
  exact fst_eq_of_own (own_of_object hevent (Event.object_ne_none_of_answered hanswered hbytes))

/-- Receiving side by side: in every run in which each description keeps to itself in this way,
each reader reports, connection by connection, the first messages that were sent to it, and what
was taken from its connections is what it has taken, whatever the other descriptions do
meanwhile. -/
theorem everyDescription_receives
    (hrun : Guarded (stepReporting env)
      (fun u act => KeepsOwnReading env (viewReporting u act.1) act.2) (start, fun _ => []) u)
    (i : κ) :
    ∃ receipts, System.Receives (u.1.view i, u.2 i) env.order receipts ∧
      ∀ object, u.1.traffic Event.bytesReceived (i, object) =
        receivedOn object (u.1.view i).history := by
  have hkept : ∀ s act t, s.1.Owned → KeepsOwnReading env s act →
      observed (System.stepWhole env) (System.reported env) s act = some t → t.1.Owned :=
    fun s act t h hguard hstep => owned_step_whole h hguard.1 hstep
  have hviews := hrun.components (by exact fun _ => owned_start) hkept
    (fun _ act _ h hguard hstep => localStep_reporting (h act.1) hguard.1 hstep) i
  have hkeeps : Guarded (observed (System.stepWhole env) (System.reported env)) (KeepsReading env)
      (System.start, []) (u.1.view i, u.2 i) :=
    hviews.2.mono fun _ _ hguard => hguard.2
  obtain ⟨receipts, tail, hintake⟩ := intake_of_keepsReading hkeeps
  refine ⟨receipts, hintake.receives, ?_⟩
  intro object
  rw [receivedOn_eq_trafficOn]
  exact separate_of_keepsOwnReading hrun i object

/-- A frame is read, and the connection is closed under the next one. -/
def readAndFail : List Act :=
  connect 5 6 ++ readTwoBytes ++ readTwoBytes.take 7 ++ [.thread .reader (.receives .error)] ++
    List.replicate 5 (.thread .reader .plain)

/-- One description reads and loses its connection, and the other one reads from the same
number. -/
def readBoth : List (ℕ × Act) :=
  readAndFail.map (0, ·) ++ (connect 7 6 ++ readTwoBytes).map (1, ·)

theorem everyDescription_receives_readBoth :
    ∃ u : Process ℕ × (ℕ → List TcpMessage), runActs (stepReporting Environment.plain)
        (fun u act => KeepsOwnReading Environment.plain (viewReporting u act.1) act.2)
        (start, fun _ => []) readBoth = some u ∧
      ∀ i < 2, ∃ receipts, System.Receives (u.1.view i, u.2 i) .little receipts ∧
        receipts.length = 1 := by
  obtain ⟨u, hrun, hboth⟩ : ∃ u : Process ℕ × (ℕ → List TcpMessage),
      runActs (stepReporting Environment.plain)
        (fun u act => KeepsOwnReading Environment.plain (viewReporting u act.1) act.2)
        (start, fun _ => []) readBoth = some u ∧ ∀ i < 2, (u.2 i).length = 1 := by
    set_option maxRecDepth 20000 in
    exact ⟨_, rfl, by decide⟩
  refine ⟨u, hrun, ?_⟩
  intro i hi
  obtain ⟨receipts, hreceives, -⟩ := everyDescription_receives (guarded_of_runActs hrun) i
  have hlength := congrArg List.length hreceives.reports
  rw [List.length_map, hboth i hi] at hlength
  exact ⟨receipts, hreceives, hlength⟩

end Process

end ControlEngine
