import ControlEngine.System.Moves

/-!
# Who may close a descriptor

`closeSocket` and `acceptSocket` read `socketObject` and close the number they have
read.  Nothing tells them whether the number has been read for a close before, or
was stored by a failed call.  `untaken` is the missing test, as a predicate on the
history.  In runs that pass it, `Ownership` is an invariant: the numbers that
threads have taken to close, the one that was obtained and is not stored yet, and
the one in `socketObject` while it is untaken, are open and all different.

The invariant speaks about the client and about which numbers the threads hold;
`Transfer` lists what a step can do to these, for all threads alike.
-/

namespace ControlEngine

/-- Whether `socketObject` is untaken after an event. -/
def Event.untaken (before : Bool) : Event → Bool
  | .assignSocketObject fd => decide (0 ≤ fd)
  | .takeSocketObject => false
  | _ => before

/-- The number in `socketObject` was stored by a successful `socket` or `accept`, and
has not been read for a close since. -/
def untaken (history : List Event) : Bool := history.foldl Event.untaken false

/-- A `close` is applied to a descriptor that this client obtained and has not closed
since. -/
def Event.ClosesOwn : Event → Prop
  | .close _ object => object ≠ none
  | _ => True

/-! ## What the threads hold -/

/-- The number that was read for a close. -/
def ClosePc.taken : ClosePc → Option Fd
  | .close fd => some fd
  | _ => none

/-- The number that a thread has read for a close. -/
def Tid.taken : (t : Tid) → t.Pc → Option Fd
  | .controller, .closeListener _ fd => some fd
  | .controller, .pingFailing pc => pc.taken
  | .writer, .failing _ pc => pc.taken
  | .reader, .failing _ pc => pc.taken
  | .restart _, some pc => pc.taken
  | _, _ => none

/-- The descriptor that a thread has obtained and has not stored yet. -/
def Tid.obtained : (t : Tid) → t.Pc → Option Fd
  | .controller, .storeSocket fd => if 0 ≤ fd then some fd else none
  | .controller, .closeListenerFetch tempSocketObject => some tempSocketObject
  | .controller, .closeListener tempSocketObject _ => some tempSocketObject
  | .controller, .storeAccepted tempSocketObject => some tempSocketObject
  | _, _ => none

/-- Events that touch neither the descriptors nor `socketObject`. -/
def Event.Quiet : Event → Prop
  | .takeSocketObject | .assignSocketObject _ | .close _ _ | .socket _ _
  | .accept _ _ _ => False
  | _ => True

/-- What a step does to the numbers that its thread has taken and obtained. -/
inductive Transfer (c : Client) :
    Event → Option Fd → Option Fd → Option Fd → Option Fd → Prop
  | take {obtained : Option Fd} :
      Transfer c .takeSocketObject none (some c.socketObject) obtained obtained
  | close {fd : Fd} {obtained : Option Fd} :
      Transfer c (.close fd (c.descriptors fd)) (some fd) none obtained obtained
  | socket {fd : Fd} (hfree : c.descriptors fd = none) :
      Transfer c (.socket fd c.created) none none none (some fd)
  | accept {listener : Option ℕ} {fd : Fd} (hfree : c.descriptors fd = none) :
      Transfer c (.accept listener fd c.created) none none none (some fd)
  | assign {fd : Fd} {obtained : Option Fd} (hown : 0 ≤ fd → obtained = some fd) :
      Transfer c (.assignSocketObject fd) none none obtained none
  | quiet {e : Event} {taken obtained : Option Fd} (hquiet : e.Quiet) :
      Transfer c e taken taken obtained obtained

variable {env : Environment} {c : Client} {e : Event}

theorem transfer_of_writerMove {pc pc' : WriterPc} (h : WriterMove env c pc e pc') :
    Transfer c e (Tid.writer.taken pc) (Tid.writer.taken pc') (Tid.writer.obtained pc)
      (Tid.writer.obtained pc') := by
  cases h with
  | closing hclose =>
      cases hclose with
      | clear => exact .quiet trivial
      | fetch => exact .take
      | close => exact .close
  | @send m part fd n hn hlength => cases part <;> exact .quiet trivial
  | _ => exact .quiet trivial

theorem taken_ofProgress (progress : ReadProgress) :
    Tid.reader.taken (ReaderPc.ofProgress progress) = none := by
  cases progress with
  | escaped thrown message => cases thrown <;> rfl
  | _ => rfl

theorem transfer_of_readerMove {pc pc' : ReaderPc} (h : ReaderMove env c pc e pc') :
    Transfer c e (Tid.reader.taken pc) (Tid.reader.taken pc') (Tid.reader.obtained pc)
      (Tid.reader.obtained pc') := by
  cases h with
  | closing hclose =>
      cases hclose with
      | clear => exact .quiet trivial
      | fetch => exact .take
      | close => exact .close
  | enter =>
      rw [taken_ofProgress]
      exact .quiet trivial
  | recv hfits =>
      rw [taken_ofProgress]
      exact .quiet trivial
  | _ => exact .quiet trivial

theorem transfer_of_controllerMove {pc pc' : ControllerPc}
    (h : ControllerMove env c pc e pc') :
    Transfer c e (Tid.controller.taken pc) (Tid.controller.taken pc')
      (Tid.controller.obtained pc) (Tid.controller.obtained pc') := by
  cases h with
  | socketFailed => exact .quiet trivial
  | @socket fd hfd hfree =>
      have hobtained : Tid.controller.obtained (ControllerPc.storeSocket fd) = some fd :=
        if_pos hfd
      rw [hobtained]
      exact .socket hfree
  | @storeSocket fd call =>
      refine .assign ?_
      intro hfd
      exact if_pos hfd
  | accept ht hne hfree => exact .accept hfree
  | closeListenerFetch => exact .take
  | closeListener => exact .close
  | storeAccepted => exact .assign fun _ => rfl
  | closing hclose =>
      cases hclose with
      | clear => exact .quiet trivial
      | fetch => exact .take
      | close => exact .close
  | _ => exact .quiet trivial

theorem transfer_of_restartMove {i : ℕ} {pc pc' : RestartPc} (h : RestartMove c pc e pc') :
    Transfer c e ((Tid.restart i).taken pc) ((Tid.restart i).taken pc')
      ((Tid.restart i).obtained pc) ((Tid.restart i).obtained pc') := by
  cases h with
  | call => exact .quiet trivial
  | closing hclose =>
      cases hclose with
      | clear => exact .quiet trivial
      | fetch => exact .take
      | close => exact .close

/-- Every step of every thread is one of the transfers. -/
theorem transfer_of_threadStep {t : Tid} {pc pc' : t.Pc} {outcome : Outcome}
    (h : threadStep env c t pc outcome = some (e, pc')) :
    Transfer c e (t.taken pc) (t.taken pc') (t.obtained pc) (t.obtained pc') := by
  cases t with
  | controller => exact transfer_of_controllerMove (controllerMove_of_step h)
  | writer => exact transfer_of_writerMove (writerMove_of_step h)
  | reader => exact transfer_of_readerMove (readerMove_of_step h)
  | restart i => exact transfer_of_restartMove (restartMove_of_step h)

/-! ## The invariant -/

/-- The numbers that are held, and the one in `socketObject` while it is untaken, are
open and different from each other. -/
structure Ownership (c : Client) (untaken : Bool) (taken obtained : Tid → Option Fd) :
    Prop where
  taken_open : ∀ t fd, taken t = some fd → c.descriptors fd ≠ none
  taken_once : ∀ t t' fd, taken t = some fd → taken t' = some fd → t = t'
  obtained_open : ∀ t fd, obtained t = some fd → c.descriptors fd ≠ none
  obtained_once : ∀ t t' fd, obtained t = some fd → obtained t' = some fd → t = t'
  obtained_free : ∀ t t' fd, obtained t = some fd → taken t' ≠ some fd
  untaken_open : untaken = true → c.descriptors c.socketObject ≠ none
  untaken_free : untaken = true → ∀ t, taken t ≠ some c.socketObject
  untaken_stored : untaken = true → ∀ t, obtained t ≠ some c.socketObject

namespace Ownership

variable {isUntaken : Bool} {taken obtained : Tid → Option Fd} {t : Tid} {fd : Fd}

/-- An untaken number is open and held by nobody, so it may be taken. -/
theorem take (h : Ownership c true taken obtained) :
    Ownership c false (Function.update taken t (some c.socketObject)) obtained := by
  obtain ⟨hopen, honce, hobtained, hobtainedOnce, hfree, huntaken, hnotTaken, hnotObtained⟩ := h
  constructor <;> grind [Function.update_apply]

/-- The number that a thread has taken is held by no other thread and is not in
`socketObject` untaken, so nothing that is held is closed with it. -/
theorem close (h : Ownership c isUntaken taken obtained) (htaken : taken t = some fd) :
    Ownership { c with descriptors := Function.update c.descriptors fd none } isUntaken
      (Function.update taken t none) obtained := by
  obtain ⟨hopen, honce, hobtained, hobtainedOnce, hfree, huntaken, hnotTaken, hnotObtained⟩ := h
  constructor <;> grind [Function.update_apply]

/-- The kernel hands out a number that is not open, so nobody holds it. -/
theorem obtain_free (h : Ownership c isUntaken taken obtained) (hfd : c.descriptors fd = none)
    (object : ℕ) :
    Ownership
      { c with
        descriptors := Function.update c.descriptors fd (some object)
        created := c.created + 1 }
      isUntaken taken (Function.update obtained t (some fd)) := by
  obtain ⟨hopen, honce, hobtained, hobtainedOnce, hfree, huntaken, hnotTaken, hnotObtained⟩ := h
  constructor <;> grind [Function.update_apply]

/-- Storing an obtained number makes it the untaken one; storing a `-1` leaves none. -/
theorem assign (h : Ownership c isUntaken taken obtained)
    (hown : 0 ≤ fd → obtained t = some fd) :
    Ownership { c with socketObject := fd } (decide (0 ≤ fd)) taken
      (Function.update obtained t none) := by
  obtain ⟨hopen, honce, hobtained, hobtainedOnce, hfree, huntaken, hnotTaken, hnotObtained⟩ := h
  constructor <;> grind [Function.update_apply]

theorem congr {c' : Client} (h : Ownership c isUntaken taken obtained)
    (hdescriptors : c'.descriptors = c.descriptors)
    (hsocketObject : c'.socketObject = c.socketObject) :
    Ownership c' isUntaken taken obtained := by
  obtain ⟨hopen, honce, hobtained, hobtainedOnce, hfree, huntaken, hnotTaken, hnotObtained⟩ := h
  constructor <;> grind

theorem transfer {taken' obtained' : Option Fd} (h : Ownership c isUntaken taken obtained)
    (hmove : Transfer c e (taken t) taken' (obtained t) obtained')
    (hguard : e = .takeSocketObject → isUntaken = true) :
    Ownership (c.after e) (e.untaken isUntaken) (Function.update taken t taken')
      (Function.update obtained t obtained') := by
  generalize htaken : taken t = before at hmove
  generalize hobtained : obtained t = before' at hmove
  have htakenSame : Function.update taken t before = taken := by
    rw [← htaken, Function.update_eq_self]
  have hobtainedSame : Function.update obtained t before' = obtained := by
    rw [← hobtained, Function.update_eq_self]
  cases hmove with
  | take =>
      rw [hobtainedSame]
      rw [hguard rfl] at h
      exact h.take
  | close =>
      rw [hobtainedSame]
      exact h.close htaken
  | socket hfree =>
      rw [htakenSame]
      exact h.obtain_free hfree c.created
  | accept hfree =>
      rw [htakenSame]
      exact h.obtain_free hfree c.created
  | assign hown =>
      rw [htakenSame]
      exact h.assign (fun hfd => hobtained.trans (hown hfd))
  | quiet hquiet =>
      rw [htakenSame, hobtainedSame]
      cases e <;> first | exact h.congr rfl rfl | exact hquiet.elim

end Ownership

/-! ## Runs -/

/-- The invariant in a state of the system, with what it is for. -/
structure System.Owned (s : System) : Prop where
  ownership : Ownership s.client (untaken s.history) (fun t => t.taken (s.threads t))
    (fun t => t.obtained (s.threads t))
  closes : ∀ e ∈ s.history, e.ClosesOwn

/-- `socketObject` is read for a close only while it is untaken. -/
def TakesUntaken (env : Environment) (s : System) (act : Act) : Prop :=
  s.eventOf env act = some .takeSocketObject → untaken s.history = true

instance (env : Environment) (s : System) (act : Act) : Decidable (TakesUntaken env s act) :=
  inferInstanceAs (Decidable (_ → _))

theorem untaken_append (history : List Event) (e : Event) :
    untaken (history ++ [e]) = e.untaken (untaken history) := by
  simp [untaken]

theorem Transfer.closesOwn {taken taken' obtained obtained' : Option Fd}
    (h : Transfer c e taken taken' obtained obtained')
    (hopen : ∀ fd, taken = some fd → c.descriptors fd ≠ none) : e.ClosesOwn := by
  cases h with
  | close => exact hopen _ rfl
  | quiet hquiet => cases e <;> trivial
  | _ => trivial

theorem owned_start : System.start.Owned where
  ownership := by
    have htaken : ∀ t : Tid, t.taken t.start = none := by
      intro t
      cases t <;> rfl
    have hobtained : ∀ t : Tid, t.obtained t.start = none := by
      intro t
      cases t <;> rfl
    constructor <;> simp [System.start, htaken, hobtained, untaken]
  closes := by simp [System.start]

theorem owned_step {s s' : System} {act : Act} (h : s.Owned)
    (hguard : TakesUntaken env s act) (hstep : s.step env act = some s') : s'.Owned := by
  rcases System.step_cases hstep with
    ⟨t, outcome, e, pc, -, hthread, hevent, rfl⟩ | ⟨data, m, -, -, hevent, rfl⟩
  · have hmove := transfer_of_threadStep hthread
    constructor
    · have hnext := h.ownership.transfer hmove (fun he => hguard (he ▸ hevent))
      have htaken : (fun t' : Tid => t'.taken (Function.update s.threads t pc t')) =
          Function.update (fun t' => t'.taken (s.threads t')) t (t.taken pc) :=
        funext (Function.apply_update (fun t' => t'.taken) s.threads t pc)
      have hobtained : (fun t' : Tid => t'.obtained (Function.update s.threads t pc t')) =
          Function.update (fun t' => t'.obtained (s.threads t')) t (t.obtained pc) :=
        funext (Function.apply_update (fun t' => t'.obtained) s.threads t pc)
      simp only [System.record, untaken_append, htaken, hobtained]
      exact hnext
    · intro e' he'
      rcases List.mem_append.mp he' with hold | hnew
      · exact h.closes e' hold
      · rw [List.mem_singleton.mp hnew]
        exact hmove.closesOwn (h.ownership.taken_open t)
  · constructor
    · simp only [System.record, untaken_append]
      exact h.ownership.congr rfl rfl
    · intro e' he'
      rcases List.mem_append.mp he' with hold | hnew
      · exact h.closes e' hold
      · rw [List.mem_singleton.mp hnew]
        trivial

/-- Descriptor ownership: in every run in which each successfully stored number is
read for a close at most once, and no other number is, every `close` is applied to a
descriptor that the client has obtained and not closed since. -/
theorem closesOwn_of_takesUntaken {s : System}
    (hrun : Guarded (System.step env) (TakesUntaken env) System.start s) :
    ∀ e ∈ s.history, e.ClosesOwn :=
  (hrun.invariant owned_start fun _ _ _ h hguard hstep => owned_step h hguard hstep).closes

/-- A socket is created, and one call of `restartNetwork` closes it. -/
def restartOnce : List Act :=
  [.thread .controller .plain, .thread .controller (.returns 5), .thread .controller .plain,
    .thread (.restart 0) .plain, .thread (.restart 0) .plain, .thread (.restart 0) .plain,
    .thread (.restart 0) .plain]

theorem closesOwn_of_takesUntaken_restartOnce :
    ∃ s, runActs (System.step Environment.plain) (TakesUntaken Environment.plain)
        System.start restartOnce = some s ∧ ∀ e ∈ s.history, e.ClosesOwn := by
  obtain ⟨s, hrun⟩ : ∃ s, runActs (System.step Environment.plain)
      (TakesUntaken Environment.plain) System.start restartOnce = some s := ⟨_, rfl⟩
  exact ⟨s, hrun, closesOwn_of_takesUntaken (guarded_of_runActs hrun)⟩

/-- A second call closes the number again. -/
def restartTwice : List Act := restartOnce ++ List.replicate 4 (.thread (.restart 1) .plain)

theorem not_closesOwn_restartTwice :
    ∃ s, Reaches (System.step Environment.plain) System.start s ∧
      ¬ ∀ e ∈ s.history, e.ClosesOwn := by
  obtain ⟨s, hrun, hclosed⟩ : ∃ s,
      runActs (System.step Environment.plain) (fun _ _ => True) System.start restartTwice =
        some s ∧ Event.close 5 none ∈ s.history := ⟨_, rfl, by decide⟩
  exact ⟨s, guarded_of_runActs hrun, fun h => h _ hclosed rfl⟩

end ControlEngine
