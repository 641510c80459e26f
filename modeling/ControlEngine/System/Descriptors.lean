import ControlEngine.System.Ownership

/-!
# Which descriptors are lost

A descriptor is closed through `socketObject` or through a local variable that its number was
read into.  `createSocket` stores a new number without a look at the old one, on the strength of
`connectionStatus` alone, and `closeSocket` clears the status before it reads the number.  If a
socket is created between the two, the connection stays open and nobody knows its number.

`Tracks` says that this has not happened; like `Ownership` it speaks of the client and of the
numbers that the threads hold.
-/

namespace ControlEngine

/-- A thread has the number in a variable of the given kind. -/
def Held (holds : Tid → Option Fd) (fd : Fd) : Prop := ∃ t, holds t = some fd

/-- Every open descriptor is in `socketObject`, or a thread holds its number. -/
def Tracks (c : Client) (taken obtained : Tid → Option Fd) : Prop :=
  ∀ fd, c.descriptors fd ≠ none → fd = c.socketObject ∨ Held taken fd ∨ Held obtained fd

/-- The number in `socketObject` may be overwritten with `fd`: it is the same one, or that of no
open descriptor, or a thread is about to close it. -/
def Client.Overwrites (c : Client) (taken : Tid → Option Fd) (fd : Fd) : Prop :=
  fd = c.socketObject ∨ c.descriptors c.socketObject = none ∨ Held taken c.socketObject

/-- A thread that changes its variable still holds a number if the new value is that one. -/
theorem Held.update {holds : Tid → Option Fd} {t : Tid} {value : Option Fd} {fd : Fd}
    (h : Held holds fd) (hkeep : holds t = some fd → value = some fd) :
    Held (Function.update holds t value) fd := by
  obtain ⟨t', ht'⟩ := h
  by_cases hsame : t' = t
  · subst hsame
    exact ⟨t', (Function.update_self _ _ _).trans (hkeep ht')⟩
  · exact ⟨t', (Function.update_of_ne hsame _ _).trans ht'⟩

theorem held_update_self (holds : Tid → Option Fd) (t : Tid) (fd : Fd) :
    Held (Function.update holds t (some fd)) fd :=
  ⟨t, Function.update_self _ _ _⟩

namespace Tracks

variable {c : Client} {e : Event} {taken obtained : Tid → Option Fd} {t : Tid} {fd : Fd}

theorem take (h : Tracks c taken obtained) (hnone : taken t = none) :
    Tracks c (Function.update taken t (some c.socketObject)) obtained := by
  intro fd hfd
  rcases h fd hfd with hstored | htaken | hobtained
  · exact Or.inl hstored
  · refine Or.inr (Or.inl (htaken.update ?_))
    intro hsome
    cases hnone.symm.trans hsome
  · exact Or.inr (Or.inr hobtained)

theorem close (h : Tracks c taken obtained) (htaken : taken t = some fd) :
    Tracks { c with descriptors := Function.update c.descriptors fd none }
      (Function.update taken t none) obtained := by
  intro fd' hfd'
  have hne : fd' ≠ fd := by
    rintro rfl
    exact hfd' (Function.update_self _ _ _)
  have hopen : c.descriptors fd' ≠ none := by
    intro hclosed
    exact hfd' ((Function.update_of_ne hne _ _).trans hclosed)
  rcases h fd' hopen with hstored | hheld | hobtained
  · exact Or.inl hstored
  · refine Or.inr (Or.inl (hheld.update ?_))
    intro hsome
    exact absurd (Option.some.inj (hsome.symm.trans htaken)) hne
  · exact Or.inr (Or.inr hobtained)

theorem obtain_open (h : Tracks c taken obtained) (hnone : obtained t = none) (object : ℕ) :
    Tracks
      { c with
        descriptors := Function.update c.descriptors fd (some object)
        created := c.created + 1 }
      taken (Function.update obtained t (some fd)) := by
  intro fd' hfd'
  by_cases hsame : fd' = fd
  · subst hsame
    exact Or.inr (Or.inr (held_update_self obtained t fd'))
  · have hopen : c.descriptors fd' ≠ none := by
      intro hclosed
      exact hfd' ((Function.update_of_ne hsame _ _).trans hclosed)
    rcases h fd' hopen with hstored | htaken | hobtained
    · exact Or.inl hstored
    · exact Or.inr (Or.inl htaken)
    · refine Or.inr (Or.inr (hobtained.update ?_))
      intro hsome
      cases hnone.symm.trans hsome

/-- The number that was obtained is in `socketObject` now, and that before it was not needed. -/
theorem assign (h : Tracks c taken obtained) (hown : ∀ fd', obtained t = some fd' → fd' = fd)
    (hover : c.Overwrites taken fd) :
    Tracks { c with socketObject := fd } taken (Function.update obtained t none) := by
  intro fd' hfd'
  by_cases hsame : fd' = fd
  · exact Or.inl hsame
  · rcases h fd' hfd' with rfl | htaken | hobtained
    · rcases hover with rfl | hclosed | htaken
      · exact Or.inl rfl
      · exact absurd hclosed hfd'
      · exact Or.inr (Or.inl htaken)
    · exact Or.inr (Or.inl htaken)
    · refine Or.inr (Or.inr (hobtained.update ?_))
      intro hsome
      exact absurd (hown fd' hsome) hsame

/-- If the store has lost nothing, the old number might be overwritten. -/
theorem overwrites (h : Tracks { c with socketObject := fd } taken obtained)
    (hobtained : ∀ t fd', obtained t ≠ some fd') : c.Overwrites taken fd := by
  by_cases hclosed : c.descriptors c.socketObject = none
  · exact Or.inr (Or.inl hclosed)
  · rcases h c.socketObject hclosed with hsame | htaken | ⟨t, hheld⟩
    · exact Or.inl hsame.symm
    · exact Or.inr (Or.inr htaken)
    · exact absurd hheld (hobtained t _)

theorem congr {c' : Client} (h : Tracks c taken obtained)
    (hdescriptors : c'.descriptors = c.descriptors)
    (hsocketObject : c'.socketObject = c.socketObject) : Tracks c' taken obtained := by
  unfold Tracks
  rwa [hdescriptors, hsocketObject]

/-- A step of a thread loses no descriptor, unless it is a store over one. -/
theorem transfer {taken' obtained' : Option Fd} (h : Tracks c taken obtained)
    (hmove : Transfer c e (taken t) taken' (obtained t) obtained')
    (hassign : ∀ fd, e = .assignSocketObject fd →
      (∀ fd', obtained t = some fd' → fd' = fd) ∧ c.Overwrites taken fd) :
    Tracks (c.after e) (Function.update taken t taken') (Function.update obtained t obtained') := by
  generalize htaken : taken t = before at hmove
  generalize hobtained : obtained t = before' at hmove
  have htakenSame : Function.update taken t before = taken := by
    rw [← htaken, Function.update_eq_self]
  have hobtainedSame : Function.update obtained t before' = obtained := by
    rw [← hobtained, Function.update_eq_self]
  cases hmove with
  | take =>
      rw [hobtainedSame]
      exact h.take htaken
  | close =>
      rw [hobtainedSame]
      exact h.close htaken
  | socket hfree =>
      rw [htakenSame]
      exact h.obtain_open hobtained c.created
  | accept hfree =>
      rw [htakenSame]
      exact h.obtain_open hobtained c.created
  | assign hown =>
      rw [htakenSame]
      obtain ⟨hstored, hover⟩ := hassign _ rfl
      exact h.assign hstored hover
  | quiet hquiet =>
      rw [htakenSame, hobtainedSame]
      cases e <;> first | exact h.congr rfl rfl | exact hquiet.elim

end Tracks

/-! ## The stores -/

variable {env : Environment} {c : Client} {e : Event} {s s' : System} {act : Act}

/-- `acceptSocket` has closed the listener before it stores the accepted number. -/
def ControllerPc.ListenerClosed (c : Client) : ControllerPc → Prop
  | .closeListener _ fd => fd = c.socketObject
  | .storeAccepted _ => c.descriptors c.socketObject = none
  | _ => True

theorem ControllerMove.listenerClosed {pc pc' : ControllerPc} (h : ControllerMove env c pc e pc')
    (hpc : pc.ListenerClosed c) : pc'.ListenerClosed (c.after e) := by
  cases h with
  | closeListenerFetch => rfl
  | @closeListener t fd =>
      have hsame : fd = c.socketObject := hpc
      subst hsame
      exact Function.update_self _ _ _
  | closing hclose => cases hclose <;> trivial
  | _ => trivial

/-- The events of the other threads leave `socketObject` alone, and what is closed stays
closed. -/
theorem ControllerPc.ListenerClosed.after {pc : ControllerPc} (h : pc.ListenerClosed c)
    (he : e.exclusive ≠ some .controller) : pc.ListenerClosed (c.after e) := by
  have hsocketObject : (c.after e).socketObject = c.socketObject := by
    cases e with
    | assignSocketObject fd => exact absurd rfl he
    | _ => rfl
  have hclosed : ∀ fd, c.descriptors fd = none → (c.after e).descriptors fd = none := by
    intro fd hfd
    cases e with
    | socket fd' object => exact absurd rfl he
    | accept listener fd' object => exact absurd rfl he
    | close fd' object =>
        by_cases hsame : fd = fd'
        · subst hsame
          exact Function.update_self _ _ _
        · exact (Function.update_of_ne hsame _ _).trans hfd
    | _ => exact hfd
  cases pc with
  | closeListener t fd => exact Eq.trans h hsocketObject.symm
  | storeAccepted t =>
      have hlistener : c.descriptors c.socketObject = none := h
      change (c.after e).descriptors (c.after e).socketObject = none
      rw [hsocketObject]
      exact hclosed _ hlistener
  | _ => trivial

/-- `socketObject` is stored to in `createSocket` and in `acceptSocket`. -/
theorem ControllerMove.stores {pc pc' : ControllerPc} {fd : Fd}
    (h : ControllerMove env c pc (.assignSocketObject fd) pc') :
    (∀ fd', Tid.controller.obtained pc = some fd' → fd' = fd) ∧
      (pc = .storeSocket fd ∨ pc = .storeAccepted fd) ∧
      Tid.controller.taken pc = none ∧ Tid.controller.taken pc' = none ∧
      Tid.controller.obtained pc' = none := by
  cases h with
  | storeSocket =>
      refine ⟨?_, Or.inl rfl, rfl, rfl, rfl⟩
      intro fd' hfd'
      exact (Option.some.inj (Option.ite_none_right_eq_some.mp hfd').2).symm
  | storeAccepted =>
      refine ⟨?_, Or.inr rfl, rfl, rfl, rfl⟩
      intro fd' hfd'
      exact (Option.some.inj hfd').symm
  | closing hclose => cases hclose

theorem Tid.obtained_eq_none {t : Tid} (ht : t ≠ .controller) (pc : t.Pc) :
    t.obtained pc = none := by
  cases t with
  | controller => exact absurd rfl ht
  | _ => rfl

/-! ## Runs -/

/-- No descriptor is lost: whatever the client has open is in `socketObject`, or a thread holds
its number. -/
def System.LosesNone (s : System) : Prop :=
  Tracks s.client (fun t => t.taken (s.threads t)) (fun t => t.obtained (s.threads t))

/-- When `createSocket` stores its number, the one that was there has been closed, or a thread is
about to close it. -/
def CreatesOverClosed (s : System) (act : Act) : Prop :=
  act.tid = some .controller → ∀ fd, s.threads .controller = ControllerPc.storeSocket fd →
    s.client.Overwrites (fun t => t.taken (s.threads t)) fd

theorem taken_update (threads : (t : Tid) → t.Pc) (t : Tid) (pc : t.Pc) :
    (fun t' : Tid => t'.taken (Function.update threads t pc t')) =
      Function.update (fun t' => t'.taken (threads t')) t (t.taken pc) :=
  funext (Function.apply_update (fun t' => t'.taken) threads t pc)

theorem obtained_update (threads : (t : Tid) → t.Pc) (t : Tid) (pc : t.Pc) :
    (fun t' : Tid => t'.obtained (Function.update threads t pc t')) =
      Function.update (fun t' => t'.obtained (threads t')) t (t.obtained pc) :=
  funext (Function.apply_update (fun t' => t'.obtained) threads t pc)

/-- The invariant of the runs in which this is so. -/
structure System.KeepsTrack (s : System) : Prop where
  losesNone : s.LosesNone
  listenerClosed : ControllerPc.ListenerClosed s.client (s.threads .controller)

theorem keepsTrack_start : System.start.KeepsTrack where
  losesNone := by
    intro fd hfd
    exact absurd rfl hfd
  listenerClosed := trivial

theorem System.KeepsTrack.listenerClosed_step (h : s.KeepsTrack)
    (hstep : s.step env act = some s') :
    ControllerPc.ListenerClosed s'.client (s'.threads .controller) := by
  obtain ⟨e, -, hclient, -, hcontroller | hother⟩ := System.focus .controller hstep
  · obtain ⟨-, outcome, hthread⟩ := hcontroller
    rw [hclient]
    exact (controllerMove_of_step hthread).listenerClosed h.listenerClosed
  · obtain ⟨-, hexclusive, hsame⟩ := hother
    rw [hclient, hsame]
    exact h.listenerClosed.after hexclusive

theorem keepsTrack_step (h : s.KeepsTrack) (hguard : CreatesOverClosed s act)
    (hstep : s.step env act = some s') : s'.KeepsTrack := by
  refine ⟨?_, h.listenerClosed_step hstep⟩
  rcases System.step_cases hstep with
    ⟨t, outcome, e, pc, rfl, hthread, -, rfl⟩ | ⟨data, m, -, -, -, rfl⟩
  · simp only [System.LosesNone, System.record, taken_update, obtained_update]
    apply h.losesNone.transfer (transfer_of_threadStep hthread)
    rintro fd rfl
    have hcontroller : t = .controller := by
      rcases exclusive_of_threadStep hthread with hnone | hown
      · cases hnone
      · exact (Option.some.inj hown).symm
    subst hcontroller
    obtain ⟨hstored, hpc, -⟩ := (controllerMove_of_step hthread).stores
    refine ⟨hstored, ?_⟩
    rcases hpc with hcreate | haccept
    · exact hguard rfl fd hcreate
    · have hclosed := h.listenerClosed
      rw [haccept] at hclosed
      exact Or.inr (Or.inl hclosed)
  · exact h.losesNone.congr rfl rfl

/-- A store of `createSocket` that loses nothing has been made over a closed descriptor, or one
that is about to be closed. -/
theorem createsOverClosed_of_losesNone (hstep : s.step env act = some s') (h : s'.LosesNone) :
    CreatesOverClosed s act := by
  intro htid fd hpc
  rcases System.step_cases hstep with
    ⟨t, outcome, e, pc, rfl, hthread, -, rfl⟩ | ⟨data, m, rfl, -, -, -⟩
  · obtain rfl : t = .controller := Option.some.inj htid
    rw [hpc] at hthread
    cases controllerMove_of_step hthread with
    | @storeSocket fd call =>
        have hnone : Tid.controller.taken (s.threads .controller) = none := by
          rw [hpc]
          rfl
        have htaken := taken_update s.threads .controller (ControllerPc.setupFetch call)
        have hsame := Function.update_eq_self Tid.controller fun t : Tid => t.taken (s.threads t)
        rw [hnone] at hsame
        have hkept := htaken.trans hsame
        rw [System.LosesNone, System.record, hkept] at h
        apply Tracks.overwrites h
        intro t fd'
        by_cases ht : t = .controller
        · subst ht
          have hpc' : Function.update s.threads .controller (ControllerPc.setupFetch call)
              .controller = ControllerPc.setupFetch call := Function.update_self _ _ _
          simp only [hpc']
          exact (Option.some_ne_none fd').symm
        · rw [Tid.obtained_eq_none ht]
          exact (Option.some_ne_none fd').symm
  · cases htid

/-- No descriptor is lost in a run exactly if each `createSocket` of the run stores its number
over one that has been closed, or that a thread is about to close. -/
theorem losesNone_iff_createsOverClosed (acts : List Act) :
    Along (System.step env) System.LosesNone System.start acts ↔
      Permitted (System.step env) CreatesOverClosed System.start acts :=
  along_iff_permitted acts keepsTrack_start (fun _ h => h.losesNone)
    (fun _ _ _ h hguard hstep => keepsTrack_step h hguard hstep)
    (fun _ _ _ _ hstep h => createsOverClosed_of_losesNone hstep h)

-- `restartNetwork` has cleared the status, and a socket is created before it reads the number.
example :
    (runActs (System.step Environment.plain) (fun _ _ => True) System.start
        (connect 5 6 ++ List.replicate 2 (.thread (.restart 0) .plain) ++
          List.replicate 2 (.thread .controller .plain) ++
          [.thread .controller (.returns 7), .thread .controller .plain])).map
      (fun s => (s.client.socketObject, s.client.descriptors 6)) = some (7, some 1) :=
  rfl

end ControlEngine
