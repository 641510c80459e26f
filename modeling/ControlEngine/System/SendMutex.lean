import ControlEngine.System.Moves
import ControlEngine.Support.Lock

/-!
# Any number of threads in `sendData`

`sendData` tests `connectionStatus` before it locks `sendMutex`, and the branch for a
client that is not connected unlocks the mutex all the same.  A thread that takes this
branch while another one is between its sends lets a third one in.  As long as nobody
takes it, the mutex is unlocked by the thread that has locked it, and one thread at a
time transmits a frame.

The steps of a call are those of the writer.  Other threads may do anything else with the
client at any moment, in particular set or clear `connectionStatus`.
-/

namespace ControlEngine

variable {ι : Type*} [DecidableEq ι]

/-- A client with the threads that are inside `sendData`, the one of them that has locked
`sendMutex`, and for each unlock so far the thread that did it with the one that had
locked the mutex. -/
structure SendThreads (ι : Type*) where
  client : Client
  holder : Option ι
  pcs : ι → Option WriterPc
  unlocks : List (ι × Option ι)

/-- A call of `sendData`, a step of a call, or a change of the client by other threads. -/
inductive SendThreadsAct (ι : Type*)
  | call (i : ι) (m : TcpMessage)
  | step (i : ι) (outcome : Outcome)
  | others (client : Client)

/-- The point in `sendData`, unless the call has returned to the loop. -/
def WriterPc.inSendData : WriterPc → Option WriterPc
  | .pollStatus => none
  | pc => some pc

/-- The thread that has locked the mutex after an event of thread `i`. -/
def Event.holder (i : ι) (holder : Option ι) : Event → Option ι
  | .lock => some i
  | .unlock _ _ => none
  | _ => holder

/-- An event of thread `i` as an unlock. -/
def Event.unlocks (i : ι) (holder : Option ι) : Event → List (ι × Option ι)
  | .unlock _ _ => [(i, holder)]
  | _ => []

namespace SendThreads

/-- Nobody is inside `sendData`. -/
def start (c : Client) : SendThreads ι where
  client := { c with sendMutex := none }
  holder := none
  pcs _ := none
  unlocks := []

/-- One act. -/
def step (env : Environment) (s : SendThreads ι) : SendThreadsAct ι → Option (SendThreads ι)
  | .call i m =>
      if s.pcs i = none then
        some { s with pcs := Function.update s.pcs i (some (.enter m)) }
      else
        none
  | .step i outcome =>
      (s.pcs i).bind fun pc =>
        (writerStep env s.client pc outcome).map fun r =>
          { client := s.client.after r.1
            holder := r.1.holder i s.holder
            pcs := Function.update s.pcs i r.2.inSendData
            unlocks := s.unlocks ++ r.1.unlocks i s.holder }
  | .others client => some { s with client := { client with sendMutex := s.client.sendMutex } }

variable {env : Environment} {s s' : SendThreads ι} {act : SendThreadsAct ι}

theorem step_cases (h : s.step env act = some s') :
    (∃ i m, s.pcs i = none ∧
      s' = { s with pcs := Function.update s.pcs i (some (.enter m)) }) ∨
    (∃ i outcome pc e pc', act = .step i outcome ∧ s.pcs i = some pc ∧
      WriterMove env s.client pc e pc' ∧
      s' =
        { client := s.client.after e
          holder := e.holder i s.holder
          pcs := Function.update s.pcs i pc'.inSendData
          unlocks := s.unlocks ++ e.unlocks i s.holder }) ∨
    (∃ client : Client, s' = { s with client := { client with sendMutex := s.client.sendMutex } }) := by
  cases act with
  | call i m =>
      obtain ⟨hoff, hcall⟩ := Option.ite_none_right_eq_some.mp h
      cases hcall
      exact Or.inl ⟨i, m, hoff, rfl⟩
  | step i outcome =>
      obtain ⟨pc, hpc, hstep⟩ := Option.bind_eq_some_iff.mp h
      obtain ⟨⟨e, pc'⟩, hwriter, rfl⟩ := Option.map_eq_some_iff.mp hstep
      exact Or.inr (Or.inl ⟨i, outcome, pc, e, pc', rfl, hpc, writerMove_of_step hwriter, rfl⟩)
  | others client =>
      cases h
      exact Or.inr (Or.inr ⟨client, rfl⟩)

end SendThreads

/-- Between the first and the last `send` of a frame, with the way to and from them. -/
def WriterPc.sending : WriterPc → Bool
  | .fetch _ _ | .send _ _ _ => true
  | _ => false

/-- The mutex has been unlocked by the threads that had locked it, nobody has kept it, and
one thread at a time transmits a frame. -/
structure SendThreads.Disciplined (s : SendThreads ι) : Prop where
  byHolder : ∀ u ∈ s.unlocks, u.2 = some u.1
  returned : ∀ i, s.pcs i = none → s.holder ≠ some i
  alone : ∀ i j pc pc', s.pcs i = some pc → s.pcs j = some pc' → pc.sending = true →
    pc'.sending = true → i = j

/-- The call is at its test of `connectionStatus`. -/
def WriterPc.testing : WriterPc → Bool
  | .enter _ => true
  | _ => false

/-- A call of `sendData` finds the client connected when it tests that. -/
def FindsConnected (s : SendThreads ι) : SendThreadsAct ι → Prop
  | .step i _ => (s.pcs i).any WriterPc.testing = true → s.client.connectionStatus = true
  | .call _ _ | .others _ => True

instance (s : SendThreads ι) (act : SendThreadsAct ι) : Decidable (FindsConnected s act) :=
  match act with
  | .step _ _ => inferInstanceAs (Decidable (_ → s.client.connectionStatus = true))
  | .call _ _ | .others _ => inferInstanceAs (Decidable True)

/-! ## The mutex and the points of a call -/

/-- The mutex, at the points where a call has locked it. -/
def WriterPc.locks : WriterPc → Option Unit
  | .fetch _ _ | .send _ _ _ | .failing _ _ | .unlock _ _ => some ()
  | _ => none

/-- The threads that are at such a point. -/
def sendLocks (pcs : ι → Option WriterPc) (i : ι) : Option Unit := (pcs i).bind WriterPc.locks

/-- The mutex belongs to the thread that is at such a point. -/
structure SendThreads.Held (s : SendThreads ι) : Prop where
  free : s.client.sendMutex = none → s.holder = none
  matching : Matching (fun _ : Unit => s.holder) (sendLocks s.pcs)
  byHolder : ∀ u ∈ s.unlocks, u.2 = some u.1

variable {env : Environment} {c : Client} {e : Event} {s s' : SendThreads ι}
  {act : SendThreadsAct ι}

omit [DecidableEq ι] in
/-- What a step of a call that finds the client connected does with the mutex. -/
theorem WriterMove.locking {pc pc' : WriterPc} (h : WriterMove env c pc e pc')
    (hconnected : pc.testing = true → c.connectionStatus = true) :
    (e = .lock ∧ c.sendMutex = none ∧ pc.locks = none ∧
      pc'.inSendData.bind WriterPc.locks = some ()) ∨
    (∃ m result, e = .unlock m result ∧ pc.locks = some () ∧
      pc'.inSendData.bind WriterPc.locks = none) ∨
    ((∀ i : ι, ∀ holder, e.holder i holder = holder ∧ e.unlocks i holder = []) ∧
      (c.after e).sendMutex = c.sendMutex ∧ pc'.inSendData.bind WriterPc.locks = pc.locks) := by
  cases h with
  | refuse hnot =>
      rw [hconnected rfl] at hnot
      cases hnot
  | lock hfree => exact Or.inl ⟨rfl, hfree, rfl, rfl⟩
  | unlock => exact Or.inr (Or.inl ⟨_, _, rfl, rfl, rfl⟩)
  | @send m part fd n _ _ =>
      refine Or.inr (Or.inr ⟨fun i holder => ⟨rfl, rfl⟩, rfl, ?_⟩)
      cases part <;> rfl
  | closing hclose =>
      refine Or.inr (Or.inr ?_)
      cases hclose <;> exact ⟨fun i holder => ⟨rfl, rfl⟩, rfl, rfl⟩
  | _ => exact Or.inr (Or.inr ⟨fun i holder => ⟨rfl, rfl⟩, rfl, rfl⟩)

theorem sendLocks_update (pcs : ι → Option WriterPc) (i : ι) (pc : Option WriterPc) :
    sendLocks (Function.update pcs i pc) =
      Function.update (sendLocks pcs) i (pc.bind WriterPc.locks) := by
  funext j
  by_cases hj : j = i
  · subst hj
    simp [sendLocks]
  · simp [sendLocks, hj]

theorem matching_of_locks_eq {i : ι} {pc : Option WriterPc}
    (h : Matching (fun _ : Unit => s.holder) (sendLocks s.pcs))
    (hsame : pc.bind WriterPc.locks = sendLocks s.pcs i) :
    Matching (fun _ : Unit => s.holder) (sendLocks (Function.update s.pcs i pc)) := by
  rw [sendLocks_update, hsame, Function.update_eq_self]
  exact h

theorem held_step (h : s.Held) (hguard : FindsConnected s act) (hstep : s.step env act = some s') :
    s'.Held := by
  obtain ⟨hfree, hmatching, hholder⟩ := h
  rcases SendThreads.step_cases hstep with
    ⟨i, m, hoff, rfl⟩ | ⟨i, outcome, pc, e, pc', rfl, hpc, hmove, rfl⟩ | ⟨client, rfl⟩
  · refine ⟨hfree, matching_of_locks_eq hmatching ?_, hholder⟩
    rw [sendLocks, hoff]
    rfl
  · have hconnected : pc.testing = true → s.client.connectionStatus = true := by
      intro htesting
      apply hguard
      rw [hpc]
      exact htesting
    have hlocks : sendLocks s.pcs i = pc.locks := by
      rw [sendLocks, hpc]
      rfl
    have hupdate : ∀ holder : Option ι, (fun _ : Unit => holder) =
        Function.update (fun _ : Unit => s.holder) () holder := by
      intro holder
      funext lock
      rfl
    rcases hmove.locking hconnected with
      ⟨rfl, hunlocked, hnone, hsome⟩ | ⟨m, result, rfl, hsome, hnone⟩ | ⟨hkept, hmutex, hsame⟩
    · refine ⟨by simp [Client.after], ?_, by simpa [Event.unlocks] using hholder⟩
      rw [sendLocks_update, hsome]
      simp only [Event.holder]
      rw [hupdate (some i)]
      exact hmatching.take (hfree hunlocked) (hlocks.trans hnone)
    · refine ⟨fun _ => rfl, ?_, ?_⟩
      · rw [sendLocks_update, hnone]
        simp only [Event.holder]
        rw [hupdate none]
        exact hmatching.giveBack (hlocks.trans hsome)
      · intro u hu
        rcases List.mem_append.mp hu with hold | hnew
        · exact hholder u hold
        · cases List.mem_singleton.mp hnew
          exact (hmatching () i).mpr (hlocks.trans hsome)
    · obtain ⟨hsameHolder, hnoUnlock⟩ := hkept i s.holder
      refine ⟨?_, ?_, ?_⟩
      · simp only [hsameHolder, hmutex]
        exact hfree
      · simp only [hsameHolder]
        exact matching_of_locks_eq hmatching (hsame.trans hlocks.symm)
      · simp only [hnoUnlock, List.append_nil]
        exact hholder
  · exact ⟨hfree, hmatching, hholder⟩

omit [DecidableEq ι] in
theorem SendThreads.Held.disciplined (h : s.Held) : s.Disciplined where
  byHolder := h.byHolder
  returned i hoff hheld := by
    have hlocks := (h.matching () i).mp hheld
    rw [sendLocks, hoff] at hlocks
    cases hlocks
  alone i j pc pc' hpc hpc' hsending hsending' := by
    have hlocks : ∀ k pc, s.pcs k = some pc → pc.sending = true → sendLocks s.pcs k = some () := by
      intro k pc hk hk'
      rw [sendLocks, hk]
      cases pc <;> first | rfl | cases hk'
    exact h.matching.eq_of_holds (hlocks i pc hpc hsending) (hlocks j pc' hpc' hsending')

/-- As long as every call of `sendData` finds the client connected, the mutex is unlocked
by the thread that holds it, no call returns with it, and one thread at a time is between
the sends of a frame. -/
theorem disciplined_of_findsConnected {client : Client}
    (hrun : Guarded (SendThreads.step env) FindsConnected (SendThreads.start client) s) :
    s.Disciplined := by
  have hstart : (SendThreads.start client : SendThreads ι).Held :=
    ⟨fun _ => rfl, by simp [Matching, SendThreads.start, sendLocks], by simp [SendThreads.start]⟩
  have hheld : s.Held := hrun.invariant hstart fun _ _ _ h hguard hstep => held_step h hguard hstep
  exact hheld.disciplined

/-- A call that does not find the client connected unlocks a mutex that it has not
locked. -/
theorem unlocks_of_refused {i : ι} {m : TcpMessage} (h : s.Held)
    (hpc : s.pcs i = some (.enter m)) (hnot : s.client.connectionStatus = false) :
    ∃ t t', s.step env (.step i .plain) = some t ∧ t.step env (.step i .plain) = some t' ∧
      ¬ t'.Disciplined := by
  have hfirst : s.step env (.step i .plain) =
      some { s with pcs := Function.update s.pcs i (some (.unlock m (-1))) } := by
    simp [SendThreads.step, hpc, writerStep, hnot, Client.after, Event.holder, Event.unlocks,
      WriterPc.inSendData]
  have hsecond : SendThreads.step env
      { s with pcs := Function.update s.pcs i (some (.unlock m (-1))) } (.step i .plain) =
      some
        { client := { s.client with sendMutex := none }
          holder := none
          pcs := Function.update s.pcs i none
          unlocks := s.unlocks ++ [(i, s.holder)] } := by
    simp [SendThreads.step, writerStep, Client.after, Event.holder, Event.unlocks,
      WriterPc.inSendData]
  refine ⟨_, _, hfirst, hsecond, ?_⟩
  intro hdisciplined
  have hheld := hdisciplined.byHolder (i, s.holder) (by simp)
  have hlocks := (h.matching () i).mp hheld
  rw [sendLocks, hpc] at hlocks
  cases hlocks

/-- A client that another thread has connected. -/
def connectedClient : Client := { Client.start with connectionStatus := true }

/-- Two threads call `sendData`; the first one waits for the second one to return. -/
def sendTwice : List (SendThreadsAct (Fin 2)) :=
  [.others connectedClient, .call 0 (TcpMessage.fresh 0 0), .call 1 (TcpMessage.fresh 0 0),
    .step 0 .plain, .step 1 .plain, .step 1 .plain, .step 1 .plain, .step 1 (.returns (-1)),
    .step 1 .plain, .step 1 .plain, .step 1 .plain, .step 1 .plain, .step 0 .plain]

theorem disciplined_sendTwice :
    ∃ s, runActs (SendThreads.step Environment.plain) FindsConnected
        (SendThreads.start Client.start) sendTwice = some s ∧ s.unlocks = [(1, some 1)] ∧
      s.Disciplined := by
  obtain ⟨s, hrun, hunlocks⟩ : ∃ s, runActs (SendThreads.step Environment.plain) FindsConnected
      (SendThreads.start Client.start) sendTwice = some s ∧ s.unlocks = [(1, some 1)] :=
    ⟨_, rfl, by decide⟩
  exact ⟨s, hrun, hunlocks, disciplined_of_findsConnected (guarded_of_runActs hrun)⟩

/-- The first thread has sent the size of its message when the second one does not find the
client connected; its unlock lets the third one in. -/
def sendBetween : List (SendThreadsAct (Fin 3)) :=
  [.others connectedClient, .call 0 (TcpMessage.fresh 0 0), .step 0 .plain, .step 0 .plain,
    .step 0 .plain, .step 0 (.returns 8), .others Client.start, .call 1 (TcpMessage.fresh 0 0),
    .step 1 .plain, .step 1 .plain, .others connectedClient, .call 2 (TcpMessage.fresh 0 0),
    .step 2 .plain, .step 2 .plain, .step 2 .plain, .step 2 (.returns 8)]

theorem not_disciplined_sendBetween :
    ∃ s, Reaches (SendThreads.step Environment.plain) (SendThreads.start Client.start) s ∧
      s.unlocks = [((1 : Fin 3), some 0)] ∧
      s.pcs 0 = some (.fetch (TcpMessage.fresh 0 0) .type) ∧
      s.pcs 2 = some (.fetch (TcpMessage.fresh 0 0) .type) ∧ ¬ s.Disciplined := by
  obtain ⟨s, hrun, hunlocks, hfirst, hthird⟩ : ∃ s,
      runActs (SendThreads.step Environment.plain) (fun _ _ => True)
        (SendThreads.start Client.start) sendBetween = some s ∧
      s.unlocks = [((1 : Fin 3), some 0)] ∧
      s.pcs 0 = some (.fetch (TcpMessage.fresh 0 0) .type) ∧
      s.pcs 2 = some (.fetch (TcpMessage.fresh 0 0) .type) :=
    ⟨_, rfl, by decide, by decide, by decide⟩
  refine ⟨s, guarded_of_runActs hrun, hunlocks, hfirst, hthird, ?_⟩
  intro hdisciplined
  exact absurd (hdisciplined.alone 0 2 _ _ hfirst hthird rfl rfl) (by decide)

end ControlEngine
