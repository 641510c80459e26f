import ControlEngine.System.Moves

/-!
# Where the pushed messages are

A message that was pushed waits in the write buffer, is held by the writer between
`pop` and the return of `sendData`, or `sendData` has returned for it.  `Balanced`
says so, in the order of the pushes, and holds in every run.  Whether a message is
sent is another matter: the writer ignores the result of `sendData`, and a message
for which it is `-1` neither waits, nor is held, nor is sent.
-/

namespace ControlEngine

def Event.pushed : Event → List TcpMessage
  | .push m => [m]
  | _ => []

def Event.returned : Event → List (TcpMessage × ℤ)
  | .unlock m result => [(m, result)]
  | _ => []

/-- The messages that were pushed, in order. -/
def pushed (history : List Event) : List TcpMessage := history.flatMap Event.pushed

/-- The messages for which `sendData` has returned, with its results. -/
def returned (history : List Event) : List (TcpMessage × ℤ) := history.flatMap Event.returned

/-- The messages for which `sendData` has returned a value that is not negative. -/
def sent (history : List Event) : List TcpMessage :=
  ((returned history).filter fun r => 0 ≤ r.2).map Prod.fst

/-- The message that the writer has popped and whose `sendData` has not returned. -/
def WriterPc.held : WriterPc → List TcpMessage
  | .pollStatus | .pollSize | .pop => []
  | .enter m | .lock m | .fetch m _ | .send m _ _ | .failing m _ | .unlock m _ => [m]

@[simp] theorem WriterPc.held_afterSend (m : TcpMessage) (n : ℤ) (part : FramePart) :
    (WriterPc.afterSend m n part).held = [m] := by
  cases part <;> rfl

@[simp] theorem pushed_append (history : List Event) (e : Event) :
    pushed (history ++ [e]) = pushed history ++ e.pushed := by
  simp [pushed]

@[simp] theorem returned_append (history : List Event) (e : Event) :
    returned (history ++ [e]) = returned history ++ e.returned := by
  simp [returned]

/-- Every pushed message has been returned for, is held, or waits, in this order. -/
def System.Balanced (s : System) : Prop :=
  pushed s.history = (returned s.history).map Prod.fst ++
    WriterPc.held (s.threads .writer) ++ s.client.writeBuffer

variable {env : Environment} {c : Client} {e : Event} {s s' : System} {act : Act}

/-- A step of the writer moves messages from the buffer to its hand and from there to
those returned for. -/
theorem WriterMove.balance {pc pc' : WriterPc} (h : WriterMove env c pc e pc') :
    e.pushed = [] ∧
      e.returned.map Prod.fst ++ pc'.held ++ (c.after e).writeBuffer =
        pc.held ++ c.writeBuffer := by
  cases h with
  | pop hfirst =>
      obtain ⟨rest, hrest⟩ := List.head?_eq_some_iff.mp hfirst
      refine ⟨rfl, ?_⟩
      simp [Event.returned, WriterPc.held, Client.after, hrest]
  | closing hclose => cases hclose <;> exact ⟨rfl, rfl⟩
  | send hn hlength =>
      refine ⟨rfl, ?_⟩
      rw [WriterPc.held_afterSend]
      rfl
  | _ => exact ⟨rfl, rfl⟩

/-- The events of the others only append to the buffer what they push. -/
theorem Event.balance (he : e.exclusive ≠ some .writer) :
    e.returned = [] ∧ (c.after e).writeBuffer = c.writeBuffer ++ e.pushed := by
  cases e with
  | pop m => exact absurd rfl he
  | unlock m result => exact absurd rfl he
  | push m => exact ⟨rfl, rfl⟩
  | _ => exact ⟨rfl, (List.append_nil _).symm⟩

theorem balanced_step (h : s.Balanced) (hstep : s.step env act = some s') : s'.Balanced := by
  obtain ⟨e, -, hclient, hhistory, hwriter | hother⟩ := System.focus .writer hstep
  · obtain ⟨-, outcome, hthread⟩ := hwriter
    obtain ⟨hpushed, hmoved⟩ := (writerMove_of_step hthread).balance
    rw [System.Balanced, hclient, hhistory, pushed_append, returned_append, hpushed, h,
      List.map_append]
    simp only [List.append_assoc, List.append_nil, ← hmoved]
  · obtain ⟨-, hexclusive, hsame⟩ := hother
    obtain ⟨hreturned, hbuffer⟩ := e.balance (c := s.client) hexclusive
    rw [System.Balanced, hclient, hhistory, pushed_append, returned_append, hreturned, hsame,
      hbuffer, h]
    simp only [List.append_assoc, List.append_nil]

theorem balanced_of_reaches (hrun : Reaches (System.step env) System.start s) : s.Balanced :=
  hrun.invariant rfl fun _ _ _ h _ hstep => balanced_step h hstep

/-! ## Runs without a failed send -/

/-- Each pushed message is completely sent, held, or still in the buffer, and the sent
ones are those pushed first. -/
def System.Conserved (s : System) : Prop :=
  pushed s.history =
    sent s.history ++ WriterPc.held (s.threads .writer) ++ s.client.writeBuffer

/-- A `send` of `sendData` that fails. -/
def Event.failedSend : Event → Bool
  | .send (.frame _ _) _ _ n => n = -1
  | _ => false

/-- The writer stands at the test of `sendData`. -/
def WriterPc.enters : WriterPc → Bool
  | .enter _ => true
  | _ => false

/-- No `send` of `sendData` fails, and the client is connected when `sendData` tests
it. -/
def SendsSucceed (env : Environment) (s : System) (act : Act) : Prop :=
  (∀ e ∈ s.eventOf env act, e.failedSend = false) ∧
    (act.tid = some .writer → WriterPc.enters (s.threads .writer) = true →
      s.client.connectionStatus = true)

instance (env : Environment) (s : System) (act : Act) : Decidable (SendsSucceed env s act) :=
  inferInstanceAs (Decidable (_ ∧ (_ → _ → _)))

/-- The result that `sendData` is about to return is not negative. -/
def WriterPc.Succeeding : WriterPc → Prop
  | .failing _ _ => False
  | .unlock _ result => 0 ≤ result
  | _ => True

/-- Nothing has failed. -/
structure System.Intact (s : System) : Prop where
  results : ∀ r ∈ returned s.history, 0 ≤ r.2
  writer : WriterPc.Succeeding (s.threads .writer)

theorem WriterMove.succeeding {pc pc' : WriterPc} (h : WriterMove env c pc e pc')
    (hpc : pc.Succeeding) (hsend : e.failedSend = false)
    (henter : pc.enters = true → c.connectionStatus = true) :
    pc'.Succeeding ∧ ∀ r ∈ e.returned, 0 ≤ r.2 := by
  cases h with
  | refuse hnot =>
      rw [henter rfl] at hnot
      cases hnot
  | @send m part fd n hn hlength =>
      refine ⟨?_, by simp [Event.returned]⟩
      cases part with
      | size => trivial
      | type => trivial
      | payload => exact hn
  | sendFails => cases hsend
  | closing hclose => exact hpc.elim
  | @unlock m result =>
      refine ⟨trivial, ?_⟩
      intro r hr
      rw [List.mem_singleton.mp hr]
      exact hpc
  | _ => exact ⟨trivial, by simp [Event.returned]⟩

theorem intact_step (h : s.Intact) (hguard : SendsSucceed env s act)
    (hstep : s.step env act = some s') : s'.Intact := by
  obtain ⟨e, hevent, hclient, hhistory, hwriter | hother⟩ := System.focus .writer hstep
  · obtain ⟨hact, outcome, hthread⟩ := hwriter
    obtain ⟨hpc, hresults⟩ := (writerMove_of_step hthread).succeeding h.writer
      (hguard.1 e hevent) (hguard.2 hact)
    refine ⟨?_, hpc⟩
    intro r hr
    rw [hhistory, returned_append] at hr
    rcases List.mem_append.mp hr with hold | hnew
    · exact h.results r hold
    · exact hresults r hnew
  · obtain ⟨-, hexclusive, hsame⟩ := hother
    obtain ⟨hreturned, -⟩ := e.balance (c := s.client) hexclusive
    refine ⟨?_, by rw [hsame]; exact h.writer⟩
    rw [hhistory, returned_append, hreturned, List.append_nil]
    exact h.results

/-- No message is lost or sent twice: in every run in which no `send` of `sendData`
fails and `sendData` always finds the client connected, each pushed message is in
exactly one of the three places, and the sent ones are a prefix of the pushed ones. -/
theorem conserved_of_sendsSucceed
    (hrun : Guarded (System.step env) (SendsSucceed env) System.start s) : s.Conserved := by
  have hbalanced := balanced_of_reaches hrun.reaches
  have hintact : s.Intact := by
    refine hrun.invariant ⟨?_, trivial⟩ fun _ _ _ h hguard hstep => intact_step h hguard hstep
    simp [System.start, returned]
  have hall : (returned s.history).filter (fun r => decide (0 ≤ r.2)) = returned s.history := by
    rw [List.filter_eq_self]
    intro r hr
    simpa using hintact.results r hr
  rw [System.Conserved, sent, hall]
  exact hbalanced

theorem conserved_of_sendsSucceed_sendOneByte :
    ∃ s, runActs (System.step Environment.plain) (SendsSucceed Environment.plain)
        System.start sendOneByte = some s ∧ s.Conserved ∧ (sent s.history).length = 1 := by
  obtain ⟨s, hrun, hsent⟩ : ∃ s, runActs (System.step Environment.plain)
      (SendsSucceed Environment.plain) System.start sendOneByte = some s ∧
        (sent s.history).length = 1 := ⟨_, rfl, by decide⟩
  exact ⟨s, hrun, conserved_of_sendsSucceed (guarded_of_runActs hrun), hsent⟩

/-- The first send of a message fails; the writer closes the socket and forgets the
message. -/
def sendFails : List Act :=
  connect 5 6 ++ beginSend ++ [.thread .writer (.returns (-1))] ++
    List.replicate 4 (.thread .writer .plain)

theorem not_conserved_sendFails :
    ∃ s, Reaches (System.step Environment.plain) System.start s ∧ ¬ s.Conserved := by
  obtain ⟨s, hrun, hpushed, hsent, hheld, hbuffer⟩ : ∃ s,
      runActs (System.step Environment.plain) (fun _ _ => True) System.start sendFails =
        some s ∧ (pushed s.history).length = 1 ∧ sent s.history = [] ∧
        WriterPc.held (s.threads .writer) = [] ∧ s.client.writeBuffer = [] :=
    ⟨_, rfl, by decide, by decide, by decide, by decide⟩
  refine ⟨s, guarded_of_runActs hrun, ?_⟩
  intro hconserved
  rw [hconserved, hsent, hheld, hbuffer] at hpushed
  cases hpushed

end ControlEngine
