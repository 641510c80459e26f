import ControlEngine.System.Run

/-!
# What the steps of the threads are

The step functions of `Threads` say what a thread does at each point.  For proofs
the steps are listed here once more, branch by branch and with the facts that hold
on each branch, as one relation for each thread; the theorems below say that the
lists are complete.  Invariants go through them by cases.
-/

namespace ControlEngine

variable {env : Environment} {c : Client}

/-- The steps of `closeSocket`. -/
inductive CloseMove (c : Client) : ClosePc → Event → Option ClosePc → Prop
  | clear : CloseMove c .clear (.setConnectionStatus false) (some .fetch)
  | fetch : CloseMove c .fetch .takeSocketObject (some (.close c.socketObject))
  | close {fd : Fd} : CloseMove c (.close fd) (.close fd (c.descriptors fd)) none

theorem closeMove_closeSocket (c : Client) (pc : ClosePc) :
    CloseMove c pc (closeSocket c pc).1 (closeSocket c pc).2 := by
  cases pc with
  | clear => exact .clear
  | fetch => exact .fetch
  | close fd => exact .close

/-! ## The writer -/

/-- The steps of the writer. -/
inductive WriterMove (env : Environment) (c : Client) : WriterPc → Event → WriterPc → Prop
  | poll (hconnected : c.connectionStatus = true) :
      WriterMove env c .pollStatus .look .pollSize
  | sleep : WriterMove env c .pollStatus .look .pollStatus
  | waiting (hsize : queueSize c.writeBuffer > 0) : WriterMove env c .pollSize .look .pop
  | empty : WriterMove env c .pollSize .look .pollStatus
  | pop {m : TcpMessage} (hfirst : c.writeBuffer.head? = some m) :
      WriterMove env c .pop (.pop m) (.enter m)
  | enter {m : TcpMessage} (hconnected : c.connectionStatus = true) :
      WriterMove env c (.enter m) .look (.lock m)
  | refuse {m : TcpMessage} (hnot : c.connectionStatus = false) :
      WriterMove env c (.enter m) .look (.unlock m (-1))
  | lock {m : TcpMessage} (hfree : c.sendMutex = none) :
      WriterMove env c (.lock m) .lock (.fetch m .size)
  | fetch {m : TcpMessage} {part : FramePart} :
      WriterMove env c (.fetch m part) .useSocketObject (.send m part c.socketObject)
  | send {m : TcpMessage} {part : FramePart} {fd : Fd} {n : ℤ} (hn : 0 ≤ n)
      (hlength : n ≤ (m.partBytes env.order part).length) :
      WriterMove env c (.send m part fd)
        (.send (.frame m part) (c.descriptors fd) (m.partBytes env.order part) n)
        (WriterPc.afterSend m n part)
  | sendFails {m : TcpMessage} {part : FramePart} {fd : Fd} :
      WriterMove env c (.send m part fd)
        (.send (.frame m part) (c.descriptors fd) (m.partBytes env.order part) (-1))
        (.failing m .clear)
  | closing {m : TcpMessage} {pc : ClosePc} {e : Event} {next : Option ClosePc}
      (hclose : CloseMove c pc e next) :
      WriterMove env c (.failing m pc) e (next.elim (.unlock m (-1)) (.failing m))
  | unlock {m : TcpMessage} {result : ℤ} :
      WriterMove env c (.unlock m result) (.unlock m result) .pollStatus

theorem writerMove_of_step {pc pc' : WriterPc} {outcome : Outcome} {e : Event}
    (h : writerStep env c pc outcome = some (e, pc')) : WriterMove env c pc e pc' := by
  cases pc with
  | pollStatus =>
      cases outcome <;> cases h
      cases hconnected : c.connectionStatus with
      | true => exact .poll hconnected
      | false => exact .sleep
  | pollSize =>
      cases outcome <;> cases h
      split
      · exact .waiting ‹_›
      · exact .empty
  | pop =>
      cases outcome <;> try cases h
      obtain ⟨m, hfirst, hm⟩ := Option.map_eq_some_iff.mp h
      cases hm
      exact .pop hfirst
  | enter m =>
      cases outcome <;> cases h
      cases hconnected : c.connectionStatus with
      | true => exact .enter hconnected
      | false => exact .refuse hconnected
  | lock m =>
      cases outcome <;> try cases h
      obtain ⟨hfree, hstep⟩ := Option.ite_none_right_eq_some.mp h
      cases hstep
      exact .lock hfree
  | fetch m part =>
      cases outcome <;> cases h
      exact .fetch
  | send m part fd =>
      cases outcome <;> try cases h
      obtain ⟨⟨hlow, hhigh⟩, hstep⟩ := Option.ite_none_right_eq_some.mp h
      cases hstep
      split
      · rename_i hfails
        subst hfails
        exact .sendFails
      · exact .send (by omega) hhigh
  | failing m pc =>
      cases outcome <;> cases h
      exact .closing (closeMove_closeSocket c pc)
  | unlock m result =>
      cases outcome <;> cases h
      exact .unlock

/-! ## The reader -/

/-- The steps of the reader. -/
inductive ReaderMove (env : Environment) (c : Client) : ReaderPc → Event → ReaderPc → Prop
  | poll (hconnected : c.connectionStatus = true) : ReaderMove env c .poll .look .enter
  | sleep : ReaderMove env c .poll .look .poll
  | enter {messageSize : BitVec 64} {messageType : BitVec 32} :
      ReaderMove env c .enter .enterReadData (ReaderPc.ofProgress
        (readData c.connectionStatus (TcpMessage.fresh messageSize messageType)))
  | fetch {f : ReadFrame} :
      ReaderMove env c (.fetch f) .useSocketObject (.recv f c.socketObject)
  | recv {f : ReadFrame} {fd : Fd} {result : RecvResult}
      (hfits : result.fits f.requested = true) :
      ReaderMove env c (.recv f fd) (.recv (c.descriptors fd) result)
        (ReaderPc.ofProgress (f.receive env.alloc env.order result))
  | closing {what : String} {pc : ClosePc} {e : Event} {next : Option ClosePc}
      (hclose : CloseMove c pc e next) :
      ReaderMove env c (.failing what pc) e (next.elim .exited (.failing what))
  | restarted : ReaderMove env c .exited .look .poll

theorem readerMove_of_step {pc pc' : ReaderPc} {outcome : Outcome} {e : Event}
    (h : readerStep env c pc outcome = some (e, pc')) : ReaderMove env c pc e pc' := by
  cases pc with
  | poll =>
      cases outcome <;> cases h
      cases hconnected : c.connectionStatus with
      | true => exact .poll hconnected
      | false => exact .sleep
  | enter =>
      cases outcome <;> cases h
      exact .enter
  | fetch f =>
      cases outcome <;> cases h
      exact .fetch
  | recv f fd =>
      cases outcome <;> try cases h
      rename_i result
      obtain ⟨hfits, hstep⟩ := Option.ite_none_right_eq_some.mp h
      cases hstep
      exact .recv hfits
  | failing what pc =>
      cases outcome <;> cases h
      exact .closing (closeMove_closeSocket c pc)
  | exited =>
      cases outcome <;> cases h
      exact .restarted
  | terminated => cases outcome <;> cases h

/-! ## The connection controller -/

/-- The steps of the connection controller. -/
inductive ControllerMove (env : Environment) (c : Client) :
    ControllerPc → Event → ControllerPc → Prop
  | build (hnot : c.connectionStatus = false) :
      ControllerMove env c (.testBuild .TO_BUILD) .look .socket
  | retry : ControllerMove env c (.testBuild .TO_CONNECT) .look .acceptFetch
  | skip {state : NetworkConnectionControllerState} (hstate : state ≠ .TO_CONNECT) :
      ControllerMove env c (.testBuild state) .look (.testStatus state)
  | socketFailed : ControllerMove env c .socket .socketFailed (.storeSocket (-1))
  | socket {fd : Fd} (hfd : 0 ≤ fd) (hfree : c.descriptors fd = none) :
      ControllerMove env c .socket (.socket fd c.created) (.storeSocket fd)
  | storeSocket {fd : Fd} {call : SetupCall} :
      ControllerMove env c (.storeSocket fd) (.assignSocketObject fd) (.setupFetch call)
  | setupFetch {call : SetupCall} :
      ControllerMove env c (.setupFetch call) .useSocketObject (.setup call c.socketObject)
  | setup {call next : SetupCall} {fd : Fd} {n : ℤ} :
      ControllerMove env c (.setup call fd) (.setup call (c.descriptors fd) n)
        (.setupFetch next)
  | prepared {call : SetupCall} {fd : Fd} {n : ℤ} :
      ControllerMove env c (.setup call fd) (.setup call (c.descriptors fd) n) .acceptFetch
  | acceptFetch :
      ControllerMove env c .acceptFetch .useSocketObject (.accept c.socketObject)
  | acceptFailed {fd : Fd} :
      ControllerMove env c (.accept fd) (.acceptFailed (c.descriptors fd))
        (.testStatus .TO_CONNECT)
  | accept {fd t : Fd} (ht : 0 ≤ t) (hne : t ≠ fd) (hfree : c.descriptors t = none) :
      ControllerMove env c (.accept fd) (.accept (c.descriptors fd) t c.created)
        (.closeListenerFetch t)
  | closeListenerFetch {t : Fd} :
      ControllerMove env c (.closeListenerFetch t) .takeSocketObject
        (.closeListener t c.socketObject)
  | closeListener {t fd : Fd} :
      ControllerMove env c (.closeListener t fd) (.close fd (c.descriptors fd))
        (.storeAccepted t)
  | storeAccepted {t : Fd} :
      ControllerMove env c (.storeAccepted t) (.assignSocketObject t) .setStatus
  | setStatus :
      ControllerMove env c .setStatus (.setConnectionStatus true) (.testStatus .CONNECTED)
  | alive (hconnected : c.connectionStatus = true) :
      ControllerMove env c (.testStatus .CONNECTED) .look .pingTest
  | lost (hnot : c.connectionStatus = false) :
      ControllerMove env c (.testStatus .CONNECTED) .look
        (.testBuild (reconnect env .DISCONNECTED))
  | next {state : NetworkConnectionControllerState} (hstate : state ≠ .CONNECTED) :
      ControllerMove env c (.testStatus state) .look (.testBuild (reconnect env state))
  | pingTest (hconnected : c.connectionStatus = true) :
      ControllerMove env c .pingTest .look .pingFetch
  | pingRefused (hnot : c.connectionStatus = false) :
      ControllerMove env c .pingTest .look (.testBuild .CONNECTED)
  | pingFetch : ControllerMove env c .pingFetch .useSocketObject (.pingSend c.socketObject)
  | pingSend {fd : Fd} {n : ℤ} (hn : 0 ≤ n) (hlength : n ≤ pingBytes.length) :
      ControllerMove env c (.pingSend fd) (.send .ping (c.descriptors fd) pingBytes n)
        (.testBuild .CONNECTED)
  | pingFails {fd : Fd} :
      ControllerMove env c (.pingSend fd) (.send .ping (c.descriptors fd) pingBytes (-1))
        (.pingFailing .clear)
  | closing {pc : ClosePc} {e : Event} {next : Option ClosePc} (hclose : CloseMove c pc e next) :
      ControllerMove env c (.pingFailing pc) e (next.elim (.testBuild .CONNECTED) .pingFailing)

theorem controllerMove_of_step {pc pc' : ControllerPc} {outcome : Outcome} {e : Event}
    (h : controllerStep env c pc outcome = some (e, pc')) :
    ControllerMove env c pc e pc' := by
  cases pc with
  | testBuild state =>
      cases outcome <;> cases h
      split
      · rename_i hbuild
        obtain ⟨hnot, rfl⟩ := hbuild
        exact .build hnot
      · split
        · rename_i hconnect
          subst hconnect
          exact .retry
        · exact .skip ‹_›
  | socket =>
      cases outcome <;> try cases h
      rename_i n
      simp only [controllerStep] at h
      split at h
      · cases h
        exact .socketFailed
      · obtain ⟨⟨hfd, hfree⟩, hstep⟩ := Option.ite_none_right_eq_some.mp h
        cases hstep
        exact .socket hfd hfree
  | storeSocket fd =>
      cases outcome <;> cases h
      exact .storeSocket
  | setupFetch call =>
      cases outcome <;> cases h
      exact .setupFetch
  | setup call fd =>
      cases outcome <;> cases h
      cases call with
      | F_GETFL => exact .setup
      | F_SETFL => exact .setup
      | setsockopt => exact .setup
      | bind => exact .setup
      | listen => exact .prepared
  | acceptFetch =>
      cases outcome <;> cases h
      exact .acceptFetch
  | accept fd =>
      cases outcome <;> try cases h
      rename_i n
      simp only [controllerStep] at h
      split at h
      · cases h
        exact .acceptFailed
      · obtain ⟨⟨ht, hne, hfree⟩, hstep⟩ := Option.ite_none_right_eq_some.mp h
        cases hstep
        exact .accept ht hne hfree
  | closeListenerFetch t =>
      cases outcome <;> cases h
      exact .closeListenerFetch
  | closeListener t fd =>
      cases outcome <;> cases h
      exact .closeListener
  | storeAccepted t =>
      cases outcome <;> cases h
      exact .storeAccepted
  | setStatus =>
      cases outcome <;> cases h
      exact .setStatus
  | testStatus state =>
      cases outcome <;> cases h
      split
      · rename_i hstate
        subst hstate
        cases hconnected : c.connectionStatus with
        | true => exact .alive hconnected
        | false => exact .lost hconnected
      · exact .next ‹_›
  | pingTest =>
      cases outcome <;> cases h
      cases hconnected : c.connectionStatus with
      | true => exact .pingTest hconnected
      | false => exact .pingRefused hconnected
  | pingFetch =>
      cases outcome <;> cases h
      exact .pingFetch
  | pingSend fd =>
      cases outcome <;> try cases h
      obtain ⟨⟨hlow, hhigh⟩, hstep⟩ := Option.ite_none_right_eq_some.mp h
      cases hstep
      split
      · rename_i hfails
        subst hfails
        exact .pingFails
      · exact .pingSend (by omega) hhigh
  | pingFailing pc =>
      cases outcome <;> cases h
      exact .closing (closeMove_closeSocket c pc)

/-- Where the preparation goes on, which `ControllerMove` leaves open. -/
theorem controllerStep_storeSocket {pc' : ControllerPc} {fd : Fd} {outcome : Outcome} {e : Event}
    (h : controllerStep env c (.storeSocket fd) outcome = some (e, pc')) :
    pc' = .setupFetch (if fd < 0 then .setsockopt else .F_GETFL) := by
  cases outcome <;> cases h
  rfl

theorem controllerStep_setup {pc' : ControllerPc} {call : SetupCall} {fd : Fd}
    {outcome : Outcome} {e : Event}
    (h : controllerStep env c (.setup call fd) outcome = some (e, pc')) :
    pc' = call.next.elim .acceptFetch .setupFetch := by
  cases outcome <;> cases h
  rfl

/-! ## Callers of `restartNetwork` -/

/-- The steps of a caller of `restartNetwork`. -/
inductive RestartMove (c : Client) : RestartPc → Event → RestartPc → Prop
  | call : RestartMove c none .look (some .clear)
  | closing {pc : ClosePc} {e : Event} {next : Option ClosePc} (hclose : CloseMove c pc e next) :
      RestartMove c (some pc) e next

theorem restartMove_of_step {pc pc' : RestartPc} {outcome : Outcome} {e : Event}
    (h : restartStep c pc outcome = some (e, pc')) : RestartMove c pc e pc' := by
  cases pc with
  | none =>
      cases outcome <;> cases h
      exact .call
  | some pc =>
      cases outcome <;> try cases h
      have hclose := closeMove_closeSocket c pc
      rw [Option.some.inj h] at hclose
      exact .closing hclose

/-! ## One thread among the others -/

/-- The thread that alone causes events of this kind. -/
def Event.exclusive : Event → Option Tid
  | .pop _ | .lock | .send (.frame _ _) _ _ _ | .unlock _ _ => some .writer
  | .enterReadData | .recv _ _ => some .reader
  | .setConnectionStatus true | .assignSocketObject _ | .socket _ _ | .accept _ _ _
  | .send .ping _ _ _ => some .controller
  | _ => none

/-- The events of a thread are not those that another one causes alone. -/
theorem exclusive_of_threadStep {e : Event} {t : Tid} {pc pc' : t.Pc} {outcome : Outcome}
    (h : threadStep env c t pc outcome = some (e, pc')) :
    e.exclusive = none ∨ e.exclusive = some t := by
  cases t with
  | controller =>
      cases controllerMove_of_step h with
      | closing hclose => cases hclose <;> exact Or.inl rfl
      | _ => first | exact Or.inl rfl | exact Or.inr rfl
  | writer =>
      cases writerMove_of_step h with
      | closing hclose => cases hclose <;> exact Or.inl rfl
      | _ => first | exact Or.inl rfl | exact Or.inr rfl
  | reader =>
      cases readerMove_of_step h with
      | closing hclose => cases hclose <;> exact Or.inl rfl
      | _ => first | exact Or.inl rfl | exact Or.inr rfl
  | restart i =>
      cases restartMove_of_step h with
      | call => exact Or.inl rfl
      | closing hclose => cases hclose <;> exact Or.inl rfl

namespace System

variable {s s' : System} {act : Act}

/-- An act, from the point of view of one thread: the thread takes a step, or it
stays where it is and the event is none of its own. -/
theorem focus (t : Tid) (h : s.step env act = some s') :
    ∃ e, s.eventOf env act = some e ∧ s'.client = s.client.after e ∧
      s'.history = s.history ++ [e] ∧
      ((act.tid = some t ∧ ∃ outcome,
          threadStep env s.client t (s.threads t) outcome = some (e, s'.threads t)) ∨
        (act.tid ≠ some t ∧ e.exclusive ≠ some t ∧ s'.threads t = s.threads t)) := by
  rcases step_cases h with
    ⟨t', outcome, e, pc, rfl, hthread, hevent, rfl⟩ | ⟨data, m, rfl, -, hevent, rfl⟩
  · refine ⟨e, hevent, rfl, rfl, ?_⟩
    by_cases ht : t' = t
    · subst ht
      refine Or.inl ⟨rfl, outcome, ?_⟩
      simpa [record] using hthread
    · refine Or.inr ⟨by simpa [Act.tid] using ht, ?_, ?_⟩
      · rcases exclusive_of_threadStep hthread with hnone | hown
        · simp [hnone]
        · simpa [hown] using ht
      · exact Function.update_of_ne (Ne.symm ht) pc s.threads
  · exact ⟨.push m, hevent, rfl, rfl, Or.inr ⟨by simp [Act.tid], by simp [Event.exclusive], rfl⟩⟩

/-- The same for an event that is known already. -/
theorem focus_of_event {e : Event} (t : Tid) (h : s.step env act = some s')
    (hevent : s.eventOf env act = some e) :
    s'.client = s.client.after e ∧ s'.history = s.history ++ [e] ∧
      ((act.tid = some t ∧ ∃ outcome,
          threadStep env s.client t (s.threads t) outcome = some (e, s'.threads t)) ∨
        (act.tid ≠ some t ∧ e.exclusive ≠ some t ∧ s'.threads t = s.threads t)) := by
  obtain ⟨e', hevent', hfocus⟩ := focus t h
  obtain rfl : e' = e := Option.some.inj (hevent'.symm.trans hevent)
  exact hfocus

end System
end ControlEngine
