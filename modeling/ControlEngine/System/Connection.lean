import ControlEngine.System.Moves

/-!
# One call, one connection

`sendData` and `readData` read `socketObject` anew before each of their system calls.
A call stays on one connection as long as nobody replaces the connection between its
first read and its last system call, and nothing in the code sees to that: the
controller takes no lock, and the connection status is tested on entry only.

`Aimed` is the invariant of a call under way: the number it will use is the one in
`socketObject`, and its earlier system calls went to the object behind that number.
-/

namespace ControlEngine

/-! ## The objects of a call -/

/-- The objects that the current `sendData` has sent to, after an event. -/
def Event.sendObjects (objects : List (Option ℕ)) : Event → List (Option ℕ)
  | .pop _ => []
  | .send (.frame _ _) object _ _ => objects ++ [object]
  | _ => objects

/-- The objects that the latest `sendData` has sent to, call by call. -/
def sendObjects (history : List Event) : List (Option ℕ) := history.foldl Event.sendObjects []

/-- The objects that the current `readData` has received from, after an event. -/
def Event.recvObjects (objects : List (Option ℕ)) : Event → List (Option ℕ)
  | .enterReadData => []
  | .recv object _ => objects ++ [object]
  | _ => objects

/-- The objects that the latest `readData` has received from, call by call. -/
def recvObjects (history : List Event) : List (Option ℕ) := history.foldl Event.recvObjects []

def Event.partsOn (object : ℕ) : Event → List FramePart
  | .send (.frame _ part) (some o) _ _ => if o = object then [part] else []
  | _ => []

/-- The fields of frames that were sent to an object, in order. -/
def partsOn (object : ℕ) (history : List Event) : List FramePart :=
  history.flatMap (Event.partsOn object)

@[simp] theorem sendObjects_append (history : List Event) (e : Event) :
    sendObjects (history ++ [e]) = e.sendObjects (sendObjects history) := by
  simp [sendObjects]

@[simp] theorem recvObjects_append (history : List Event) (e : Event) :
    recvObjects (history ++ [e]) = e.recvObjects (recvObjects history) := by
  simp [recvObjects]

@[simp] theorem partsOn_append (object : ℕ) (history : List Event) (e : Event) :
    partsOn object (history ++ [e]) = partsOn object history ++ e.partsOn object := by
  simp [partsOn]

/-- The system calls of the latest `sendData`, and those of the latest `readData`,
were made on one connection each, and the frames on every connection begin with a
size. -/
structure System.OneConnection (s : System) : Prop where
  sends : ∀ a ∈ sendObjects s.history, ∀ b ∈ sendObjects s.history, a = b
  recvs : ∀ a ∈ recvObjects s.history, ∀ b ∈ recvObjects s.history, a = b
  starts : ∀ object part, (partsOn object s.history).head? = some part → part = .size

/-! ## Calls under way -/

/-- `socketObject` and what is behind its number are the same. -/
def Client.SameTarget (c c' : Client) : Prop :=
  c'.socketObject = c.socketObject ∧
    c'.descriptors c'.socketObject = c.descriptors c.socketObject

/-- `sendData` is between its first read of `socketObject` and its last `send`. -/
def WriterPc.inFlight : WriterPc → Bool
  | .send _ _ _ => true
  | .fetch _ part => part ≠ .size
  | _ => false

/-- `readData` is between its first read of `socketObject` and its last `recv`. -/
def ReaderPc.inFlight (objects : List (Option ℕ)) : ReaderPc → Bool
  | .recv _ _ => true
  | .fetch _ => objects ≠ []
  | _ => false

/-- The connection is not replaced while `sendData` or `readData` is under way. -/
def KeepsConnection (env : Environment) (s : System) (act : Act) : Prop :=
  (WriterPc.inFlight (s.threads .writer) = true ∨
    ReaderPc.inFlight (recvObjects s.history) (s.threads .reader) = true) →
    ∀ e ∈ s.eventOf env act, s.client.SameTarget (s.client.after e)

instance (c c' : Client) : Decidable (c.SameTarget c') :=
  inferInstanceAs (Decidable (_ ∧ _))

instance (env : Environment) (s : System) (act : Act) :
    Decidable (KeepsConnection env s act) :=
  inferInstanceAs (Decidable (_ ∨ _ → ∀ e ∈ s.eventOf env act, _))

/-- The objects of a call are those behind `socketObject`. -/
def Client.Aims (c : Client) (objects : List (Option ℕ)) : Prop :=
  ∀ o ∈ objects, o = c.descriptors c.socketObject

/-- Where the calls of the current `sendData` have gone, and where the next goes. -/
def WriterPc.Aimed (c : Client) (objects : List (Option ℕ)) : WriterPc → Prop
  | .enter _ | .lock _ | .fetch _ .size => objects = []
  | .send _ .size fd => objects = [] ∧ fd = c.socketObject
  | .fetch _ _ => objects ≠ [] ∧ c.Aims objects
  | .send _ _ fd => objects ≠ [] ∧ fd = c.socketObject ∧ c.Aims objects
  | _ => True

/-- Where the calls of the current `readData` have gone, and where the next goes. -/
def ReaderPc.Aimed (c : Client) (objects : List (Option ℕ)) : ReaderPc → Prop
  | .fetch _ => c.Aims objects
  | .recv _ fd => fd = c.socketObject ∧ c.Aims objects
  | _ => True

variable {env : Environment} {c c' : Client} {e : Event} {objects : List (Option ℕ)}
variable {s s' : System} {act : Act}

theorem Client.Aims.congr (h : c.Aims objects) (hsame : c.SameTarget c') : c'.Aims objects := by
  intro o ho
  rw [hsame.2]
  exact h o ho

/-- A call that is not under way is not concerned with the client. -/
theorem WriterPc.Aimed.congr {pc : WriterPc} (h : pc.Aimed c objects)
    (hkeep : pc.inFlight = true → c.SameTarget c') : pc.Aimed c' objects := by
  cases pc with
  | fetch m part =>
      cases part with
      | size => exact h
      | type => exact ⟨h.1, h.2.congr (hkeep rfl)⟩
      | payload => exact ⟨h.1, h.2.congr (hkeep rfl)⟩
  | send m part fd =>
      have hsame := hkeep rfl
      cases part with
      | size => exact ⟨h.1, h.2.trans hsame.1.symm⟩
      | type => exact ⟨h.1, h.2.1.trans hsame.1.symm, h.2.2.congr hsame⟩
      | payload => exact ⟨h.1, h.2.1.trans hsame.1.symm, h.2.2.congr hsame⟩
  | _ => exact h

theorem ReaderPc.Aimed.congr {pc : ReaderPc} (h : pc.Aimed c objects)
    (hkeep : pc.inFlight objects = true → c.SameTarget c') : pc.Aimed c' objects := by
  cases pc with
  | fetch f =>
      by_cases hempty : objects = []
      · subst hempty
        intro o ho
        cases ho
      · exact Client.Aims.congr h (hkeep (by simp [ReaderPc.inFlight, hempty]))
  | recv f fd =>
      have hsame := hkeep rfl
      exact ⟨h.1.trans hsame.1.symm, h.2.congr hsame⟩
  | _ => exact h

theorem Client.Aims.append (h : c.Aims objects) :
    c.Aims (objects ++ [c.descriptors c.socketObject]) := by
  intro o ho
  rcases List.mem_append.mp ho with hold | hnew
  · exact h o hold
  · exact List.mem_singleton.mp hnew

theorem Client.Aims.same (h : c.Aims objects) : ∀ a ∈ objects, ∀ b ∈ objects, a = b := by
  intro a ha b hb
  rw [h a ha, h b hb]

/-! ## The writer -/

theorem WriterPc.aimed_afterSend {m : TcpMessage} {n : ℤ} {part : FramePart}
    (hne : objects ≠ []) (h : c.Aims objects) :
    (WriterPc.afterSend m n part).Aimed c objects := by
  cases part with
  | size => exact ⟨hne, h⟩
  | type => exact ⟨hne, h⟩
  | payload => trivial

theorem WriterPc.aims_of_send {m : TcpMessage} {part : FramePart} {fd : Fd}
    (h : (WriterPc.send m part fd).Aimed c objects) :
    fd = c.socketObject ∧ c.Aims objects ∧ (part = .size ∨ c.descriptors fd ∈ objects) := by
  have hnonempty : objects ≠ [] → c.Aims objects → c.descriptors c.socketObject ∈ objects := by
    intro hne haims
    obtain ⟨o, ho⟩ := List.exists_mem_of_ne_nil objects hne
    rwa [← haims o ho]
  cases part with
  | size =>
      obtain ⟨rfl, rfl⟩ := h
      refine ⟨rfl, ?_, Or.inl rfl⟩
      intro o ho
      cases ho
  | type =>
      obtain ⟨hne, rfl, haims⟩ := h
      exact ⟨rfl, haims, Or.inr (hnonempty hne haims)⟩
  | payload =>
      obtain ⟨hne, rfl, haims⟩ := h
      exact ⟨rfl, haims, Or.inr (hnonempty hne haims)⟩

theorem WriterMove.aimed {pc pc' : WriterPc} (h : WriterMove env c pc e pc')
    (hpc : pc.Aimed c objects) :
    pc'.Aimed (c.after e) (e.sendObjects objects) ∧
      (e.sendObjects objects = objects ∨ c.Aims (e.sendObjects objects)) := by
  cases h with
  | pop hfirst => exact ⟨rfl, Or.inr fun o ho => by cases ho⟩
  | enter hconnected => exact ⟨hpc, Or.inl rfl⟩
  | lock hfree => exact ⟨hpc, Or.inl rfl⟩
  | @fetch m part =>
      refine ⟨?_, Or.inl rfl⟩
      cases part with
      | size => exact ⟨hpc, rfl⟩
      | type => exact ⟨hpc.1, rfl, hpc.2⟩
      | payload => exact ⟨hpc.1, rfl, hpc.2⟩
  | @send m part fd n hn hlength =>
      obtain ⟨rfl, haims, -⟩ := WriterPc.aims_of_send hpc
      exact ⟨WriterPc.aimed_afterSend (by simp [Event.sendObjects]) haims.append,
        Or.inr haims.append⟩
  | sendFails =>
      obtain ⟨rfl, haims, -⟩ := WriterPc.aims_of_send hpc
      exact ⟨trivial, Or.inr haims.append⟩
  | closing hclose => cases hclose <;> exact ⟨trivial, Or.inl rfl⟩
  | _ => exact ⟨trivial, Or.inl rfl⟩

/-- A field that follows a size goes where the size went. -/
theorem WriterMove.parts {pc pc' : WriterPc} (h : WriterMove env c pc e pc')
    (hpc : pc.Aimed c objects) (object : ℕ) :
    (e.partsOn object = [] ∨ e.partsOn object = [.size] ∨ some object ∈ objects) ∧
      (some object ∈ e.sendObjects objects →
        some object ∈ objects ∨ e.partsOn object ≠ []) := by
  have hsend : ∀ {m : TcpMessage} {part : FramePart} {fd : Fd} {n : ℤ},
      (WriterPc.send m part fd).Aimed c objects →
      let e := Event.send (.frame m part) (c.descriptors fd) (m.partBytes env.order part) n
      (e.partsOn object = [] ∨ e.partsOn object = [.size] ∨ some object ∈ objects) ∧
        (some object ∈ e.sendObjects objects →
          some object ∈ objects ∨ e.partsOn object ≠ []) := by
    intro m part fd n haimed
    obtain ⟨-, -, hpart⟩ := WriterPc.aims_of_send haimed
    by_cases hobject : c.descriptors fd = some object
    · rw [hobject] at hpart ⊢
      refine ⟨?_, fun _ => Or.inr (by simp [Event.partsOn])⟩
      rcases hpart with rfl | hearlier
      · exact Or.inr (Or.inl (by simp [Event.partsOn]))
      · exact Or.inr (Or.inr hearlier)
    · have hnone : (Event.send (.frame m part) (c.descriptors fd)
          (m.partBytes env.order part) n).partsOn object = [] := by
        cases hdescriptor : c.descriptors fd with
        | none => rfl
        | some o =>
            rw [hdescriptor, Option.some.injEq] at hobject
            exact if_neg hobject
      refine ⟨Or.inl hnone, ?_⟩
      intro hmem
      rcases List.mem_append.mp hmem with hold | hnew
      · exact Or.inl hold
      · exact absurd (List.mem_singleton.mp hnew).symm hobject
  cases h with
  | pop hfirst => exact ⟨Or.inl rfl, fun hmem => by cases hmem⟩
  | send hn hlength => exact hsend hpc
  | sendFails => exact hsend hpc
  | closing hclose => cases hclose <;> exact ⟨Or.inl rfl, Or.inl⟩
  | _ => exact ⟨Or.inl rfl, Or.inl⟩

theorem Event.sendObjects_of_exclusive_ne (he : e.exclusive ≠ some .writer) :
    e.sendObjects objects = objects := by
  cases e with
  | pop m => exact absurd rfl he
  | send call o bytes n =>
      cases call with
      | frame m part => exact absurd rfl he
      | ping => rfl
  | _ => rfl

theorem Event.partsOn_of_exclusive_ne (he : e.exclusive ≠ some .writer) (object : ℕ) :
    e.partsOn object = [] := by
  cases e with
  | send call o bytes n =>
      cases call with
      | frame m part => exact absurd rfl he
      | ping => rfl
  | _ => rfl

/-- The invariant of the writer. -/
structure System.WriterDirected (s : System) : Prop where
  aimed : WriterPc.Aimed s.client (sendObjects s.history) (s.threads .writer)
  same : ∀ a ∈ sendObjects s.history, ∀ b ∈ sendObjects s.history, a = b
  recorded : ∀ object, some object ∈ sendObjects s.history → partsOn object s.history ≠ []
  starts : ∀ object part, (partsOn object s.history).head? = some part → part = .size

theorem writerDirected_step (h : s.WriterDirected) (hguard : KeepsConnection env s act)
    (hstep : s.step env act = some s') : s'.WriterDirected := by
  obtain ⟨e, hevent, hclient, hhistory, hwriter | hother⟩ := System.focus .writer hstep
  · obtain ⟨-, outcome, hthread⟩ := hwriter
    have hmove := writerMove_of_step hthread
    obtain ⟨haimed, hobjects⟩ := hmove.aimed h.aimed
    refine ⟨?_, ?_, ?_, ?_⟩
    · rw [hclient, hhistory, sendObjects_append]
      exact haimed
    · rw [hhistory, sendObjects_append]
      rcases hobjects with hunchanged | haims
      · rw [hunchanged]
        exact h.same
      · exact haims.same
    · intro object hmem
      rw [hhistory, sendObjects_append] at hmem
      rw [hhistory, partsOn_append]
      rcases (hmove.parts h.aimed object).2 hmem with hold | hnew
      · exact List.append_ne_nil_of_left_ne_nil (h.recorded object hold) _
      · exact List.append_ne_nil_of_right_ne_nil _ hnew
    · intro object part hhead
      rw [hhistory, partsOn_append] at hhead
      cases hparts : partsOn object s.history with
      | cons first rest =>
          rw [hparts, List.cons_append, List.head?_cons] at hhead
          exact h.starts object part (by rw [hparts, List.head?_cons, hhead])
      | nil =>
          rw [hparts, List.nil_append] at hhead
          rcases (hmove.parts h.aimed object).1 with hnone | hsize | hearlier
          · rw [hnone] at hhead
            cases hhead
          · rw [hsize] at hhead
            cases hhead
            rfl
          · exact absurd hparts (h.recorded object hearlier)
  · obtain ⟨-, hexclusive, hsame⟩ := hother
    have hsends : sendObjects s'.history = sendObjects s.history := by
      rw [hhistory, sendObjects_append, e.sendObjects_of_exclusive_ne hexclusive]
    have hparts : ∀ object, partsOn object s'.history = partsOn object s.history := by
      intro object
      rw [hhistory, partsOn_append, e.partsOn_of_exclusive_ne hexclusive, List.append_nil]
    refine ⟨?_, by rw [hsends]; exact h.same, ?_, ?_⟩
    · rw [hclient, hsends, hsame]
      exact h.aimed.congr fun hflight => hguard (Or.inl hflight) e hevent
    · intro object hmem
      rw [hsends] at hmem
      rw [hparts]
      exact h.recorded object hmem
    · intro object part hhead
      rw [hparts] at hhead
      exact h.starts object part hhead

/-! ## The reader -/

theorem ReaderPc.aimed_ofProgress {progress : ReadProgress} (h : c.Aims objects) :
    (ReaderPc.ofProgress progress).Aimed c objects := by
  cases progress with
  | receiving f => exact h
  | escaped thrown m => cases thrown <;> trivial
  | _ => trivial

theorem ReaderMove.aimed {pc pc' : ReaderPc} (h : ReaderMove env c pc e pc')
    (hpc : pc.Aimed c objects) :
    pc'.Aimed (c.after e) (e.recvObjects objects) ∧
      (e.recvObjects objects = objects ∨ c.Aims (e.recvObjects objects)) := by
  cases h with
  | enter =>
      have hnone : c.Aims [] := fun o ho => by cases ho
      exact ⟨ReaderPc.aimed_ofProgress hnone, Or.inr hnone⟩
  | fetch => exact ⟨⟨rfl, hpc⟩, Or.inl rfl⟩
  | recv hfits =>
      obtain ⟨rfl, haims⟩ := hpc
      exact ⟨ReaderPc.aimed_ofProgress haims.append, Or.inr haims.append⟩
  | closing hclose => cases hclose <;> exact ⟨trivial, Or.inl rfl⟩
  | _ => exact ⟨trivial, Or.inl rfl⟩

theorem Event.recvObjects_of_exclusive_ne (he : e.exclusive ≠ some .reader) :
    e.recvObjects objects = objects := by
  cases e with
  | enterReadData => exact absurd rfl he
  | recv object result => exact absurd rfl he
  | _ => rfl

/-- The invariant of the reader. -/
structure System.ReaderDirected (s : System) : Prop where
  aimed : ReaderPc.Aimed s.client (recvObjects s.history) (s.threads .reader)
  same : ∀ a ∈ recvObjects s.history, ∀ b ∈ recvObjects s.history, a = b

theorem readerDirected_step (h : s.ReaderDirected) (hguard : KeepsConnection env s act)
    (hstep : s.step env act = some s') : s'.ReaderDirected := by
  obtain ⟨e, hevent, hclient, hhistory, hreader | hother⟩ := System.focus .reader hstep
  · obtain ⟨-, outcome, hthread⟩ := hreader
    obtain ⟨haimed, hobjects⟩ := (readerMove_of_step hthread).aimed h.aimed
    refine ⟨?_, ?_⟩
    · rw [hclient, hhistory, recvObjects_append]
      exact haimed
    · rw [hhistory, recvObjects_append]
      rcases hobjects with hunchanged | haims
      · rw [hunchanged]
        exact h.same
      · exact haims.same
  · obtain ⟨-, hexclusive, hsame⟩ := hother
    have hrecvs : recvObjects s'.history = recvObjects s.history := by
      rw [hhistory, recvObjects_append, e.recvObjects_of_exclusive_ne hexclusive]
    refine ⟨?_, by rw [hrecvs]; exact h.same⟩
    rw [hclient, hrecvs, hsame]
    exact h.aimed.congr fun hflight => hguard (Or.inr hflight) e hevent

/-! ## Runs -/

/-- One call, one connection: in every run in which the connection is not replaced while
a call is under way, the system calls of every `sendData` and of every `readData` are
made on one connection, and the frames on each connection begin with a size. -/
theorem oneConnection_of_keepsConnection
    (hrun : Guarded (System.step env) (KeepsConnection env) System.start s) :
    s.OneConnection := by
  have hwriter : s.WriterDirected := by
    refine hrun.invariant ?_ fun _ _ _ h hguard hstep => writerDirected_step h hguard hstep
    constructor <;> simp [System.start, sendObjects, partsOn, Tid.start, WriterPc.Aimed]
  have hreader : s.ReaderDirected := by
    refine hrun.invariant ?_ fun _ _ _ h hguard hstep => readerDirected_step h hguard hstep
    constructor <;> simp [System.start, recvObjects, Tid.start, ReaderPc.Aimed]
  exact ⟨hwriter.same, hreader.same, hwriter.starts⟩

theorem oneConnection_of_keepsConnection_sendOneByte :
    ∃ s, runActs (System.step Environment.plain) (KeepsConnection Environment.plain)
        System.start sendOneByte = some s ∧ s.OneConnection ∧
        sendObjects s.history = [some 1, some 1, some 1] := by
  obtain ⟨s, hrun, hobjects⟩ : ∃ s, runActs (System.step Environment.plain)
      (KeepsConnection Environment.plain) System.start sendOneByte = some s ∧
        sendObjects s.history = [some 1, some 1, some 1] := ⟨_, rfl, by decide⟩
  exact ⟨s, hrun, oneConnection_of_keepsConnection (guarded_of_runActs hrun), hobjects⟩

/-- The size of a frame is sent on one connection and its type on the next: the ping
between them fails, and the controller reconnects. -/
def sendAcross : List Act :=
  connect 5 6 ++ beginSend ++ [.thread .writer (.returns 8)] ++ loseConnection ++
    connect 5 6 ++ [.thread .writer .plain, .thread .writer (.returns 4)]

theorem not_oneConnection_sendAcross :
    ∃ s, Reaches (System.step Environment.plain) System.start s ∧ ¬ s.OneConnection := by
  obtain ⟨s, hrun, hobjects⟩ : ∃ s, runActs (System.step Environment.plain) (fun _ _ => True)
      System.start sendAcross = some s ∧ sendObjects s.history = [some 1, some 3] :=
    ⟨_, rfl, by decide⟩
  refine ⟨s, guarded_of_runActs hrun, ?_⟩
  intro hone
  have hsame := hone.sends (some 1) (by simp [hobjects]) (some 3) (by simp [hobjects])
  cases hsame

end ControlEngine
