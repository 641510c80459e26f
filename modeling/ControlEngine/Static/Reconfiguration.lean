import ControlEngine.Static.NetworkInterface
import ControlEngine.Support.Trace

/-!
# Reconfiguration

The end point of a network is kept in its description and, once more, in its socket client,
which has it from the constructor.  `setNetworkIndexAddress` and `setNetworkIndexPort` write
the copy of the description and close the socket; nothing writes the copy of the client, and
that is the one which the next build puts into the address that `bindSocket` binds to.  So
the copies agree exactly as long as every call sets what is there already.
-/

namespace ControlEngine

/-- The calls that reconfigure a network, and the two steps of a build that concern its end
point. -/
inductive NetworkAct
  | setNetworkIndexAddress (addr : List Byte) (i : ℕ)
  | setNetworkIndexPort (port : ℤ) (i : ℕ)
  | restartNetwork (i : ℕ)
  | buildInternalSocketAddress (i : ℕ) (setsockopt : ℤ)
  | bindSocket (i : ℕ)
deriving DecidableEq, Repr

/-- What is seen of the builds: the port of the description when the address was built, or
that building it failed, and the port that `bindSocket` binds to. -/
inductive PortSight
  | built (i : ℕ) (wanted : ℤ)
  | buildFailed (i : ℕ)
  | bound (i : ℕ) (port : Option (BitVec 16))
deriving DecidableEq, Repr

namespace NetworkAct

def step (n : NetworkInterface) : NetworkAct → Option NetworkInterface
  | setNetworkIndexAddress addr i => n.setNetworkIndexAddress addr i
  | setNetworkIndexPort port i => n.setNetworkIndexPort port i
  | restartNetwork i => n.restartNetwork i
  | buildInternalSocketAddress i setsockopt =>
      if i < n.networkList.length then
        some { n with
          networkList := n.networkList.modify i fun d =>
            { d with socketClient := (d.socketClient.buildInternalSocketAddress setsockopt).2 } }
      else
        none
  | bindSocket i => if i < n.networkList.length then some n else none

def sights (n : NetworkInterface) : NetworkAct → List PortSight
  | buildInternalSocketAddress i setsockopt =>
      (n.networkList[i]?.map fun d =>
        if (d.socketClient.buildInternalSocketAddress setsockopt).1 = 0 then .built i d.hostPort
        else .buildFailed i).toList
  | bindSocket i => (n.networkList[i]?.map fun d => .bound i d.socketClient.sin_port).toList
  | _ => []

end NetworkAct

/-- The port that the description of a network had when its address was built last, unless
that failed. -/
def PortSight.latest (i : ℕ) (before : Option ℤ) : PortSight → Option ℤ
  | built j wanted => if j = i then some wanted else before
  | buildFailed j => if j = i then none else before
  | bound _ _ => before

def latestBuilt (i : ℕ) (trace : List PortSight) : Option ℤ :=
  trace.foldl (PortSight.latest i) none

/-- A socket is bound to the port that the description had when the address was built. -/
def BindsWanted (before : List PortSight) : PortSight → Prop
  | .bound i port => ∀ wanted, latestBuilt i before = some wanted → port = some (htons wanted)
  | _ => True

/-- The two copies of the end point agree. -/
def NetworkDescription.Agrees (d : NetworkDescription) : Prop :=
  d.socketClient.hostPort = d.hostPort ∧ d.socketClient.hostAddress = d.hostAddress

/-- An interface, and what was seen of its builds. -/
abbrev Reconfigured := NetworkInterface × List PortSight

/-- Reconfiguration has taken effect. -/
structure TakesEffect (s : Reconfigured) : Prop where
  agrees : ∀ d ∈ s.1.networkList, d.Agrees
  binds : Lawful BindsWanted s.2

/-- A call sets what is there already. -/
def SetsSame (s : Reconfigured) : NetworkAct → Prop
  | .setNetworkIndexAddress addr i => ∀ d, s.1.networkList[i]? = some d → d.hostAddress = addr
  | .setNetworkIndexPort port i => ∀ d, s.1.networkList[i]? = some d → d.hostPort = port
  | _ => True

/-! ## What an act changes -/

/-- The end point of a network, with both copies and the port in the address. -/
structure EndPoint where
  hostAddress : List Byte
  hostPort : ℤ
  clientAddress : List Byte
  clientPort : ℤ
  sin_port : Option (BitVec 16)

def NetworkDescription.endPoint (d : NetworkDescription) : EndPoint where
  hostAddress := d.hostAddress
  hostPort := d.hostPort
  clientAddress := d.socketClient.hostAddress
  clientPort := d.socketClient.hostPort
  sin_port := d.socketClient.sin_port

/-- The end point of network `i`. -/
def NetworkInterface.endPoint (n : NetworkInterface) (i : ℕ) : Option EndPoint :=
  n.networkList[i]?.map NetworkDescription.endPoint

/-- The network that an act is about. -/
def NetworkAct.index : NetworkAct → ℕ
  | setNetworkIndexAddress _ i | setNetworkIndexPort _ i | restartNetwork i
  | buildInternalSocketAddress i _ | bindSocket i => i

/-- What an act does to the end point of its network. -/
def NetworkAct.change : NetworkAct → EndPoint → EndPoint
  | setNetworkIndexAddress addr _, p => { p with hostAddress := addr }
  | setNetworkIndexPort port _, p => { p with hostPort := port }
  | buildInternalSocketAddress _ setsockopt, p =>
      if setsockopt = -1 then p else { p with sin_port := some (htons p.clientPort) }
  | restartNetwork _, p | bindSocket _, p => p

variable {n n' : NetworkInterface} {s s' : Reconfigured} {act : NetworkAct}

theorem NetworkInterface.endPoint_modify {change : NetworkDescription → NetworkDescription}
    (change' : EndPoint → EndPoint) (h : ∀ d, (change d).endPoint = change' d.endPoint)
    (n : NetworkInterface) (i j : ℕ) :
    NetworkInterface.endPoint { n with networkList := n.networkList.modify i change } j =
      (n.endPoint j).map (if i = j then change' else id) := by
  rw [NetworkInterface.endPoint, NetworkInterface.endPoint, List.getElem?_modify]
  cases n.networkList[j]? with
  | none => rfl
  | some d =>
      by_cases hij : i = j
      · simp [hij, h]
      · simp [hij]

theorem NetworkInterface.endPoint_restartNetwork {i : ℕ} (h : n.restartNetwork i = some n')
    (j : ℕ) : n'.endPoint j = n.endPoint j := by
  obtain ⟨-, hstep⟩ := Option.ite_none_right_eq_some.mp h
  cases hstep
  refine Eq.trans (NetworkInterface.endPoint_modify id ?_ n i j) ?_
  · intro d
    rfl
  · simp

theorem NetworkAct.endPoint_step (h : act.step n = some n') (j : ℕ) :
    n'.endPoint j = (n.endPoint j).map (if act.index = j then act.change else id) := by
  cases act with
  | setNetworkIndexAddress addr i =>
      rw [NetworkInterface.endPoint_restartNetwork h]
      refine NetworkInterface.endPoint_modify _ ?_ n i j
      intro d
      rfl
  | setNetworkIndexPort port i =>
      rw [NetworkInterface.endPoint_restartNetwork h]
      refine NetworkInterface.endPoint_modify _ ?_ n i j
      intro d
      rfl
  | restartNetwork i =>
      rw [NetworkInterface.endPoint_restartNetwork h]
      have hsame : NetworkAct.change (.restartNetwork i) = id := rfl
      simp [hsame]
  | buildInternalSocketAddress i setsockopt =>
      obtain ⟨-, hstep⟩ := Option.ite_none_right_eq_some.mp h
      cases hstep
      refine NetworkInterface.endPoint_modify _ ?_ n i j
      intro d
      simp only [TcpSocketClient.buildInternalSocketAddress, NetworkAct.change]
      split <;> rfl
  | bindSocket i =>
      obtain ⟨-, hstep⟩ := Option.ite_none_right_eq_some.mp h
      cases hstep
      have hsame : NetworkAct.change (.bindSocket i) = id := rfl
      simp [hsame]

/-- What is seen of an act, from the end point of its network. -/
def NetworkAct.sightsOf (p : EndPoint) : NetworkAct → List PortSight
  | buildInternalSocketAddress i setsockopt =>
      if setsockopt = -1 then [.buildFailed i] else [.built i p.hostPort]
  | bindSocket i => [.bound i p.sin_port]
  | _ => []

theorem NetworkAct.sights_of_endPoint {p : EndPoint} (h : n.endPoint act.index = some p) :
    act.sights n = act.sightsOf p := by
  obtain ⟨d, hd, rfl⟩ := Option.map_eq_some_iff.mp h
  cases act with
  | buildInternalSocketAddress i setsockopt =>
      rw [NetworkAct.index] at hd
      by_cases hfails : setsockopt = -1
      · simp [sights, sightsOf, TcpSocketClient.buildInternalSocketAddress, hd, hfails]
      · simp [sights, sightsOf, TcpSocketClient.buildInternalSocketAddress, hd, hfails,
          NetworkDescription.endPoint]
  | bindSocket i =>
      rw [NetworkAct.index] at hd
      simp [sights, sightsOf, hd, NetworkDescription.endPoint]
  | _ => rfl

theorem NetworkAct.exists_endPoint (h : act.step n = some n') :
    ∃ p, n.endPoint act.index = some p := by
  have hindex : act.index < n.networkList.length := by
    cases act with
    | setNetworkIndexAddress addr i =>
        simpa [NetworkAct.index] using (Option.ite_none_right_eq_some.mp h).1
    | setNetworkIndexPort port i =>
        simpa [NetworkAct.index] using (Option.ite_none_right_eq_some.mp h).1
    | restartNetwork i => exact (Option.ite_none_right_eq_some.mp h).1
    | buildInternalSocketAddress i setsockopt => exact (Option.ite_none_right_eq_some.mp h).1
    | bindSocket i => exact (Option.ite_none_right_eq_some.mp h).1
  exact ⟨_, by rw [NetworkInterface.endPoint, List.getElem?_eq_getElem hindex]; rfl⟩

/-! ## Runs -/

theorem latestBuilt_append (i : ℕ) (trace : List PortSight) (x : PortSight) :
    latestBuilt i (trace ++ [x]) = PortSight.latest i (latestBuilt i trace) x := by
  simp [latestBuilt]

/-- The copies agree, and the address of a network holds the port of its description at its
latest build. -/
structure Settled (s : Reconfigured) : Prop where
  agrees : ∀ i p, s.1.endPoint i = some p →
    p.clientPort = p.hostPort ∧ p.clientAddress = p.hostAddress
  built : ∀ i p wanted, s.1.endPoint i = some p → latestBuilt i s.2 = some wanted →
    p.sin_port = some (htons wanted)
  binds : Lawful BindsWanted s.2

theorem NetworkDescription.agrees_iff (d : NetworkDescription) :
    d.Agrees ↔ d.endPoint.clientPort = d.endPoint.hostPort ∧
      d.endPoint.clientAddress = d.endPoint.hostAddress :=
  Iff.rfl

theorem Settled.takesEffect (h : Settled s) : TakesEffect s where
  agrees d hd := by
    obtain ⟨i, hi, rfl⟩ := List.getElem_of_mem hd
    refine (NetworkDescription.agrees_iff _).mpr (h.agrees i _ ?_)
    rw [NetworkInterface.endPoint, List.getElem?_eq_getElem hi]
    rfl
  binds := h.binds

/-- An allowed act changes no end point but the port in the address. -/
theorem NetworkAct.change_of_setsSame {p : EndPoint} (hguard : SetsSame s act)
    (hp : s.1.endPoint act.index = some p) :
    act.change p = { p with sin_port := (act.change p).sin_port } := by
  obtain ⟨d, hd, rfl⟩ := Option.map_eq_some_iff.mp hp
  cases act with
  | setNetworkIndexAddress addr i =>
      rw [NetworkAct.change, ← hguard d hd]
      rfl
  | setNetworkIndexPort port i =>
      rw [NetworkAct.change, ← hguard d hd]
      rfl
  | buildInternalSocketAddress i setsockopt =>
      rw [NetworkAct.change]
      split <;> rfl
  | _ => rfl

theorem NetworkAct.latestBuilt_of_ne {p : EndPoint} {i : ℕ} {wanted : ℤ}
    {trace : List PortSight} (hi : act.index ≠ i)
    (h : latestBuilt i (trace ++ act.sightsOf p) = some wanted) :
    latestBuilt i trace = some wanted := by
  cases act with
  | buildInternalSocketAddress j setsockopt =>
      have hj : j ≠ i := hi
      by_cases hfails : setsockopt = -1
      · simpa [sightsOf, hfails, latestBuilt_append, PortSight.latest, hj] using h
      · simpa [sightsOf, hfails, latestBuilt_append, PortSight.latest, hj] using h
  | bindSocket j => simpa [sightsOf, latestBuilt_append, PortSight.latest] using h
  | _ => simpa [sightsOf] using h

/-- While the copies agree, a build writes the port of the description. -/
theorem NetworkAct.built_change {p : EndPoint} {wanted : ℤ} {trace : List PortSight}
    (act : NetworkAct) (hagrees : p.clientPort = p.hostPort)
    (hbuilt : ∀ wanted, latestBuilt act.index trace = some wanted →
      p.sin_port = some (htons wanted))
    (h : latestBuilt act.index (trace ++ act.sightsOf p) = some wanted) :
    (act.change p).sin_port = some (htons wanted) := by
  cases act with
  | buildInternalSocketAddress i setsockopt =>
      by_cases hfails : setsockopt = -1
      · simp [sightsOf, hfails, latestBuilt_append, PortSight.latest, index] at h
      · obtain rfl : p.hostPort = wanted := by
          simpa [sightsOf, hfails, latestBuilt_append, PortSight.latest, index] using h
        simp [change, hfails, hagrees]
  | bindSocket i =>
      exact hbuilt wanted (by simpa [sightsOf, latestBuilt_append, PortSight.latest] using h)
  | _ => exact hbuilt wanted (by simpa [sightsOf] using h)

theorem settled_step (h : Settled s) (hguard : SetsSame s act)
    (hstep : observed NetworkAct.step NetworkAct.sights s act = some s') : Settled s' := by
  obtain ⟨hinterface, htrace⟩ := observed_cases hstep
  obtain ⟨p, hp⟩ := NetworkAct.exists_endPoint hinterface
  rw [NetworkAct.sights_of_endPoint hp] at htrace
  refine ⟨?_, ?_, ?_⟩
  · intro i q hq
    rw [NetworkAct.endPoint_step hinterface] at hq
    obtain ⟨q', hq', rfl⟩ := Option.map_eq_some_iff.mp hq
    by_cases hi : act.index = i
    · subst hi
      obtain rfl : p = q' := Option.some.inj (hp.symm.trans hq')
      rw [if_pos rfl, NetworkAct.change_of_setsSame hguard hp]
      exact h.agrees _ p hp
    · rw [if_neg hi]
      exact h.agrees i q' hq'
  · intro i q wanted hq hwanted
    rw [NetworkAct.endPoint_step hinterface] at hq
    obtain ⟨q', hq', rfl⟩ := Option.map_eq_some_iff.mp hq
    rw [htrace] at hwanted
    by_cases hi : act.index = i
    · subst hi
      obtain rfl : p = q' := Option.some.inj (hp.symm.trans hq')
      rw [if_pos rfl]
      exact act.built_change (h.agrees _ p hp).1 (h.built _ p · hp) hwanted
    · rw [if_neg hi]
      exact h.built i q' wanted hq' (act.latestBuilt_of_ne hi hwanted)
  · rw [htrace]
    cases act with
    | bindSocket i =>
        exact lawful_append_singleton.mpr ⟨h.binds, fun wanted => h.built i p wanted hp⟩
    | buildInternalSocketAddress i setsockopt =>
        refine h.binds.append_of_forall ?_
        rw [NetworkAct.sightsOf]
        split <;> simp [BindsWanted]
    | _ => exact h.binds.append_of_forall (by simp [NetworkAct.sightsOf])

/-- A call that sets something else leaves the copy of the client behind. -/
theorem setsSame_of_agrees (h : Settled s)
    (hstep : observed NetworkAct.step NetworkAct.sights s act = some s') (h' : TakesEffect s') :
    SetsSame s act := by
  obtain ⟨hinterface, -⟩ := observed_cases hstep
  have hagrees : ∀ p, s.1.endPoint act.index = some p →
      (act.change p).clientPort = (act.change p).hostPort ∧
        (act.change p).clientAddress = (act.change p).hostAddress := by
    intro p hp
    have hnew := NetworkAct.endPoint_step hinterface act.index
    rw [hp, if_pos rfl] at hnew
    obtain ⟨d, hd, hchange⟩ := Option.map_eq_some_iff.mp hnew
    have hd' := (NetworkDescription.agrees_iff d).mp (h'.agrees d (List.mem_of_getElem? hd))
    rwa [hchange] at hd'
  cases act with
  | setNetworkIndexAddress addr i =>
      intro d hd
      have hp : s.1.endPoint i = some d.endPoint := by
        rw [NetworkInterface.endPoint, hd]
        rfl
      exact (h.agrees i _ hp).2.symm.trans (hagrees _ hp).2
  | setNetworkIndexPort port i =>
      intro d hd
      have hp : s.1.endPoint i = some d.endPoint := by
        rw [NetworkInterface.endPoint, hd]
        rfl
      exact (h.agrees i _ hp).1.symm.trans (hagrees _ hp).1
  | _ => trivial

/-- A new interface, and no builds so far. -/
def Reconfigured.start (settings : List NetworkSettings) : Reconfigured :=
  (NetworkInterface.iniNetworkInterface settings, [])

theorem settled_start (settings : List NetworkSettings) : Settled (Reconfigured.start settings) where
  agrees i p hp := by
    obtain ⟨d, hd, rfl⟩ := Option.map_eq_some_iff.mp hp
    obtain ⟨entry, -, rfl⟩ := List.mem_map.mp (List.mem_of_getElem? hd)
    exact ⟨rfl, rfl⟩
  built i p wanted _ hwanted := by cases hwanted
  binds := lawful_nil _

/-- Reconfiguration takes effect, in the sense that the copies of every end point agree in
every state of the run and every socket is bound to the port that its description had when
the address was built, exactly if no call of the run sets anything new. -/
theorem takesEffect_iff_setsSame (settings : List NetworkSettings) (acts : List NetworkAct) :
    Along (observed NetworkAct.step NetworkAct.sights) TakesEffect
        (Reconfigured.start settings) acts ↔
      Permitted (observed NetworkAct.step NetworkAct.sights) SetsSame
        (Reconfigured.start settings) acts :=
  along_iff_permitted acts (settled_start settings) (fun _ h => h.takesEffect)
    (fun _ _ _ h hguard hstep => settled_step h hguard hstep)
    fun _ _ _ h hstep h' => setsSame_of_agrees h hstep h'

/-- The port of a network is changed, and the next build binds to the old one. -/
theorem not_takesEffect_newPort :
    ∃ s : Reconfigured, Reaches (observed NetworkAct.step NetworkAct.sights)
        (Reconfigured.start [⟨[], 8080, [], [], []⟩]) s ∧
      s.2 = [.built 0 9000, .bound 0 (some 8080)] ∧ ¬ TakesEffect s := by
  obtain ⟨s, hrun, htrace⟩ : ∃ s : Reconfigured,
      runActs (observed NetworkAct.step NetworkAct.sights) (fun _ _ => True)
          (Reconfigured.start [⟨[], 8080, [], [], []⟩])
          [.setNetworkIndexPort 9000 0, .buildInternalSocketAddress 0 0, .bindSocket 0] =
        some s ∧ s.2 = [.built 0 9000, .bound 0 (some 8080)] := ⟨_, rfl, by decide⟩
  refine ⟨s, guarded_of_runActs hrun, htrace, ?_⟩
  intro heffect
  have hprefix : [.built 0 9000] ++ [.bound 0 (some 8080)] <+: s.2 := by
    rw [htrace]
    exact List.prefix_refl _
  have hbinds := heffect.binds [.built 0 9000] (.bound 0 (some 8080)) hprefix
  exact absurd (hbinds 9000 rfl) (by decide)

end ControlEngine
