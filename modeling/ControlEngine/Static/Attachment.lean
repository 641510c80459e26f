import ControlEngine.Static.NetworkInterface
import ControlEngine.Support.FirstFree
import ControlEngine.Support.Trace
import Mathlib.Data.List.Nodup

/-!
# Controllers get their own description

Each kind of controller scans the list for its own flag, so the descriptions that the
controllers of one kind are attached to are the first ones of the list, whatever the other
kinds and `fetchNetworkDescription` do in between.  The `k`-th fetch of a kind therefore
finds index `k - 1`, and returns it as an `int`.
-/

namespace ControlEngine

/-- The controllers that need a description of their own. -/
inductive ControllerKind
  | connection
  | writer
  | reader
deriving DecidableEq, Repr

def ControllerKind.attached : ControllerKind → NetworkDescription → Bool
  | connection, d => d.connectionControllerAttached
  | writer, d => d.writerControllerAttached
  | reader, d => d.readerControllerAttached

/-- A call of one of the four fetches. -/
inductive FetchCall
  | controller (kind : ControllerKind)
  | description (desc : List Byte)
deriving DecidableEq, Repr

namespace FetchCall

def run (n : NetworkInterface) : FetchCall → Option (Except Thrown ℤ × NetworkInterface)
  | controller .connection => n.fetchNetworkDescriptionConnectionController
  | controller .writer => n.fetchNetworkDescriptionWriterController
  | controller .reader => n.fetchNetworkDescriptionReaderController
  | description desc => n.fetchNetworkDescription desc

/-- A description in which nothing but the flag of the call is set. -/
def attach : FetchCall → NetworkDescription → NetworkDescription
  | controller .connection, d => { d with connectionControllerAttached := true }
  | controller .writer, d => { d with writerControllerAttached := true }
  | controller .reader, d => { d with readerControllerAttached := true }
  | description _, d => { d with executerControllerAttached := true }

/-- The interface behind a call. -/
def step (n : NetworkInterface) (call : FetchCall) : Option NetworkInterface :=
  (call.run n).map Prod.snd

/-- The result of a call. -/
def results (n : NetworkInterface) (call : FetchCall) : List (FetchCall × Except Thrown ℤ) :=
  ((call.run n).map fun r => (call, r.1)).toList

end FetchCall

/-- An interface, and the results of the calls so far. -/
abbrev Fetched := NetworkInterface × List (FetchCall × Except Thrown ℤ)

/-- What the calls of one kind have returned. -/
def returnedTo (kind : ControllerKind) (trace : List (FetchCall × Except Thrown ℤ)) :
    List (Except Thrown ℤ) :=
  trace.filterMap fun entry => if entry.1 = .controller kind then some entry.2 else none

/-- There are fewer calls of the kind so far than descriptions; the text that is looked for
is there. -/
def Fetchable (s : Fetched) : FetchCall → Prop
  | .controller kind => (returnedTo kind s.2).length < s.1.networkList.length
  | .description desc => ∃ d ∈ s.1.networkList, d.description = desc

instance (s : Fetched) : ∀ call, Decidable (Fetchable s call)
  | .controller kind =>
      inferInstanceAs (Decidable ((returnedTo kind s.2).length < s.1.networkList.length))
  | .description desc =>
      inferInstanceAs (Decidable (∃ d ∈ s.1.networkList, d.description = desc))

/-- `i` is the least index with that description. -/
def LeastWith (desc : List Byte) (list : List NetworkDescription) (i : ℕ) : Prop :=
  (∃ d, list[i]? = some d ∧ d.description = desc) ∧
    ∀ j d, j < i → list[j]? = some d → d.description ≠ desc

/-- A call returns `i`, and changes nothing but its own flag at `i`. -/
def FetchCall.TakesOnly (n : NetworkInterface) (call : FetchCall) (result : ℤ) (i : ℕ) : Prop :=
  call.run n = some (.ok result, { n with networkList := n.networkList.modify i call.attach })

/-- The descriptions that a kind is attached to are the first ones, and its calls have
returned their indices, as `int`s. -/
structure Attached (s : Fetched) : Prop where
  unlocked : s.1.getDescriptionMutex = false
  taken : ∀ kind : ControllerKind,
    TakenBelow kind.attached s.1.networkList (returnedTo kind s.2).length
  returned : ∀ kind : ControllerKind, returnedTo kind s.2 =
    (List.range (returnedTo kind s.2).length).map fun k => .ok (NetworkInterface.returnedIndex k)

/-! ## One call -/

variable {s s' : Fetched} {n : NetworkInterface} {call : FetchCall} {kind : ControllerKind}

theorem FetchCall.run_controller (n : NetworkInterface) (kind : ControllerKind) :
    (FetchCall.controller kind).run n =
      n.fetch (fun d => !kind.attached d) (FetchCall.controller kind).attach := by
  cases kind <;> rfl

theorem NetworkInterface.fetch_eq {wanted : NetworkDescription → Bool}
    {attach : NetworkDescription → NetworkDescription} {i : ℕ}
    (hunlocked : n.getDescriptionMutex = false)
    (hfind : n.networkList.findIdx? wanted = some i) :
    n.fetch wanted attach = some (.ok (NetworkInterface.returnedIndex i),
      { n with networkList := n.networkList.modify i attach }) := by
  simp [NetworkInterface.fetch, hunlocked, hfind]

/-- A call of a kind takes the next description. -/
theorem Attached.controller (h : Attached s) (hcall : Fetchable s (.controller kind)) :
    (FetchCall.controller kind).TakesOnly s.1
      (NetworkInterface.returnedIndex (returnedTo kind s.2).length)
      (returnedTo kind s.2).length := by
  rw [FetchCall.TakesOnly, FetchCall.run_controller]
  exact NetworkInterface.fetch_eq h.unlocked ((h.taken kind).findIdx? hcall)

/-- A call that looks for a text takes the first description with that text. -/
theorem Attached.description {desc : List Byte} (h : Attached s)
    (hcall : Fetchable s (.description desc)) :
    ∃ i, LeastWith desc s.1.networkList i ∧
      (FetchCall.description desc).TakesOnly s.1 (NetworkInterface.returnedIndex i) i := by
  obtain ⟨d, hmem, hdesc⟩ := hcall
  obtain ⟨i, hfind⟩ : ∃ i, s.1.networkList.findIdx? (fun d => d.description = desc) = some i := by
    rw [← Option.isSome_iff_exists, List.findIdx?_isSome, List.any_eq_true]
    exact ⟨d, hmem, by simpa using hdesc⟩
  refine ⟨i, ?_, NetworkInterface.fetch_eq h.unlocked hfind⟩
  obtain ⟨hi, hwanted, hearlier⟩ := List.findIdx?_eq_some_iff_getElem.mp hfind
  refine ⟨⟨_, List.getElem?_eq_getElem hi, by simpa using hwanted⟩, ?_⟩
  intro j d' hj hget
  obtain ⟨hlength, rfl⟩ := List.getElem?_eq_some_iff.mp hget
  simpa using hearlier j hj

theorem FetchCall.attached_attach (call : FetchCall) (kind : ControllerKind)
    (d : NetworkDescription) :
    kind.attached (call.attach d) = (decide (call = .controller kind) || kind.attached d) := by
  cases call with
  | controller kind' => cases kind' <;> cases kind <;> rfl
  | description desc => cases kind <;> rfl

theorem returnedTo_append (trace : List (FetchCall × Except Thrown ℤ)) (result : Except Thrown ℤ) :
    returnedTo kind (trace ++ [(call, result)]) =
      returnedTo kind trace ++ if call = .controller kind then [result] else [] := by
  by_cases hcall : call = .controller kind
  · simp [returnedTo, hcall]
  · simp [returnedTo, hcall]

theorem FetchCall.TakesOnly.step {result : ℤ} {i : ℕ} (h : call.TakesOnly s.1 result i) :
    observed FetchCall.step FetchCall.results s call =
      some ({ s.1 with networkList := s.1.networkList.modify i call.attach },
        s.2 ++ [(call, .ok result)]) := by
  rw [FetchCall.TakesOnly] at h
  simp [observed, FetchCall.step, FetchCall.results, h]

theorem attached_step (h : Attached s) (hcall : Fetchable s call)
    (hstep : observed FetchCall.step FetchCall.results s call = some s') : Attached s' := by
  cases call with
  | controller kind' =>
      obtain rfl := Option.some.inj ((h.controller hcall).step.symm.trans hstep)
      refine ⟨h.unlocked, ?_, ?_⟩
      · intro kind
        rw [returnedTo_append]
        by_cases hkind : kind' = kind
        · subst hkind
          simpa using (h.taken kind').modify (FetchCall.controller kind').attach
            fun d => by simp [FetchCall.attached_attach]
        · simpa [hkind] using (h.taken kind).modify_of_eq (FetchCall.controller kind').attach
            fun d => by simp [FetchCall.attached_attach, hkind]
      · intro kind
        rw [returnedTo_append]
        by_cases hkind : kind' = kind
        · subst hkind
          simp only [if_true, List.length_append, List.length_singleton, List.range_succ,
            List.map_append, List.map_singleton]
          rw [← h.returned kind']
        · simpa [hkind] using h.returned kind
  | description desc =>
      obtain ⟨i, -, htakes⟩ := h.description hcall
      obtain rfl := Option.some.inj (htakes.step.symm.trans hstep)
      refine ⟨h.unlocked, ?_, ?_⟩
      · intro kind
        rw [returnedTo_append]
        simpa using (h.taken kind).modify_of_eq (FetchCall.description desc).attach
          fun d => by simp [FetchCall.attached_attach]
      · intro kind
        rw [returnedTo_append]
        simpa using h.returned kind

/-! ## Runs -/

/-- A new interface, and no calls so far. -/
def Fetched.start (settings : List NetworkSettings) : Fetched :=
  (NetworkInterface.iniNetworkInterface settings, [])

theorem attached_start (settings : List NetworkSettings) : Attached (Fetched.start settings) where
  unlocked := rfl
  taken kind := by
    refine takenBelow_zero ?_
    intro d hd
    obtain ⟨entry, -, rfl⟩ := List.mem_map.mp hd
    cases kind <;> rfl
  returned _ := rfl

/-- With `count` descriptions, nobody has been called more often than that. -/
structure Orderly (count : ℕ) (s : Fetched) : Prop where
  attached : Attached s
  length : s.1.networkList.length = count
  bounded : ∀ kind, (returnedTo kind s.2).length ≤ count

theorem FetchCall.TakesOnly.length_eq {result : ℤ} {i : ℕ} (h : call.TakesOnly s.1 result i)
    (hstep : observed FetchCall.step FetchCall.results s call = some s') :
    s'.1.networkList.length = s.1.networkList.length ∧
      ∀ kind, (returnedTo kind s'.2).length =
        (returnedTo kind s.2).length + if call = .controller kind then 1 else 0 := by
  obtain rfl := Option.some.inj (h.step.symm.trans hstep)
  refine ⟨by simp, ?_⟩
  intro kind
  rw [returnedTo_append, List.length_append]
  split <;> rfl

theorem orderly_step {count : ℕ} (h : Orderly count s) (hcall : Fetchable s call)
    (hstep : observed FetchCall.step FetchCall.results s call = some s') : Orderly count s' := by
  have hattached := attached_step h.attached hcall hstep
  cases call with
  | controller kind' =>
      obtain ⟨hlength, hcount⟩ := (h.attached.controller hcall).length_eq hstep
      refine ⟨hattached, hlength.trans h.length, ?_⟩
      intro kind
      rw [hcount]
      by_cases hkind : kind' = kind
      · subst hkind
        have hroom : (returnedTo kind' s.2).length < count := h.length ▸ hcall
        rw [if_pos rfl]
        exact hroom
      · simpa [hkind] using h.bounded kind
  | description desc =>
      obtain ⟨i, -, htakes⟩ := h.attached.description hcall
      obtain ⟨hlength, hcount⟩ := htakes.length_eq hstep
      refine ⟨hattached, hlength.trans h.length, ?_⟩
      intro kind
      rw [hcount]
      simpa using h.bounded kind

variable {settings : List NetworkSettings}

theorem orderly_of_guarded
    (hrun : Guarded (observed FetchCall.step FetchCall.results) Fetchable
      (Fetched.start settings) s) : Orderly settings.length s := by
  have hstart : Orderly settings.length (Fetched.start settings) :=
    ⟨attached_start settings, List.length_map _, fun _ => Nat.zero_le _⟩
  exact hrun.invariant hstart fun _ _ _ h hcall hstep => orderly_step h hcall hstep

theorem NetworkInterface.returnedIndex_of_lt {i : ℕ} (hi : i < 2 ^ 31) :
    NetworkInterface.returnedIndex i = i := by
  have hmod : (BitVec.ofNat 32 i).toNat = i := by
    rw [BitVec.toNat_ofNat]
    omega
  rw [NetworkInterface.returnedIndex, BitVec.toInt_eq_toNat_of_lt (by omega), hmod]

theorem NetworkInterface.returnedIndex_injective {i j : ℕ} (hi : i < 2 ^ 32) (hj : j < 2 ^ 32)
    (h : NetworkInterface.returnedIndex i = NetworkInterface.returnedIndex j) : i = j := by
  have hwords := congrArg BitVec.toNat (BitVec.eq_of_toInt_eq h)
  rw [BitVec.toNat_ofNat, BitVec.toNat_ofNat, Nat.mod_eq_of_lt hi, Nat.mod_eq_of_lt hj] at hwords
  exact hwords

/-- What the fetches of a run have in common: the calls of each kind have returned `0`, `1`,
`2` and so on as `int`s, the descriptions that a kind is attached to are the first ones of the
list, and every further call returns, changes nothing but its own flag at the index it has
found, and finds the least index of the text it looks for. -/
structure FetchesInOrder (s : Fetched) : Prop where
  returned : ∀ kind, returnedTo kind s.2 = (List.range (returnedTo kind s.2).length).map
    fun k => .ok (NetworkInterface.returnedIndex k)
  taken : ∀ kind : ControllerKind,
    TakenBelow kind.attached s.1.networkList (returnedTo kind s.2).length
  takes : ∀ call, Fetchable s call → ∃ i : ℕ,
    call.TakesOnly s.1 (NetworkInterface.returnedIndex i) i ∧
      (∀ kind, call = .controller kind → i = (returnedTo kind s.2).length) ∧
      ∀ desc, call = .description desc → LeastWith desc s.1.networkList i

/-- Controllers get their own network: the fetches of every run are in order, an index is
returned as it is below `2 ^ 31`, and up to `2 ^ 32` descriptions no two controllers of one
kind share what is returned to them. -/
theorem fetches_in_order
    (hrun : Guarded (observed FetchCall.step FetchCall.results) Fetchable
      (Fetched.start settings) s) :
    FetchesInOrder s ∧ (∀ i < 2 ^ 31, NetworkInterface.returnedIndex i = i) ∧
      (settings.length ≤ 2 ^ 32 → ∀ kind, (returnedTo kind s.2).Nodup) := by
  obtain ⟨hattached, -, hbounded⟩ := orderly_of_guarded hrun
  refine ⟨⟨hattached.returned, hattached.taken, ?_⟩,
    fun i hi => NetworkInterface.returnedIndex_of_lt hi, ?_⟩
  · intro call hcall
    cases call with
    | controller kind =>
        refine ⟨_, hattached.controller hcall, ?_, nofun⟩
        rintro kind' heq
        cases heq
        rfl
    | description desc =>
        obtain ⟨i, hleast, htakes⟩ := hattached.description hcall
        refine ⟨i, htakes, nofun, ?_⟩
        rintro desc' heq
        cases heq
        exact hleast
  · intro hsettings kind
    rw [hattached.returned kind]
    refine List.Nodup.map_on ?_ List.nodup_range
    intro i hi j hj heq
    have hbound := (hbounded kind).trans hsettings
    rw [List.mem_range] at hi hj
    exact NetworkInterface.returnedIndex_injective (by omega) (by omega) (Except.ok.inj heq)

/-- The settings of two networks. -/
def twoNetworks : List NetworkSettings :=
  [⟨[], 8080, [76], [84, 67, 80], []⟩, ⟨[], 8081, [67], [84, 67, 80], []⟩]

theorem fetches_in_order_twoNetworks :
    ∃ s : Fetched, returnedTo .writer s.2 = [.ok 0, .ok 1] ∧ FetchesInOrder s ∧
      (∀ i < 2 ^ 31, NetworkInterface.returnedIndex i = i) ∧
      (twoNetworks.length ≤ 2 ^ 32 → ∀ kind, (returnedTo kind s.2).Nodup) := by
  obtain ⟨s, hrun, hreturned⟩ : ∃ s : Fetched,
      runActs (observed FetchCall.step FetchCall.results) Fetchable (Fetched.start twoNetworks)
        [.controller .writer, .description [67], .controller .reader, .controller .writer] =
          some s ∧ returnedTo .writer s.2 = [.ok 0, .ok 1] := ⟨_, rfl, rfl⟩
  exact ⟨s, hreturned, fetches_in_order (guarded_of_runActs hrun)⟩

/-! ## Lists that are too long for an `int` -/

/-- Any number of calls of a kind can be made, up to the length of the list. -/
theorem exists_calls (settings : List NetworkSettings) (kind : ControllerKind) {k : ℕ}
    (hk : k ≤ settings.length) :
    ∃ s : Fetched, Guarded (observed FetchCall.step FetchCall.results) Fetchable
      (Fetched.start settings) s ∧ (returnedTo kind s.2).length = k := by
  induction k with
  | zero => exact ⟨_, Guarded.refl _, rfl⟩
  | succ k ih =>
      obtain ⟨s, hrun, hcount⟩ := ih (Nat.le_of_succ_le hk)
      obtain ⟨hattached, hlength, -⟩ := orderly_of_guarded hrun
      have hcall : Fetchable s (.controller kind) := by
        rw [Fetchable, hcount, hlength]
        exact hk
      have hstep := (hattached.controller hcall).step
      refine ⟨_, hrun.tail hcall hstep, ?_⟩
      rw [((hattached.controller hcall).length_eq hstep).2 kind, hcount, if_pos rfl]

/-- A controller that is the first behind `2 ^ 31` others of its kind gets a negative index. -/
theorem not_fetches_in_order_long :
    ∃ (settings : List NetworkSettings) (s : Fetched),
      Guarded (observed FetchCall.step FetchCall.results) Fetchable
        (Fetched.start settings) s ∧
      returnedTo .connection s.2 ≠
        (List.range (returnedTo .connection s.2).length).map fun k => .ok (k : ℤ) := by
  have hlength : 2 ^ 31 + 1 ≤
      (List.replicate (2 ^ 31 + 1) (⟨[], 0, [], [], []⟩ : NetworkSettings)).length :=
    List.length_replicate.ge
  obtain ⟨s, hrun, hcount⟩ := exists_calls _ .connection hlength
  refine ⟨_, s, hrun, ?_⟩
  rw [(orderly_of_guarded hrun).attached.returned .connection, hcount]
  intro heq
  have hlast := congrArg (fun l => l[2 ^ 31]?) heq
  simp [NetworkInterface.returnedIndex] at hlast

end ControlEngine
