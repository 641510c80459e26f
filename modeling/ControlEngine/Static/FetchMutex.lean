import ControlEngine.Static.Attachment

/-!
# The mutex of the fetches

Each of the four fetches locks `getDescriptionMutex`, scans the list and unlocks the mutex
where it has found a description.  Behind the loop it throws, and the mutex stays locked.
The call that has thrown has done no other harm, but every later call blocks, whichever of
the four it is and whatever it looks for.
-/

namespace ControlEngine

/-- The descriptions that a call looks for. -/
def FetchCall.wanted : FetchCall → NetworkDescription → Bool
  | controller kind, d => !kind.attached d
  | description desc, d => d.description = desc

/-- There is a description that the call looks for. -/
def FindsEntry (n : NetworkInterface) (call : FetchCall) : Prop :=
  ∃ d ∈ n.networkList, call.wanted d = true

/-- Each of the calls comes back, with a result or a throw, and leaves the mutex free; one
that has found nothing has left the list as it was. -/
def LeavesUsable : NetworkInterface → List FetchCall → Prop
  | _, [] => True
  | n, call :: calls =>
      ∃ result n', call.run n = some (result, n') ∧ n'.getDescriptionMutex = false ∧
        (∀ thrown, result = .error thrown → n'.networkList = n.networkList) ∧
        LeavesUsable n' calls

/-! ## One call -/

variable {n n' : NetworkInterface} {call : FetchCall}

theorem FetchCall.run_eq (n : NetworkInterface) (call : FetchCall) :
    call.run n = n.fetch call.wanted call.attach := by
  cases call with
  | controller kind => exact FetchCall.run_controller n kind
  | description desc => rfl

theorem FetchCall.run_of_locked (hlocked : n.getDescriptionMutex = true) (call : FetchCall) :
    call.run n = none := by
  rw [FetchCall.run_eq, NetworkInterface.fetch, if_pos hlocked]

theorem FetchCall.run_of_findsEntry (hfree : n.getDescriptionMutex = false)
    (hfinds : FindsEntry n call) :
    ∃ i n', call.run n = some (.ok i, n') ∧ n'.getDescriptionMutex = false := by
  obtain ⟨d, hmem, hwanted⟩ := hfinds
  obtain ⟨i, hfind⟩ : ∃ i, n.networkList.findIdx? call.wanted = some i := by
    rw [← Option.isSome_iff_exists, List.findIdx?_isSome, List.any_eq_true]
    exact ⟨d, hmem, hwanted⟩
  have hfetch : n.fetch call.wanted call.attach =
      some (.ok (NetworkInterface.returnedIndex i),
        { n with networkList := n.networkList.modify i call.attach }) :=
    NetworkInterface.fetch_eq hfree hfind
  refine ⟨NetworkInterface.returnedIndex i,
    { n with networkList := n.networkList.modify i call.attach }, ?_, hfree⟩
  rw [FetchCall.run_eq, hfetch]

/-- A call that finds none throws and keeps the mutex; the list is untouched. -/
theorem FetchCall.run_of_not_findsEntry (hfree : n.getDescriptionMutex = false)
    (hnone : ¬ FindsEntry n call) :
    call.run n = some (.error (.literal NetworkInterface.FATAL_NETWORK_DESCRIPTION_FETCH),
      { n with getDescriptionMutex := true }) := by
  have hfind : n.networkList.findIdx? call.wanted = none := by
    rw [List.findIdx?_eq_none_iff]
    intro d hmem
    by_contra hwanted
    exact hnone ⟨d, hmem, by simpa using hwanted⟩
  simp [FetchCall.run_eq, NetworkInterface.fetch, hfree, hfind]

/-! ## Every sequence of calls -/

theorem leavesUsable_iff (hfree : n.getDescriptionMutex = false) (calls : List FetchCall) :
    LeavesUsable n calls ↔ Permitted FetchCall.step FindsEntry n calls := by
  induction calls generalizing n with
  | nil => exact Iff.rfl
  | cons call calls ih =>
      by_cases hfinds : FindsEntry n call
      · obtain ⟨i, n', hrun, hfree'⟩ := FetchCall.run_of_findsEntry hfree hfinds
        have hstep : FetchCall.step n call = some n' := by
          rw [FetchCall.step, hrun]
          rfl
        constructor
        · rintro ⟨result, t, ht, -, -, hrest⟩ u hu
          rw [hrun] at ht
          cases ht
          rw [hstep] at hu
          cases hu
          exact ⟨hfinds, (ih hfree').mp hrest⟩
        · intro hall
          refine ⟨.ok i, n', hrun, hfree', ?_, (ih hfree').mpr (hall n' hstep).2⟩
          intro thrown hthrown
          cases hthrown
      · have hrun := FetchCall.run_of_not_findsEntry hfree hfinds
        refine iff_of_false ?_ ?_
        · rintro ⟨result, t, ht, hfree', -, -⟩
          rw [hrun] at ht
          cases ht
          cases hfree'
        · intro hall
          have hstep : FetchCall.step n call = some { n with getDescriptionMutex := true } := by
            rw [FetchCall.step, hrun]
            rfl
          exact hfinds (hall _ hstep).1

/-- On every list, the calls of a sequence all come back and leave the mutex free exactly
when each of them finds a description. -/
theorem fetches_leave_usable_iff (list : List NetworkDescription) (calls : List FetchCall) :
    LeavesUsable { networkList := list, getDescriptionMutex := false } calls ↔
      Permitted FetchCall.step FindsEntry { networkList := list, getDescriptionMutex := false }
        calls :=
  leavesUsable_iff rfl calls

/-- With one description the second writer throws, and a reader that comes after it blocks
although the description is free for it. -/
theorem not_leavesUsable_second_writer :
    ∃ n n' : NetworkInterface, n = NetworkInterface.iniNetworkInterface [⟨[], 8080, [], [], []⟩] ∧
      runActs FetchCall.step (fun _ _ => True) n [.controller .writer, .controller .writer] =
        some n' ∧
      FindsEntry n' (.controller .reader) ∧ (FetchCall.controller .reader).run n' = none ∧
      ¬ LeavesUsable n [.controller .writer, .controller .writer] := by
  refine ⟨_, _, rfl, rfl, ⟨_, List.mem_singleton.mpr rfl, rfl⟩, FetchCall.run_of_locked rfl _, ?_⟩
  rintro ⟨_, _, hfirst, -, -, _, _, hsecond, hfree, -⟩
  cases hfirst
  cases hsecond
  cases hfree

end ControlEngine
