import ControlEngine.Buffer.Objects

/-!
# Copies of buffers

Every act leaves the objects apart that it is not done with.  A copy therefore has a block
of its own.  Whether it is complete depends on `Allocate`, which does nothing for a target
that has a block already, while the copied length is that of the source.
-/

namespace ControlEngine

namespace BufferObject

variable {alloc : Allocator} {a a' b : BufferObject} {h h' : Heap Byte} {size : SizeT} {code : ℤ}

theorem operatorAssign_spec (ha : a.Valid h) (hb : b.alreadyAllocatedBuffer = true)
    (hassign : a.operatorAssign alloc b h = some (.ok (a', h'))) :
    a'.Valid h' ∧ KeepsOthers h h' a.allocatedBuffer ∧
      PointsToOwn h a.allocatedBuffer a'.allocatedBuffer := by
  obtain ⟨middle, code, hallocate, hcopy⟩ := operatorAssign_cases ha hb hassign
  obtain ⟨hvalid, -, hown, hkept⟩ := Allocate_spec ha hallocate
  refine ⟨hvalid.of_memcpy hcopy, ?_, hown⟩
  intro n hn hother
  rw [← hkept n hn]
  apply keepsOthers_memcpy hcopy n
  · rwa [hkept n hn]
  · intro htarget
    rcases hown n htarget with hown | hunused
    · exact hother hown
    · rw [hunused] at hn
      cases hn

theorem writeBytes_spec {c : BufferCursor} {bytes : List Byte} (ha : a.Valid h)
    (hallocated : a.alreadyAllocatedBuffer = true)
    (hwrite : a.writeBytes c h bytes = some h') :
    a.Valid h' ∧ KeepsOthers h h' a.allocatedBuffer := by
  cases id ha with
  | fresh => cases hallocated
  | @holding ptr size hlive hcovers =>
      cases ptr with
      | none =>
          obtain ⟨-, hok⟩ := Option.ite_none_right_eq_some.mp hwrite
          cases hok
          exact ⟨ha, KeepsOthers.refl _ _⟩
      | some n =>
          obtain ⟨-, hok⟩ := Option.ite_none_right_eq_some.mp hwrite
          cases hok
          exact ⟨ha.modify fun cells => length_writeLoop c cells bytes, keepsOthers_modify h _ rfl⟩

theorem keepsOthers_deallocate (b : BufferObject) (h : Heap Byte) :
    KeepsOthers h (b.deallocate h) b.allocatedBuffer := by
  intro n hn hother
  unfold deallocate
  split
  · split
    · rfl
    · rename_i m hm
      apply Heap.cells_free_of_ne
      rintro rfl
      exact hother hm
  · rfl

end BufferObject

namespace BufferWorld

variable {ι : Type*} {w w' : BufferWorld ι} {i j : ι}

/-- What an object points to. -/
def pointer (w : BufferWorld ι) (i : ι) : Option ℕ :=
  (w.objects i).bind BufferObject.allocatedBuffer

/-- The objects are valid, and no two of them point to one block. -/
structure Separate (w : BufferWorld ι) : Prop where
  valid : ∀ i b, w.objects i = some b → b.Valid w.heap
  distinct : ∀ i j n, w.pointer i = some n → w.pointer j = some n → i = j

/-- Only one object changes, and with the heap only its own block. -/
structure Local (i : ι) (w w' : BufferWorld ι) : Prop where
  objects : ∀ j, j ≠ i → w'.objects j = w.objects j
  keeps : KeepsOthers w.heap w'.heap (w.pointer i)
  own : PointsToOwn w.heap (w.pointer i) (w'.pointer i)
  valid : ∀ b, w'.objects i = some b → b.Valid w'.heap

theorem pointer_of_objects {b : BufferObject} (hb : w.objects i = some b) :
    w.pointer i = b.allocatedBuffer := by
  rw [pointer, hb, Option.bind_some]

theorem separate_empty : (empty : BufferWorld ι).Separate where
  valid := by
    intro i b hb
    cases hb
  distinct := by
    intro i j n hi
    cases hi

/-! ## One act -/

theorem Separate.local_refl (h : w.Separate) (i : ι) : Local i w w where
  objects _ _ := rfl
  keeps := KeepsOthers.refl _ _
  own _ hn := Or.inl hn
  valid := h.valid i

theorem Local.cells_eq {b : BufferObject} (h : Local i w w') (hsep : w.Separate) (hne : j ≠ i)
    (hb : w.objects j = some b) {n : ℕ} (hn : b.allocatedBuffer = some n) :
    w'.heap.cells n = w.heap.cells n := by
  apply h.keeps n ((hsep.valid j b hb).isSome hn)
  intro hi
  exact hne (hsep.distinct j i n ((pointer_of_objects hb).trans hn) hi)

theorem Local.contents (h : Local i w w') (hsep : w.Separate) (hne : j ≠ i) :
    w'.contents j = w.contents j := by
  rw [BufferWorld.contents, BufferWorld.contents, h.objects j hne]
  cases hb : w.objects j with
  | none => rfl
  | some b =>
      have hbind : b.allocatedBuffer.bind w'.heap.cells = b.allocatedBuffer.bind w.heap.cells :=
        Option.bind_congr fun n hn => h.cells_eq hsep hne hb hn
      simp only [Option.map_some, BufferObject.value, hbind]

theorem Local.separate (h : Local i w w') (hsep : w.Separate) : w'.Separate where
  valid := by
    intro j b hb
    by_cases hne : j = i
    · subst hne
      exact h.valid b hb
    · rw [h.objects j hne] at hb
      exact (hsep.valid j b hb).of_cells_eq fun n hn => h.cells_eq hsep hne hb hn
  distinct := by
    have hother : ∀ j n, j ≠ i → w'.pointer j = some n → w'.pointer i ≠ some n := by
      intro j n hne hj hi
      rw [pointer, h.objects j hne, ← pointer] at hj
      rcases h.own n hi with hbefore | hunused
      · exact hne (hsep.distinct j i n hj hbefore)
      · obtain ⟨b, hb, hn⟩ := Option.bind_eq_some_iff.mp hj
        have hlive := (hsep.valid j b hb).isSome hn
        rw [hunused] at hlive
        cases hlive
    intro j k n hj hk
    by_cases hji : j = i
    · by_cases hki : k = i
      · rw [hji, hki]
      · exact absurd (hji ▸ hj) (hother k n hki hk)
    · by_cases hki : k = i
      · exact absurd (hki ▸ hk) (hother j n hji hj)
      · rw [pointer, h.objects j hji, ← pointer] at hj
        rw [pointer, h.objects k hki, ← pointer] at hk
        exact hsep.distinct j k n hj hk

/-- An exception leaves everything as it is. -/
theorem Separate.local_orUnchanged {result : Except Thrown (BufferWorld ι)} (h : w.Separate)
    (hlocal : ∀ w', result = .ok w' → Local i w w') : Local i w (w.orUnchanged result) := by
  cases result with
  | error thrown => exact h.local_refl i
  | ok w' => exact hlocal w' rfl

variable [DecidableEq ι]

theorem objects_put_self (w : BufferWorld ι) (i : ι) (r : BufferObject × Heap Byte) :
    (w.put i r).objects i = some r.1 :=
  Function.update_self _ _ _

theorem local_put {r : BufferObject × Heap Byte} (hvalid : r.1.Valid r.2)
    (hkeeps : KeepsOthers w.heap r.2 (w.pointer i))
    (hown : PointsToOwn w.heap (w.pointer i) r.1.allocatedBuffer) : Local i w (w.put i r) where
  objects j hne := Function.update_of_ne hne _ _
  keeps := hkeeps
  own := by
    have hpointer : (w.put i r).pointer i = r.1.allocatedBuffer :=
      pointer_of_objects (objects_put_self w i r)
    rwa [hpointer]
  valid := by
    intro b hb
    rw [objects_put_self] at hb
    cases hb
    exact hvalid

/-- The copy constructor and the assignment change the target only. -/
theorem local_operatorAssign {alloc : Allocator} {a b : BufferObject}
    {r : BufferObject × Heap Byte} (ha : a.Valid w.heap)
    (hpointer : w.pointer i = a.allocatedBuffer) (hb : b.alreadyAllocatedBuffer = true)
    (hassign : a.operatorAssign alloc b w.heap = some (.ok r)) : Local i w (w.put i r) := by
  obtain ⟨hvalid, hkeeps, hown⟩ := BufferObject.operatorAssign_spec ha hb hassign
  rw [← hpointer] at hkeeps hown
  exact local_put hvalid hkeeps hown

theorem put_cases {called : Option (Except Thrown (BufferObject × Heap Byte))} {allocated : Bool}
    (hdone : (if allocated then called.map fun r => r.map (w.put i) else none) = some (.ok w')) :
    allocated = true ∧ ∃ r, called = some (.ok r) ∧ w' = w.put i r := by
  obtain ⟨hallocated, hcalled⟩ := Option.ite_none_right_eq_some.mp hdone
  obtain ⟨result, hresult, hok⟩ := Option.map_eq_some_iff.mp hcalled
  cases result with
  | error thrown => cases hok
  | ok r =>
      cases hok
      exact ⟨hallocated, r, hresult, rfl⟩

theorem copyConstruct_cases {alloc : Allocator}
    (hcopy : w.copyConstruct alloc i j = some (.ok w')) :
    w.objects i = none ∧ ∃ b r, w.objects j = some b ∧ b.alreadyAllocatedBuffer = true ∧
      BufferObject.fresh.operatorAssign alloc b w.heap = some (.ok r) ∧ w' = w.put i r := by
  cases hi : w.objects i with
  | some a =>
      simp only [copyConstruct, hi] at hcopy
      cases hcopy
  | none =>
      cases hj : w.objects j with
      | none =>
          simp only [copyConstruct, hi, hj] at hcopy
          cases hcopy
      | some b =>
          simp only [copyConstruct, hi, hj] at hcopy
          obtain ⟨hb, r, hassign, hput⟩ := put_cases hcopy
          exact ⟨rfl, b, r, rfl, hb, hassign, hput⟩

theorem assign_cases {alloc : Allocator} (hassign : w.assign alloc i j = some (.ok w')) :
    ∃ a b r, w.objects i = some a ∧ w.objects j = some b ∧ b.alreadyAllocatedBuffer = true ∧
      a.operatorAssign alloc b w.heap = some (.ok r) ∧ w' = w.put i r := by
  cases hi : w.objects i with
  | none =>
      simp only [assign, hi] at hassign
      cases hassign
  | some a =>
      cases hj : w.objects j with
      | none =>
          simp only [assign, hi, hj] at hassign
          cases hassign
      | some b =>
          simp only [assign, hi, hj] at hassign
          obtain ⟨hb, r, hcall, hput⟩ := put_cases hassign
          exact ⟨a, b, r, rfl, rfl, hb, hcall, hput⟩

theorem Separate.local_step {act : BufferAct ι} (h : w.Separate) (hstep : w.step act = some w') :
    Local act.object w w' := by
  cases act with
  | construct i =>
      simp only [step] at hstep
      split at hstep
      · cases hstep
      · cases hstep
        exact local_put BufferObject.Valid.fresh (KeepsOthers.refl _ _) (fun n hn => by cases hn)
  | allocate alloc i size =>
      obtain ⟨b, hb, rfl⟩ := Option.map_eq_some_iff.mp hstep
      apply h.local_orUnchanged
      intro w' hok
      cases hallocate : b.Allocate alloc w.heap size with
      | error thrown =>
          rw [hallocate] at hok
          cases hok
      | ok r =>
          rw [hallocate] at hok
          cases hok
          obtain ⟨hvalid, hkeeps, hown, -⟩ := BufferObject.Allocate_spec (h.valid i b hb) hallocate
          rw [← pointer_of_objects hb] at hkeeps hown
          exact local_put hvalid hkeeps hown
  | copyConstruct alloc i j =>
      obtain ⟨result, hcopy, rfl⟩ := Option.map_eq_some_iff.mp hstep
      apply h.local_orUnchanged
      rintro w' rfl
      obtain ⟨hi, b, r, -, hb, hassign, rfl⟩ := copyConstruct_cases hcopy
      have hpointer : w.pointer i = BufferObject.fresh.allocatedBuffer := by
        rw [pointer, hi]
        rfl
      exact local_operatorAssign BufferObject.Valid.fresh hpointer hb hassign
  | assign alloc i j =>
      obtain ⟨result, hcopy, rfl⟩ := Option.map_eq_some_iff.mp hstep
      apply h.local_orUnchanged
      rintro w' rfl
      obtain ⟨a, b, r, ha, -, hb, hassign, rfl⟩ := assign_cases hcopy
      exact local_operatorAssign (h.valid i a ha) (pointer_of_objects ha) hb hassign
  | writeBytes i c bytes =>
      obtain ⟨b, hb, hwrite⟩ := Option.bind_eq_some_iff.mp hstep
      obtain ⟨hallocated, hdone⟩ := Option.ite_none_right_eq_some.mp hwrite
      obtain ⟨heap, hheap, rfl⟩ := Option.map_eq_some_iff.mp hdone
      obtain ⟨hvalid, hkeeps⟩ := BufferObject.writeBytes_spec (h.valid i b hb) hallocated hheap
      rw [← pointer_of_objects hb] at hkeeps
      refine ⟨fun _ _ => rfl, hkeeps, fun n hn => Or.inl hn, ?_⟩
      intro a ha
      rw [Option.some.inj (ha.symm.trans hb)]
      exact hvalid
  | destroy i =>
      obtain ⟨b, hb, rfl⟩ := Option.map_eq_some_iff.mp hstep
      have hkeeps := BufferObject.keepsOthers_deallocate b w.heap
      rw [← pointer_of_objects hb] at hkeeps
      have hgone : Function.update w.objects i none i = none := Function.update_self _ _ _
      refine ⟨fun j hne => Function.update_of_ne hne _ _, hkeeps, ?_, ?_⟩
      · intro n hn
        obtain ⟨a, ha, -⟩ := Option.bind_eq_some_iff.mp hn
        cases hgone.symm.trans ha
      · intro a ha
        cases hgone.symm.trans ha

theorem separate_of_reaches (hreach : Reaches step (empty : BufferWorld ι) w) : w.Separate :=
  hreach.invariant separate_empty fun _ _ _ h _ hstep => (h.local_step hstep).separate h

/-! ## Copies -/

/-- An act writes through a cursor of the object. -/
def WritesTo (i : ι) (_ : BufferWorld ι) : BufferAct ι → Prop
  | .writeBytes k _ _ => k = i
  | _ => False

/-- Object `i` is a copy of `j`, which is as before, and writes to one of them are not seen in
the other. -/
structure IsCopy (w w' : BufferWorld ι) (i j : ι) : Prop where
  source : w'.objects j = w.objects j ∧ w'.contents j = w.contents j
  sizes : ∃ a b, w'.objects i = some a ∧ w'.objects j = some b ∧ a.length = b.length ∧
    a.capacity = b.capacity ∧ a.bufferCursor.forwardLength = a.capacity
  bytes : w'.contents i = w'.contents j
  targetWrites : ∀ w'', Guarded step (WritesTo i) w' w'' → w''.contents j = w'.contents j
  sourceWrites : ∀ w'', Guarded step (WritesTo j) w' w'' → w''.contents i = w'.contents i

/-- A copy is made: all that is done is defined, nothing is thrown, and the target is a copy of
the source. -/
def Copies (w : BufferWorld ι) (i j : ι) (result : Option (Except Thrown (BufferWorld ι))) :
    Prop :=
  ∃ w', result = some (.ok w') ∧ IsCopy w w' i j

/-- Writes to one object are not seen in another one. -/
theorem Separate.contents_of_writes {w'' : BufferWorld ι} (h : w'.Separate) (hne : j ≠ i)
    (hwrites : Guarded step (WritesTo i) w' w'') : w''.contents j = w'.contents j := by
  have hboth : w''.Separate ∧ w''.contents j = w'.contents j := by
    induction hwrites with
    | refl => exact ⟨h, rfl⟩
    | tail _ hlast ih =>
        obtain ⟨hsep, hsame⟩ := ih
        obtain ⟨act, hguard, hstep⟩ := hlast
        have hlocal := hsep.local_step hstep
        have hobject : act.object = i := by
          cases act with
          | writeBytes k c bytes => exact hguard
          | _ => cases hguard
        rw [hobject] at hlocal
        exact ⟨hlocal.separate hsep, (hlocal.contents hsep hne).trans hsame⟩
  exact hboth.2

variable {alloc : Allocator} {a b : BufferObject}

/-- An assignment that completes with the right length has made a copy. -/
theorem Separate.isCopy_put {r : BufferObject × Heap Byte} (h : w.Separate) (hne : i ≠ j)
    (hb : w.objects j = some b) (hallocated : b.alreadyAllocatedBuffer = true)
    (ha : a.Valid w.heap) (hpointer : w.pointer i = a.allocatedBuffer)
    (hassign : a.operatorAssign alloc b w.heap = some (.ok r)) (hlength : r.1.length = b.length) :
    IsCopy w (w.put i r) i j := by
  obtain ⟨a', h'⟩ := r
  have hlocal := local_operatorAssign ha hpointer hallocated hassign
  have hsep := hlocal.separate h
  have hi := objects_put_self w i (a', h')
  have hj := (hlocal.objects j hne.symm).trans hb
  obtain ⟨middle, code, hallocate, hcopy⟩ := BufferObject.operatorAssign_cases ha hallocated hassign
  have hready := BufferObject.alreadyAllocatedBuffer_of_Allocate ha hallocate
  refine ⟨⟨hlocal.objects j hne.symm, hlocal.contents h hne.symm⟩, ?_, ?_, ?_, ?_⟩
  · obtain ⟨ptr, size, rfl⟩ := (hsep.valid i a' hi).eq_holding hready
    obtain ⟨ptr', size', rfl⟩ := (hsep.valid j b hj).eq_holding hallocated
    exact ⟨_, _, hi, hj, hlength, hlength, rfl⟩
  · have hlive : ∀ d, a'.allocatedBuffer = some d → (middle.cells d).isSome :=
      fun d hd => (BufferObject.Allocate_spec ha hallocate).1.isSome hd
    obtain ⟨hcopied, hkept⟩ := Heap.take_block_memcpy hcopy hlive
    have hheap : (w.put i (a', h')).heap = h' := rfl
    rw [contents, contents, hi, hj, hheap, Option.map_some, Option.map_some,
      BufferObject.contents_value, BufferObject.contents_value, hlength, hcopied, hkept]
  · intro w'' hwrites
    exact hsep.contents_of_writes hne.symm hwrites
  · intro w'' hwrites
    exact hsep.contents_of_writes hne hwrites

/-- An assignment completes with the length of the source if the target is given a block of
this length, or has one already. -/
theorem exists_operatorAssign {h : Heap Byte} (ha : a.Valid h) (hb : b.Valid h)
    (hallocated : b.alreadyAllocatedBuffer = true)
    (hapart : ∀ n, a.allocatedBuffer = some n → b.allocatedBuffer ≠ some n)
    (hfits : if a.alreadyAllocatedBuffer then a.length = b.length else alloc.Provides b.length) :
    ∃ r, a.operatorAssign alloc b h = some (.ok r) ∧ r.1.length = b.length := by
  obtain ⟨a', middle, code, hallocate, hlength, hb', hapart'⟩ :
      ∃ a' middle code, a.Allocate alloc h b.length = .ok ((a', middle), code) ∧
        a'.length = b.length ∧ b.Valid middle ∧
        ∀ n, a'.allocatedBuffer = some n → b.allocatedBuffer ≠ some n := by
    cases ha with
    | @holding ptr size hlive hcovers =>
        exact ⟨_, h, 1, if_neg (by simp [BufferObject.holding]), hfits, hb, hapart⟩
    | fresh =>
        obtain ⟨ptr, h', hallocate⟩ := BufferObject.exists_Allocate_fresh h hfits
        obtain ⟨-, -, hown, hkept⟩ :=
          BufferObject.Allocate_spec BufferObject.Valid.fresh hallocate
        refine ⟨_, h', 0, hallocate, rfl, hb.of_cells_eq fun n hn => hkept n (hb.isSome hn), ?_⟩
        intro n hn hbn
        have hlive := hb.isSome hbn
        rcases hown n hn with hfresh | hunused
        · cases hfresh
        · rw [hunused] at hlive
          cases hlive
  have hcovers := (BufferObject.Allocate_spec ha hallocate).1.covers
  rw [hlength] at hcovers
  obtain ⟨h', hcopy⟩ := Heap.exists_memcpy hapart' hcovers hb'.covers
  exact ⟨(a', h'), BufferObject.operatorAssign_of_memcpy ha hallocated hallocate hcopy, hlength⟩

theorem Separate.copies_copyConstruct_iff (h : w.Separate) (hne : i ≠ j)
    (hb : w.objects j = some b) (hallocated : b.alreadyAllocatedBuffer = true)
    (hi : w.objects i = none) :
    Copies w i j (w.copyConstruct alloc i j) ↔ alloc.Provides b.length := by
  have hpointer : w.pointer i = BufferObject.fresh.allocatedBuffer := by
    rw [pointer, hi]
    rfl
  constructor
  · rintro ⟨w', hcopy, -⟩
    obtain ⟨-, b', r, hb', -, hassign, -⟩ := copyConstruct_cases hcopy
    rw [hb] at hb'
    cases hb'
    rcases BufferObject.unchanged_or_provides BufferObject.Valid.fresh hallocated hassign with
      ⟨halready, -⟩ | ⟨-, hprovides⟩
    · cases halready
    · exact hprovides
  · intro hprovides
    obtain ⟨r, hassign, hlength⟩ := exists_operatorAssign BufferObject.Valid.fresh
      (h.valid j b hb) hallocated (fun n hn => by cases hn) hprovides
    refine ⟨w.put i r, ?_, h.isCopy_put hne hb hallocated BufferObject.Valid.fresh hpointer
      hassign hlength⟩
    simp only [copyConstruct, hi, hb, hallocated, if_true, BufferObject.copyConstructor, hassign]
    rfl

theorem Separate.copies_assign_iff (h : w.Separate) (hne : i ≠ j) (hb : w.objects j = some b)
    (hallocated : b.alreadyAllocatedBuffer = true) (hi : w.objects i = some a) :
    Copies w i j (w.assign alloc i j) ↔
      if a.alreadyAllocatedBuffer then a.length = b.length else alloc.Provides b.length := by
  have ha := h.valid i a hi
  constructor
  · rintro ⟨w', hcopy, hcopies⟩
    obtain ⟨a', b', r, hi', hb', -, hassign, rfl⟩ := assign_cases hcopy
    rw [hi] at hi'
    rw [hb] at hb'
    cases hi'
    cases hb'
    rcases BufferObject.unchanged_or_provides ha hallocated hassign with
      ⟨halready, hsame⟩ | ⟨rfl, hprovides⟩
    · rw [if_pos halready]
      obtain ⟨target, source, htarget, hsource, hlength, -, -⟩ := hcopies.sizes
      rw [objects_put_self, hsame] at htarget
      rw [hcopies.source.1, hb] at hsource
      cases htarget
      cases hsource
      exact hlength
    · exact hprovides
  · intro hfits
    have hapart : ∀ n, a.allocatedBuffer = some n → b.allocatedBuffer ≠ some n := by
      intro n ha' hb'
      exact hne (h.distinct i j n ((pointer_of_objects hi).trans ha')
        ((pointer_of_objects hb).trans hb'))
    obtain ⟨r, hassign, hlength⟩ :=
      exists_operatorAssign ha (h.valid j b hb) hallocated hapart hfits
    refine ⟨w.put i r, ?_, h.isCopy_put hne hb hallocated ha (pointer_of_objects hi) hassign
      hlength⟩
    simp only [assign, hi, hb, hallocated, if_true, hassign]
    rfl

/-- A copy construction makes a copy exactly if memory for it is provided; an assignment does
exactly if that holds of a target without a block, and a target with one has the length of
the source. -/
theorem copies_iff (hreach : Reaches step (empty : BufferWorld ι) w) (hne : i ≠ j)
    (hb : w.objects j = some b) (hallocated : b.alreadyAllocatedBuffer = true)
    (alloc : Allocator) :
    (w.objects i = none →
      (Copies w i j (w.copyConstruct alloc i j) ↔ alloc.Provides b.length)) ∧
    ∀ a, w.objects i = some a →
      (Copies w i j (w.assign alloc i j) ↔
        if a.alreadyAllocatedBuffer then a.length = b.length else alloc.Provides b.length) := by
  have h := separate_of_reaches hreach
  constructor
  · intro hi
    exact h.copies_copyConstruct_iff hne hb hallocated hi
  · intro a hi
    exact h.copies_assign_iff hne hb hallocated hi

/-- A buffer of five bytes is copied. -/
theorem copies_fiveBytes :
    ∃ w : BufferWorld Bool, Copies w false true (w.copyConstruct Allocator.zeroed false true) := by
  obtain ⟨w, hrun, hb, hi⟩ : ∃ w : BufferWorld Bool,
      runActs step (fun _ _ => True) empty
          [.construct true, .allocate Allocator.zeroed true 5] = some w ∧
        w.objects true = some (BufferObject.holding (some 0) 5) ∧ w.objects false = none :=
    ⟨_, rfl, rfl, rfl⟩
  have hiff := copies_iff (guarded_of_runActs hrun) Bool.false_ne_true hb rfl Allocator.zeroed
  exact ⟨w, (hiff.1 hi).mpr (Allocator.zeroed_provides (by decide))⟩

/-- A buffer of five bytes is assigned to one of three: the copy goes past the end of the
target. -/
theorem not_copies_threeBytes :
    ∃ w : BufferWorld Bool, Reaches step empty w ∧
      w.objects true = some (BufferObject.holding (some 0) 5) ∧
      w.objects false = some (BufferObject.holding (some 1) 3) ∧
      w.assign Allocator.zeroed false true = none ∧
      ¬ Copies w false true (w.assign Allocator.zeroed false true) := by
  obtain ⟨w, hrun, hb, ha, hassign⟩ : ∃ w : BufferWorld Bool,
      runActs step (fun _ _ => True) empty
          [.construct true, .allocate Allocator.zeroed true 5,
            .construct false, .allocate Allocator.zeroed false 3] = some w ∧
        w.objects true = some (BufferObject.holding (some 0) 5) ∧
        w.objects false = some (BufferObject.holding (some 1) 3) ∧
        w.assign Allocator.zeroed false true = none :=
    ⟨_, rfl, rfl, rfl, rfl⟩
  refine ⟨w, guarded_of_runActs hrun, hb, ha, hassign, ?_⟩
  rintro ⟨w', hcopied, -⟩
  rw [hassign] at hcopied
  cases hcopied

end BufferWorld

end ControlEngine
