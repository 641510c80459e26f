import ControlEngine.Buffer.Copies

/-!
# Who owns a block

`deallocate` frees the block of an object, and nothing else frees one.  An act leaves in use
only what its object then points to, and what was in use before and was not its own.  As long as
every act is defined, the blocks in use are therefore those of the objects that exist, each of
one object: no block is lost, none is freed twice, and none is used after it has been freed.

The code tests nothing that would keep an act defined.  `Safe` says what its callers have to see
to: a copy is made of an object that was allocated, to a block with room for it that is not the
same, and a write stays inside its block.
-/

namespace ControlEngine

theorem Heap.cells_free_self {α : Type*} (h : Heap α) (n : ℕ) : (h.free n).cells n = none :=
  Function.update_self _ _ _

/-- A block in use after the change is the one that the object points to then, or was in use
and not its own. -/
def NoneLost (h h' : Heap Byte) (ptr ptr' : Option ℕ) : Prop :=
  ∀ n, (h'.cells n).isSome → ptr' = some n ∨ (h.cells n).isSome ∧ ptr ≠ some n

section Memory

variable {alloc : Allocator} {h h' middle : Heap Byte} {ptr ptr' : Option ℕ} {size : SizeT}

theorem NoneLost.of_isSome (hused : ∀ n, (h'.cells n).isSome → (h.cells n).isSome) :
    NoneLost h h' ptr ptr := by
  intro n hn
  by_cases hown : ptr = some n
  · exact Or.inl hown
  · exact Or.inr ⟨hused n hn, hown⟩

theorem NoneLost.refl (h : Heap Byte) (ptr : Option ℕ) : NoneLost h h ptr ptr :=
  NoneLost.of_isSome fun _ hn => hn

/-- What changes the cells only, after the object has got its block. -/
theorem NoneLost.trans_isSome (hlost : NoneLost h middle ptr ptr')
    (hused : ∀ n, (h'.cells n).isSome → (middle.cells n).isSome) : NoneLost h h' ptr ptr' :=
  fun n hn => hlost n (hused n hn)

/-- The one block that `malloc` brings into use is the one it returns. -/
theorem noneLost_mallocBlock (hmalloc : mallocBlock alloc h size = (h', ptr')) :
    NoneLost h h' none ptr' := by
  intro n hn
  cases hblock : alloc.malloc size with
  | none =>
      rw [mallocBlock, hblock] at hmalloc
      cases hmalloc
      exact Or.inr ⟨hn, (Option.some_ne_none n).symm⟩
  | some block =>
      rw [mallocBlock, hblock] at hmalloc
      cases hmalloc
      by_cases hnew : n = h.next
      · exact Or.inl (congrArg some hnew.symm)
      · have hold : (h.alloc block).cells n = h.cells n := Function.update_of_ne hnew _ _
        rw [hold] at hn
        exact Or.inr ⟨hn, (Option.some_ne_none n).symm⟩

theorem isSome_of_memcpy {dest source : Option ℕ} {count n : ℕ}
    (hcopy : h.memcpy dest source count = some h') (hn : (h'.cells n).isSome) :
    (h.cells n).isSome := by
  rcases Heap.memcpy_cases hcopy with ⟨rfl, -⟩ | ⟨d, -, -, -, -, rfl⟩
  · exact hn
  · rwa [Heap.isSome_modify] at hn

end Memory

namespace BufferObject

variable {alloc : Allocator} {a a' b : BufferObject} {h h' : Heap Byte} {size : SizeT} {code : ℤ}

theorem noneLost_Allocate (ha : a.Valid h)
    (hallocate : a.Allocate alloc h size = .ok ((a', h'), code)) :
    NoneLost h h' a.allocatedBuffer a'.allocatedBuffer := by
  rcases Allocate_cases ha hallocate with ⟨-, rfl, rfl⟩ | ⟨rfl, -, -, ptr, hmalloc, rfl⟩
  · exact NoneLost.refl _ _
  · exact noneLost_mallocBlock hmalloc

/-- The assignment copies into the block that `Allocate` leaves it. -/
theorem noneLost_operatorAssign (ha : a.Valid h) (hb : b.alreadyAllocatedBuffer = true)
    (hassign : a.operatorAssign alloc b h = some (.ok (a', h'))) :
    NoneLost h h' a.allocatedBuffer a'.allocatedBuffer := by
  obtain ⟨middle, code, hallocate, hcopy⟩ := operatorAssign_cases ha hb hassign
  have hlost := noneLost_Allocate ha hallocate
  exact hlost.trans_isSome fun n hn => isSome_of_memcpy hcopy hn

theorem isSome_of_writeBytes {c : BufferCursor} {bytes : List Byte} {n : ℕ}
    (hwrite : a.writeBytes c h bytes = some h') (hn : (h'.cells n).isSome) :
    (h.cells n).isSome := by
  unfold writeBytes at hwrite
  split at hwrite
  · obtain ⟨-, hsame⟩ := Option.ite_none_right_eq_some.mp hwrite
    cases hsame
    exact hn
  · obtain ⟨-, hmodified⟩ := Option.ite_none_right_eq_some.mp hwrite
    cases hmodified
    rwa [Heap.isSome_modify] at hn

/-- The destructor frees the block of the object, and an object without one frees nothing. -/
theorem noneLost_deallocate (ha : a.Valid h) :
    NoneLost h (a.deallocate h) a.allocatedBuffer none := by
  intro n hn
  right
  cases ha with
  | fresh => exact ⟨hn, (Option.some_ne_none n).symm⟩
  | @holding ptr size hlive hcovers =>
      cases ptr with
      | none => exact ⟨hn, (Option.some_ne_none n).symm⟩
      | some m =>
          have hfreed : (holding (some m) size).deallocate h = h.free m := rfl
          rw [hfreed] at hn
          have hne : n ≠ m := by
            rintro rfl
            rw [Heap.cells_free_self] at hn
            cases hn
          rw [Heap.cells_free_of_ne h hne] at hn
          refine ⟨hn, ?_⟩
          intro hown
          exact hne (Option.some.inj hown).symm

end BufferObject

namespace BufferWorld

variable {ι : Type*} {w w' : BufferWorld ι} {i : ι}

/-- Every object points to a block in use, and every block in use is that of just one object;
when the last object is gone, no block is in use. -/
structure Owned (w : BufferWorld ι) : Prop where
  live : ∀ i n, w.pointer i = some n → (w.heap.cells n).isSome
  owner : ∀ n, (w.heap.cells n).isSome → ∃! i, w.pointer i = some n
  gone : (∀ i, w.objects i = none) → ∀ n, w.heap.cells n = none

/-- The objects are apart, and every block in use has an owner. -/
structure Tight (w : BufferWorld ι) : Prop where
  separate : w.Separate
  owned : ∀ n, (w.heap.cells n).isSome → ∃ i, w.pointer i = some n

theorem tight_empty : (empty : BufferWorld ι).Tight where
  separate := separate_empty
  owned := by
    intro n hn
    cases hn

theorem Tight.owned_by_one (h : w.Tight) : w.Owned where
  live := by
    intro i n hi
    obtain ⟨b, hb, hn⟩ := Option.bind_eq_some_iff.mp hi
    exact (h.separate.valid i b hb).isSome hn
  owner := by
    intro n hn
    obtain ⟨i, hi⟩ := h.owned n hn
    exact ⟨i, hi, fun j hj => h.separate.distinct j i n hj hi⟩
  gone := by
    intro hnone n
    by_contra hused
    obtain ⟨i, hi⟩ := h.owned n (Option.isSome_iff_ne_none.mpr hused)
    rw [pointer, hnone i] at hi
    cases hi

theorem Local.tight (h : Local i w w') (htight : w.Tight)
    (hlost : NoneLost w.heap w'.heap (w.pointer i) (w'.pointer i)) : w'.Tight where
  separate := h.separate htight.separate
  owned := by
    intro n hn
    rcases hlost n hn with hown | ⟨hused, hother⟩
    · exact ⟨i, hown⟩
    · obtain ⟨j, hj⟩ := htight.owned n hused
      have hne : j ≠ i := by
        rintro rfl
        exact hother hj
      refine ⟨j, ?_⟩
      rw [pointer, h.objects j hne]
      exact hj

theorem noneLost_orUnchanged {result : Except Thrown (BufferWorld ι)}
    (hlost : ∀ w', result = .ok w' →
      NoneLost w.heap w'.heap (w.pointer i) (w'.pointer i)) :
    NoneLost w.heap (w.orUnchanged result).heap (w.pointer i)
      ((w.orUnchanged result).pointer i) := by
  cases result with
  | error thrown => exact NoneLost.refl _ _
  | ok w' => exact hlost w' rfl

variable [DecidableEq ι]

theorem pointer_put_self (w : BufferWorld ι) (i : ι) (r : BufferObject × Heap Byte) :
    (w.put i r).pointer i = r.1.allocatedBuffer :=
  pointer_of_objects (objects_put_self w i r)

theorem Separate.noneLost_step {act : BufferAct ι} (h : w.Separate)
    (hstep : w.step act = some w') :
    NoneLost w.heap w'.heap (w.pointer act.object) (w'.pointer act.object) := by
  cases act with
  | construct i =>
      simp only [step] at hstep
      split at hstep
      · cases hstep
      · rename_i hfree
        cases hstep
        have hi : w.pointer i = none := by rw [pointer, Option.not_isSome_iff_eq_none.mp hfree]; rfl
        simp only [BufferAct.object, hi, pointer_put_self]
        exact NoneLost.refl _ _
  | allocate alloc i size =>
      obtain ⟨b, hb, rfl⟩ := Option.map_eq_some_iff.mp hstep
      apply noneLost_orUnchanged
      intro w' hok
      cases hallocate : b.Allocate alloc w.heap size with
      | error thrown =>
          rw [hallocate] at hok
          cases hok
      | ok r =>
          rw [hallocate] at hok
          cases hok
          simp only [BufferAct.object, pointer_of_objects hb, pointer_put_self]
          exact BufferObject.noneLost_Allocate (h.valid i b hb) hallocate
  | copyConstruct alloc i j =>
      obtain ⟨result, hcopy, rfl⟩ := Option.map_eq_some_iff.mp hstep
      apply noneLost_orUnchanged
      rintro w' rfl
      obtain ⟨hi, b, r, -, hb, hassign, rfl⟩ := copyConstruct_cases hcopy
      have hpointer : w.pointer i = BufferObject.fresh.allocatedBuffer := by
        rw [pointer, hi]
        rfl
      simp only [BufferAct.object, hpointer, pointer_put_self]
      exact BufferObject.noneLost_operatorAssign BufferObject.Valid.fresh hb hassign
  | assign alloc i j =>
      obtain ⟨result, hcopy, rfl⟩ := Option.map_eq_some_iff.mp hstep
      apply noneLost_orUnchanged
      rintro w' rfl
      obtain ⟨a, b, r, ha, -, hb, hassign, rfl⟩ := assign_cases hcopy
      simp only [BufferAct.object, pointer_of_objects ha, pointer_put_self]
      exact BufferObject.noneLost_operatorAssign (h.valid i a ha) hb hassign
  | writeBytes i c bytes =>
      obtain ⟨b, hb, hwrite⟩ := Option.bind_eq_some_iff.mp hstep
      obtain ⟨-, hdone⟩ := Option.ite_none_right_eq_some.mp hwrite
      obtain ⟨heap, hheap, rfl⟩ := Option.map_eq_some_iff.mp hdone
      exact NoneLost.of_isSome fun n hn => BufferObject.isSome_of_writeBytes hheap hn
  | destroy i =>
      obtain ⟨b, hb, rfl⟩ := Option.map_eq_some_iff.mp hstep
      have hgone :
          (Function.update w.objects i none i).bind BufferObject.allocatedBuffer = none := by
        rw [Function.update_self, Option.bind_none]
      simp only [BufferAct.object, pointer_of_objects hb]
      rw [pointer, hgone]
      exact BufferObject.noneLost_deallocate (h.valid i b hb)

/-! ## Which acts are defined -/

/-- The act uses objects that exist, or makes one that does not, copies from an object that was
allocated, into no block without room for it nor onto itself, and writes inside its block. -/
def Safe (w : BufferWorld ι) : BufferAct ι → Prop
  | .construct i => w.objects i = none
  | .allocate _ i _ | .destroy i => (w.objects i).isSome
  | .copyConstruct _ i j =>
      w.objects i = none ∧ ∃ b, w.objects j = some b ∧ b.alreadyAllocatedBuffer = true
  | .assign _ i j =>
      ∃ a b, w.objects i = some a ∧ w.objects j = some b ∧ b.alreadyAllocatedBuffer = true ∧
        (a.alreadyAllocatedBuffer = true → b.length = 0 ∨
          i ≠ j ∧ b.length.toNat ≤ (w.heap.block a.allocatedBuffer).length)
  | .writeBytes i c bytes =>
      ∃ b, w.objects i = some b ∧ b.alreadyAllocatedBuffer = true ∧
        ∀ d ∈ c.displacements bytes, 0 ≤ d ∧ d < (w.heap.block b.allocatedBuffer).length

end BufferWorld

namespace BufferObject

variable {a b : BufferObject} {h : Heap Byte}

/-- To an object without a block a copy is defined, whether or not there is memory for it. -/
theorem isSome_operatorAssign_fresh (alloc : Allocator) (hb : b.Valid h)
    (hallocated : b.alreadyAllocatedBuffer = true) :
    (fresh.operatorAssign alloc b h).isSome := by
  by_cases hprovides : alloc.Provides b.length
  · obtain ⟨r, hassign, -⟩ := BufferWorld.exists_operatorAssign Valid.fresh hb hallocated
      (fun n hn => by cases hn) hprovides
    rw [hassign, Option.isSome_some]
  · cases hallocate : fresh.Allocate alloc h b.length with
    | error thrown => simp only [operatorAssign, hallocate, Option.isSome_some]
    | ok r =>
        rcases Allocate_cases Valid.fresh hallocate with ⟨halready, -⟩ | ⟨-, hdoes, -⟩
        · cases halready
        · exact absurd hdoes hprovides

/-- To an object with a block a copy is what `memcpy` makes of it. -/
theorem isSome_operatorAssign_iff (alloc : Allocator) (b : BufferObject) (h : Heap Byte)
    (halready : a.alreadyAllocatedBuffer = true) :
    (a.operatorAssign alloc b h).isSome ↔
      (h.memcpy a.allocatedBuffer b.allocatedBuffer b.length.toNat).isSome := by
  have hallocate : a.Allocate alloc h b.length = .ok ((a, h), 1) := if_neg (by simp [halready])
  simp only [operatorAssign, hallocate, Option.isSome_map]

theorem isSome_writeBytes_iff {c : BufferCursor} {bytes : List Byte} (hb : b.Valid h) :
    (b.writeBytes c h bytes).isSome ↔
      ∀ d ∈ c.displacements bytes, 0 ≤ d ∧ d < (h.block b.allocatedBuffer).length := by
  have hnull : (∀ d ∈ c.displacements bytes, 0 ≤ d ∧ d < ((h.block none).length : ℤ)) ↔
      bytes = [] := by
    cases bytes with
    | nil => simp [BufferCursor.displacements]
    | cons byte bytes =>
        refine iff_of_false ?_ (List.cons_ne_nil _ _)
        intro hall
        have hfirst := hall c.ptrBuffer (by simp [BufferCursor.displacements])
        have hlength : (h.block none).length = 0 := rfl
        omega
  cases hb with
  | fresh => simp only [writeBytes, fresh, hnull, Option.isSome_ite]
  | @holding ptr size hlive hcovers =>
      cases ptr with
      | none => simp only [writeBytes, holding, hnull, Option.isSome_ite]
      | some n => simp only [writeBytes, holding, Option.isSome_ite]

end BufferObject

namespace BufferWorld

variable {ι : Type*} {w w' : BufferWorld ι} {i j : ι}

theorem Separate.isSome_memcpy_iff {a b : BufferObject} (h : w.Separate)
    (hi : w.objects i = some a) (hj : w.objects j = some b) :
    (w.heap.memcpy a.allocatedBuffer b.allocatedBuffer b.length.toNat).isSome ↔
      b.length = 0 ∨ i ≠ j ∧ b.length.toNat ≤ (w.heap.block a.allocatedBuffer).length := by
  have hzero : b.length.toNat = 0 ↔ b.length = 0 := by bv_omega
  have hsource := (h.valid j b hj).covers
  rw [Heap.isSome_memcpy_iff, hzero]
  apply or_congr_right'
  intro hsome
  constructor
  · rintro ⟨hne, hdest, -⟩
    refine ⟨?_, hdest⟩
    rintro rfl
    rw [hi] at hj
    cases hj
    exact hne rfl
  · rintro ⟨hne, hdest⟩
    refine ⟨?_, hdest, hsource⟩
    intro hsame
    cases hpointer : a.allocatedBuffer with
    | none =>
        -- Without a block there is no room.
        have hlength : (w.heap.block none).length = 0 := rfl
        rw [hpointer, hlength, Nat.le_zero, hzero] at hdest
        exact hsome hdest
    | some n =>
        exact hne (h.distinct i j n ((pointer_of_objects hi).trans hpointer)
          ((pointer_of_objects hj).trans (hsame ▸ hpointer)))

variable [DecidableEq ι]

/-- The acts that are safe are those that are defined. -/
theorem Separate.isSome_step_iff (h : w.Separate) (act : BufferAct ι) :
    (w.step act).isSome ↔ w.Safe act := by
  cases act with
  | construct i =>
      simp only [step, Safe]
      cases w.objects i <;> simp
  | allocate alloc i size => simp only [step, Safe, Option.isSome_map]
  | copyConstruct alloc i j =>
      simp only [step, Safe, Option.isSome_map, copyConstruct]
      cases hi : w.objects i with
      | some a => simp
      | none =>
          cases hj : w.objects j with
          | none => simp
          | some b =>
              by_cases hallocated : b.alreadyAllocatedBuffer = true
              · have hcopy := BufferObject.isSome_operatorAssign_fresh alloc (h.valid j b hj)
                  hallocated
                simp [hallocated, BufferObject.copyConstructor, hcopy]
              · simp [hallocated]
  | assign alloc i j =>
      simp only [step, Safe, Option.isSome_map, assign]
      cases hi : w.objects i with
      | none => simp
      | some a =>
          cases hj : w.objects j with
          | none => simp
          | some b =>
              by_cases hallocated : b.alreadyAllocatedBuffer = true
              · by_cases halready : a.alreadyAllocatedBuffer = true
                · have hcopy := BufferObject.isSome_operatorAssign_iff alloc b w.heap halready
                  simp [hallocated, halready, hcopy, h.isSome_memcpy_iff hi hj]
                · obtain rfl : a = BufferObject.fresh := by
                    cases h.valid i a hi with
                    | fresh => rfl
                    | holding => exact absurd rfl halready
                  have hcopy := BufferObject.isSome_operatorAssign_fresh alloc (h.valid j b hj)
                    hallocated
                  simp [hallocated, halready, hcopy]
              · simp [hallocated]
  | writeBytes i c bytes =>
      simp only [step, Safe]
      cases hi : w.objects i with
      | none => simp
      | some b =>
          by_cases hallocated : b.alreadyAllocatedBuffer = true
          · simp [hallocated, BufferObject.isSome_writeBytes_iff (h.valid i b hi)]
          · simp [hallocated]
  | destroy i => simp only [step, Safe, Option.isSome_map]

/-! ## Sequences of acts -/

/-- Each act of a list is defined, and before, between and after the acts the blocks in use are
those of the objects. -/
def KeepsOwned (w : BufferWorld ι) : List (BufferAct ι) → Prop
  | [] => w.Owned
  | act :: acts => w.Owned ∧ ∃ w', w.step act = some w' ∧ w'.KeepsOwned acts

/-- Each act of a list is safe in the state that it meets. -/
def SafeAll (w : BufferWorld ι) : List (BufferAct ι) → Prop
  | [] => True
  | act :: acts => w.Safe act ∧ ∀ w', w.step act = some w' → w'.SafeAll acts

/-- The acts of a list are defined, and keep every block with the one object that it belongs to,
exactly if each of them is safe. -/
theorem keepsOwned_iff_safeAll (acts : List (BufferAct ι)) :
    (empty : BufferWorld ι).KeepsOwned acts ↔ (empty : BufferWorld ι).SafeAll acts := by
  have hstart := tight_empty (ι := ι)
  generalize (empty : BufferWorld ι) = w at hstart
  induction acts generalizing w with
  | nil => exact iff_of_true hstart.owned_by_one trivial
  | cons act acts ih =>
      have hsafe := hstart.separate.isSome_step_iff act
      have hnext : ∀ w', w.step act = some w' → w'.Tight := fun w' hstep =>
        (hstart.separate.local_step hstep).tight hstart (hstart.separate.noneLost_step hstep)
      constructor
      · rintro ⟨-, w', hstep, hrest⟩
        refine ⟨hsafe.mp (by rw [hstep, Option.isSome_some]), ?_⟩
        intro w'' hstep'
        rw [hstep] at hstep'
        cases hstep'
        exact (ih w' (hnext w' hstep)).mp hrest
      · rintro ⟨hact, hrest⟩
        obtain ⟨w', hstep⟩ := Option.isSome_iff_exists.mp (hsafe.mpr hact)
        exact ⟨hstart.owned_by_one, w', hstep, (ih w' (hnext w' hstep)).mpr (hrest w' hstep)⟩

end BufferWorld

end ControlEngine
