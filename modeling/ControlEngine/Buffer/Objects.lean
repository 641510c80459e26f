import ControlEngine.Buffer.Invariant
import ControlEngine.Buffer.Allocation
import ControlEngine.Support.Heap
import ControlEngine.Support.Transition

/-!
# Buffers in memory

A `Buffer` is an object with pointers into the heap, and several objects live side by side.
What an object does concerns its own block only, as long as no two of them have the same
one.  `Separate` is this invariant, and `Local` says of a step that it leaves the blocks of
all other objects alone.
-/

namespace ControlEngine

/-- `Buffer` with its pointers; `originPtr` is the one of its cursor, and
`originalAllocatedBuffer` never differs from `allocatedBuffer` while the object exists. -/
structure BufferObject where
  allocatedBuffer : Option ℕ
  capacity : SizeT
  length : SizeT
  originPtr : Option ℕ
  bufferCursor : BufferCursor
  alreadyAllocatedBuffer : Bool
deriving DecidableEq, Repr

/-- `malloc`: the heap and the pointer. -/
def mallocBlock (alloc : Allocator) (h : Heap Byte) (size : SizeT) : Heap Byte × Option ℕ :=
  match alloc.malloc size with
  | none => (h, none)
  | some block => (h.alloc block, some h.next)

namespace BufferObject

/-- An object as the default constructor leaves it. -/
def fresh : BufferObject where
  allocatedBuffer := none
  capacity := 0
  length := 0
  originPtr := none
  bufferCursor := BufferCursor.ofCapacity 0
  alreadyAllocatedBuffer := false

/-- An object that `Allocate` has given a block. -/
def holding (ptr : Option ℕ) (size : SizeT) : BufferObject where
  allocatedBuffer := ptr
  capacity := size
  length := size
  originPtr := ptr
  bufferCursor := BufferCursor.ofCapacity size
  alreadyAllocatedBuffer := true

/-- The buffer together with its cells. -/
def value (h : Heap Byte) (b : BufferObject) : Buffer where
  allocatedBuffer := b.allocatedBuffer.bind h.cells
  capacity := b.capacity
  length := b.length
  bufferCursor := b.bufferCursor
  alreadyAllocatedBuffer := b.alreadyAllocatedBuffer

/-- `Allocate`: the object and the heap with the returned code, or what is thrown. -/
def Allocate (alloc : Allocator) (b : BufferObject) (h : Heap Byte) (size : SizeT) :
    Except Thrown ((BufferObject × Heap Byte) × ℤ) :=
  if ¬ b.alreadyAllocatedBuffer then
    let (h, allocatedBuffer) := mallocBlock alloc h size
    let realUsable := mallocUsableSize (allocatedBuffer.bind h.cells)
    if ¬ (realUsable ≥ size) then .error (.literal mallocError)
    else .ok ((holding allocatedBuffer size, h), 0)
  else .ok ((b, h), 1)

/-- `operator=`, which ignores the code that `Allocate` returns. -/
def operatorAssign (alloc : Allocator) (a b : BufferObject) (h : Heap Byte) :
    Option (Except Thrown (BufferObject × Heap Byte)) :=
  match a.Allocate alloc h b.length with
  | .error thrown => some (.error thrown)
  | .ok ((a, h), _) =>
      (h.memcpy a.allocatedBuffer b.allocatedBuffer b.length.toNat).map fun h =>
        .ok ({ a with alreadyAllocatedBuffer := b.alreadyAllocatedBuffer }, h)

/-- The copy constructor, which has the text of `operator=`. -/
def copyConstructor (alloc : Allocator) (b : BufferObject) (h : Heap Byte) :
    Option (Except Thrown (BufferObject × Heap Byte)) :=
  fresh.operatorAssign alloc b h

/-- `deallocate`. -/
def deallocate (b : BufferObject) (h : Heap Byte) : Heap Byte :=
  if b.alreadyAllocatedBuffer then
    match b.allocatedBuffer with
    | none => h
    | some n => h.free n
  else h

/-- `writeBytes` on a cursor of the object, which may have moved; a write outside the block
is not defined. -/
def writeBytes (b : BufferObject) (c : BufferCursor) (h : Heap Byte) (bytes : List Byte) :
    Option (Heap Byte) :=
  match b.originPtr with
  | none => if bytes = [] then some h else none
  | some n =>
      if ∀ d ∈ c.displacements bytes, 0 ≤ d ∧ d < (h.block (some n)).length then
        some (h.modify n fun block => (c.writeBytes block bytes).2.1)
      else none

/-- On the values, `Allocate` does what it does on a buffer that has its cells itself. -/
theorem value_Allocate (alloc : Allocator) (b : BufferObject) (h : Heap Byte) (size : SizeT) :
    (b.Allocate alloc h size).map (fun r => (r.1.1.value r.1.2, r.2)) =
      (b.value h).Allocate alloc size := by
  by_cases halready : b.alreadyAllocatedBuffer = true
  · simp [Allocate, Buffer.Allocate, value, halready, Except.map]
  · cases hmalloc : alloc.malloc size with
    | none =>
        by_cases husable : mallocUsableSize none ≥ size
        · simp [Allocate, Buffer.Allocate, value, halready, mallocBlock, hmalloc, husable,
            Except.map, holding]
        · simp [Allocate, Buffer.Allocate, value, halready, mallocBlock, hmalloc, husable,
            Except.map]
    | some block =>
        have hcells := h.cells_alloc_self block
        by_cases husable : mallocUsableSize (some block) ≥ size
        · simp [Allocate, Buffer.Allocate, value, halready, mallocBlock, hmalloc, husable,
            Except.map, holding, hcells]
        · simp [Allocate, Buffer.Allocate, value, halready, mallocBlock, hmalloc, husable,
            Except.map, hcells]

end BufferObject

/-- The objects that exist, and the heap. -/
structure BufferWorld (ι : Type*) where
  objects : ι → Option BufferObject
  heap : Heap Byte

/-- What is done with the objects. -/
inductive BufferAct (ι : Type*)
  | construct (i : ι)
  | allocate (alloc : Allocator) (i : ι) (size : SizeT)
  | copyConstruct (alloc : Allocator) (i j : ι)
  | assign (alloc : Allocator) (i j : ι)
  | writeBytes (i : ι) (c : BufferCursor) (bytes : List Byte)
  | destroy (i : ι)

/-- The object that an act is done with. -/
def BufferAct.object {ι : Type*} : BufferAct ι → ι
  | .construct i | .allocate _ i _ | .copyConstruct _ i _ | .assign _ i _ | .writeBytes i _ _
  | .destroy i => i

namespace BufferWorld

variable {ι : Type*} [DecidableEq ι]

/-- No object exists. -/
def empty : BufferWorld ι where
  objects _ := none
  heap := Heap.empty

/-- An object is changed, with the heap. -/
def put (w : BufferWorld ι) (i : ι) (r : BufferObject × Heap Byte) : BufferWorld ι where
  objects := Function.update w.objects i (some r.1)
  heap := r.2

/-- What is left when an exception is caught. -/
def orUnchanged (w : BufferWorld ι) : Except Thrown (BufferWorld ι) → BufferWorld ι
  | .error _ => w
  | .ok w' => w'

/-- Copy construction of `i` from `j`, which has been allocated. -/
def copyConstruct (alloc : Allocator) (w : BufferWorld ι) (i j : ι) :
    Option (Except Thrown (BufferWorld ι)) :=
  match w.objects i, w.objects j with
  | none, some b =>
      if b.alreadyAllocatedBuffer then
        (BufferObject.copyConstructor alloc b w.heap).map fun r => r.map (w.put i)
      else none
  | _, _ => none

/-- The assignment of `j`, which has been allocated, to `i`. -/
def assign (alloc : Allocator) (w : BufferWorld ι) (i j : ι) :
    Option (Except Thrown (BufferWorld ι)) :=
  match w.objects i, w.objects j with
  | some a, some b =>
      if b.alreadyAllocatedBuffer then
        (a.operatorAssign alloc b w.heap).map fun r => r.map (w.put i)
      else none
  | _, _ => none

/-- An act, where it is defined.  The code does not test for what is left out: it copies from an
object that was never allocated, copies more than the block of the target has room for, or onto
itself, and writes beside a block, with undefined behaviour. -/
def step (w : BufferWorld ι) : BufferAct ι → Option (BufferWorld ι)
  | .construct i =>
      if (w.objects i).isSome then none else some (w.put i (BufferObject.fresh, w.heap))
  | .allocate alloc i size =>
      (w.objects i).map fun b =>
        w.orUnchanged ((b.Allocate alloc w.heap size).map fun r => w.put i r.1)
  | .copyConstruct alloc i j => (w.copyConstruct alloc i j).map w.orUnchanged
  | .assign alloc i j => (w.assign alloc i j).map w.orUnchanged
  | .writeBytes i c bytes =>
      (w.objects i).bind fun b =>
        if b.alreadyAllocatedBuffer then
          (b.writeBytes c w.heap bytes).map fun heap => { w with heap }
        else none
  | .destroy i =>
      (w.objects i).map fun b =>
        { objects := Function.update w.objects i none, heap := b.deallocate w.heap }

/-- The bytes of an object. -/
def contents (w : BufferWorld ι) (i : ι) : Option (List Byte) :=
  (w.objects i).map fun b => (b.value w.heap).contents

/-! ## The block of an object -/

end BufferWorld

/-- An object is fresh, or has been allocated and points to a block in use that covers its
length. -/
inductive BufferObject.Valid (h : Heap Byte) : BufferObject → Prop
  | fresh : Valid h fresh
  | holding {ptr : Option ℕ} {size : SizeT} :
      (∀ n, ptr = some n → (h.cells n).isSome) → size.toNat ≤ (h.block ptr).length →
      Valid h (holding ptr size)

/-- The blocks that an object does not point to are as before. -/
def KeepsOthers (h h' : Heap Byte) (ptr : Option ℕ) : Prop :=
  ∀ n, (h.cells n).isSome → ptr ≠ some n → h'.cells n = h.cells n

/-- What an object points to, it pointed to before, or it was not in use. -/
def PointsToOwn (h : Heap Byte) (ptr ptr' : Option ℕ) : Prop :=
  ∀ n, ptr' = some n → ptr = some n ∨ h.cells n = none

section Memory

variable {alloc : Allocator} {h h' : Heap Byte} {ptr ptr' : Option ℕ} {size : SizeT}

theorem KeepsOthers.refl (h : Heap Byte) (ptr : Option ℕ) : KeepsOthers h h ptr :=
  fun _ _ _ => rfl

theorem mallocBlock_spec (hmalloc : mallocBlock alloc h size = (h', ptr')) :
    ptr'.bind h'.cells = alloc.malloc size ∧
      (∀ n, (h.cells n).isSome → h'.cells n = h.cells n) ∧
      ∀ n, ptr' = some n → h.cells n = none := by
  cases hblock : alloc.malloc size with
  | none =>
      rw [mallocBlock, hblock] at hmalloc
      cases hmalloc
      exact ⟨rfl, fun _ _ => rfl, fun n hn => by cases hn⟩
  | some block =>
      rw [mallocBlock, hblock] at hmalloc
      cases hmalloc
      refine ⟨h.cells_alloc_self block, fun n hn => Heap.cells_alloc_of_isSome block hn, ?_⟩
      rintro n ⟨⟩
      exact h.unused h.next (Nat.le_refl _)

theorem keepsOthers_modify {n : ℕ} (h : Heap Byte) (f : List Byte → List Byte)
    (hn : ptr = some n) : KeepsOthers h (h.modify n f) ptr := by
  intro m _ hm
  apply Heap.cells_modify_of_ne
  rintro rfl
  exact hm hn

theorem keepsOthers_memcpy {source : Option ℕ} {count : ℕ}
    (hcopy : h.memcpy ptr source count = some h') : KeepsOthers h h' ptr := by
  rcases Heap.memcpy_cases hcopy with ⟨rfl, -⟩ | ⟨d, rfl, -, -, -, rfl⟩
  · exact KeepsOthers.refl h' ptr
  · exact keepsOthers_modify h _ rfl

theorem length_writeLoop (c : BufferCursor) (block bytes : List Byte) :
    (c.writeLoop block bytes).2.length = block.length := by
  induction bytes generalizing c block with
  | nil => rfl
  | cons byte bytes ih =>
      rw [BufferCursor.writeLoop_cons, ih, BufferCursor.poke]
      split
      · rfl
      · exact List.length_set

end Memory

namespace BufferObject

variable {alloc : Allocator} {a a' b : BufferObject} {h h' : Heap Byte} {size : SizeT} {code : ℤ}

/-- A block may change, as long as it keeps its length. -/
theorem Valid.modify {n : ℕ} {f : List Byte → List Byte} (ha : a.Valid h)
    (hlength : ∀ cells, (f cells).length = cells.length) : a.Valid (h.modify n f) := by
  cases ha with
  | fresh => exact Valid.fresh
  | holding hlive hcovers =>
      refine Valid.holding ?_ ?_
      · intro m hm
        rw [Heap.isSome_modify]
        exact hlive m hm
      · rwa [Heap.length_block_modify f hlength]

theorem Valid.of_memcpy {dest source : Option ℕ} {count : ℕ} (ha : a.Valid h)
    (hcopy : h.memcpy dest source count = some h') : a.Valid h' := by
  rcases Heap.memcpy_cases hcopy with ⟨rfl, -⟩ | ⟨d, -, -, -, -, rfl⟩
  · exact ha
  · exact ha.modify fun cells => length_store _ _ _

theorem Valid.of_cells_eq (ha : a.Valid h)
    (heq : ∀ n, a.allocatedBuffer = some n → h'.cells n = h.cells n) : a.Valid h' := by
  cases ha with
  | fresh => exact Valid.fresh
  | @holding ptr size hlive hcovers =>
      refine Valid.holding ?_ ?_
      · intro n hn
        rw [heq n hn]
        exact hlive n hn
      · have hblock : h'.block ptr = h.block ptr := Heap.block_eq_of_cells heq
        rwa [hblock]

theorem Valid.eq_holding (ha : a.Valid h) (halready : a.alreadyAllocatedBuffer = true) :
    ∃ ptr size, a = BufferObject.holding ptr size := by
  cases ha with
  | fresh => cases halready
  | @holding ptr size _ _ => exact ⟨ptr, size, rfl⟩

theorem Valid.covers (ha : a.Valid h) : a.length.toNat ≤ (h.block a.allocatedBuffer).length := by
  cases ha with
  | fresh => exact Nat.zero_le _
  | holding _ hcovers => exact hcovers

theorem contents_value (h : Heap Byte) (a : BufferObject) :
    (a.value h).contents = (h.block a.allocatedBuffer).take a.length.toNat := rfl

theorem Valid.isSome {n : ℕ} (ha : a.Valid h) (hn : a.allocatedBuffer = some n) :
    (h.cells n).isSome := by
  cases ha with
  | fresh => cases hn
  | holding hlive _ => exact hlive n hn

theorem Allocate_cases (ha : a.Valid h)
    (hallocate : a.Allocate alloc h size = .ok ((a', h'), code)) :
    (a.alreadyAllocatedBuffer = true ∧ a' = a ∧ h' = h) ∨
      (a = fresh ∧ alloc.Provides size ∧ a'.Valid h' ∧
        ∃ ptr, mallocBlock alloc h size = (h', ptr) ∧ a' = holding ptr size) := by
  cases ha with
  | @holding ptr old hlive hcovers =>
      rw [Allocate, if_neg (by simp [holding])] at hallocate
      cases hallocate
      exact Or.inl ⟨rfl, rfl, rfl⟩
  | fresh =>
      right
      rw [Allocate, if_pos (by simp [fresh])] at hallocate
      cases hmalloc : mallocBlock alloc h size with
      | mk heap ptr =>
          obtain ⟨hblock, -, -⟩ := mallocBlock_spec hmalloc
          simp only [hmalloc, hblock] at hallocate
          split at hallocate
          · cases hallocate
          · rename_i husable
            cases hallocate
            have hprovides := Buffer.usable_ge_iff_provides.mp (not_not.mp husable)
            have hcovers := Buffer.size_le_length_block hprovides
            refine ⟨rfl, hprovides, Valid.holding ?_ ?_, ptr, rfl, rfl⟩
            · rintro n rfl
              cases hprovided : alloc.malloc size with
              | some block =>
                  rw [Option.bind_some, hprovided] at hblock
                  rw [hblock, Option.isSome_some]
              | none =>
                  rw [mallocBlock, hprovided] at hmalloc
                  cases hmalloc
            · rw [Heap.block, hblock]
              exact hcovers

theorem Allocate_spec (ha : a.Valid h)
    (hallocate : a.Allocate alloc h size = .ok ((a', h'), code)) :
    a'.Valid h' ∧ KeepsOthers h h' a.allocatedBuffer ∧
      PointsToOwn h a.allocatedBuffer a'.allocatedBuffer ∧
      ∀ n, (h.cells n).isSome → h'.cells n = h.cells n := by
  rcases Allocate_cases ha hallocate with ⟨-, rfl, rfl⟩ | ⟨-, -, hvalid, ptr, hmalloc, rfl⟩
  · exact ⟨ha, KeepsOthers.refl _ _, fun n hn => Or.inl hn, fun _ _ => rfl⟩
  · obtain ⟨-, hkept, hnew⟩ := mallocBlock_spec hmalloc
    exact ⟨hvalid, fun n hn _ => hkept n hn, fun n hn => Or.inr (hnew n hn), hkept⟩

theorem alreadyAllocatedBuffer_of_Allocate (ha : a.Valid h)
    (hallocate : a.Allocate alloc h size = .ok ((a', h'), code)) :
    a'.alreadyAllocatedBuffer = true := by
  rcases Allocate_cases ha hallocate with ⟨halready, rfl, -⟩ | ⟨-, -, -, ptr, -, rfl⟩
  · exact halready
  · rfl

theorem exists_Allocate_fresh (h : Heap Byte) (hprovides : alloc.Provides size) :
    ∃ ptr h', fresh.Allocate alloc h size = .ok ((holding ptr size, h'), 0) := by
  cases hmalloc : mallocBlock alloc h size with
  | mk h' ptr =>
      obtain ⟨hblock, -, -⟩ := mallocBlock_spec hmalloc
      have husable := Buffer.usable_ge_iff_provides.mpr hprovides
      refine ⟨ptr, h', ?_⟩
      rw [Allocate, if_pos (by simp [fresh])]
      simp only [hmalloc, hblock, husable, not_true_eq_false, if_false]

theorem operatorAssign_cases (ha : a.Valid h) (hb : b.alreadyAllocatedBuffer = true)
    (hassign : a.operatorAssign alloc b h = some (.ok (a', h'))) :
    ∃ middle code, a.Allocate alloc h b.length = .ok ((a', middle), code) ∧
      middle.memcpy a'.allocatedBuffer b.allocatedBuffer b.length.toNat = some h' := by
  cases hallocate : a.Allocate alloc h b.length with
  | error thrown =>
      simp only [operatorAssign, hallocate] at hassign
      cases hassign
  | ok r =>
      obtain ⟨⟨target, middle⟩, code⟩ := r
      simp only [operatorAssign, hallocate, hb] at hassign
      obtain ⟨heap, hcopy, hok⟩ := Option.map_eq_some_iff.mp hassign
      have htarget := alreadyAllocatedBuffer_of_Allocate ha hallocate
      have hsame : { target with alreadyAllocatedBuffer := true } = target := by rw [← htarget]
      rw [hsame] at hok
      cases hok
      exact ⟨middle, code, rfl, hcopy⟩

/-- An assignment that completes leaves a target as long as it is, or gives it memory. -/
theorem unchanged_or_provides (ha : a.Valid h) (hb : b.alreadyAllocatedBuffer = true)
    (hassign : a.operatorAssign alloc b h = some (.ok (a', h'))) :
    (a.alreadyAllocatedBuffer = true ∧ a' = a) ∨ (a = fresh ∧ alloc.Provides b.length) := by
  obtain ⟨middle, code, hallocate, -⟩ := operatorAssign_cases ha hb hassign
  rcases Allocate_cases ha hallocate with ⟨halready, hsame, -⟩ | ⟨hfresh, hprovides, -, -⟩
  · exact Or.inl ⟨halready, hsame⟩
  · exact Or.inr ⟨hfresh, hprovides⟩

theorem operatorAssign_of_memcpy {middle : Heap Byte} (ha : a.Valid h)
    (hb : b.alreadyAllocatedBuffer = true)
    (hallocate : a.Allocate alloc h b.length = .ok ((a', middle), code))
    (hcopy : middle.memcpy a'.allocatedBuffer b.allocatedBuffer b.length.toNat = some h') :
    a.operatorAssign alloc b h = some (.ok (a', h')) := by
  have htarget := alreadyAllocatedBuffer_of_Allocate ha hallocate
  have hsame : { a' with alreadyAllocatedBuffer := true } = a' := by rw [← htarget]
  simp only [operatorAssign, hallocate, hcopy, hb, hsame, Option.map_some]

end BufferObject

end ControlEngine
