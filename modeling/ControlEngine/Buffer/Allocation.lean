import ControlEngine.Buffer.Cursor

/-!
# Allocating a buffer

`Buffer` owns one block of memory that `Allocate` obtains from `malloc`.  The
allocator is outside the program.  It is a parameter that carries the contract
of `malloc` with it: a block it hands out has at least the size asked for, and
its usable size is a `size_t`.  The cells of a new block hold anything.

`Allocate` reports a block that is too small by throwing a string literal.  Its
own `catch` clause takes exceptions derived from `std::exception`, which a
literal is not, so the literal leaves the function.
-/

namespace ControlEngine

/-- What a `throw` of the program throws, as its `catch` clauses tell it apart:
an exception derived from `std::exception`, or a string literal. -/
inductive Thrown
  | exception (what : String)
  | literal (text : String)
deriving DecidableEq, Repr

/-- `malloc`, with the usable cells of each block it returns, or `none` for
`NULL`. -/
structure Allocator where
  malloc : SizeT → Option (List Byte)
  enough : ∀ {size block}, malloc size = some block → size.toNat ≤ block.length
  bounded : ∀ {size block}, malloc size = some block → block.length < 2 ^ 64

/-- The allocator can satisfy a request: it returns a block, or the request
asks for no cells at all. -/
def Allocator.Provides (alloc : Allocator) (size : SizeT) : Prop :=
  (alloc.malloc size).isSome ∨ size = 0

/-- The largest size `malloc` ever satisfies. -/
def PTRDIFF_MAX : SizeT := 0x7fffffffffffffff

/-- An allocator that hands out zeroed blocks of just the size asked for, up to
`PTRDIFF_MAX`. -/
def Allocator.zeroed : Allocator where
  malloc size := if size ≤ PTRDIFF_MAX then some (List.replicate size.toNat 0) else none
  enough := by
    intro size block hblock
    obtain ⟨_, hzeros⟩ := Option.ite_none_right_eq_some.mp hblock
    cases hzeros
    simp
  bounded := by
    intro size block hblock
    obtain ⟨_, hzeros⟩ := Option.ite_none_right_eq_some.mp hblock
    cases hzeros
    simpa using size.isLt

theorem Allocator.zeroed_provides {size : SizeT} (hsize : size.toNat < 2 ^ 63) :
    Allocator.zeroed.Provides size := by
  have hle : size ≤ PTRDIFF_MAX := by
    simp only [BitVec.le_def, PTRDIFF_MAX, BitVec.reduceToNat]
    omega
  left
  simp [Allocator.zeroed, hle]

/-- An allocator that satisfies every request, with zeroed cells. -/
def Allocator.generous : Allocator where
  malloc size := some (List.replicate size.toNat 0)
  enough := by
    intro size block hblock
    rw [← Option.some.inj hblock, List.length_replicate]
  bounded := by
    intro size block hblock
    rw [← Option.some.inj hblock, List.length_replicate]
    exact size.isLt

theorem Allocator.generous_provides (size : SizeT) : Allocator.generous.Provides size :=
  Or.inl rfl

/-- `malloc_usable_size`, which is zero for `NULL`. -/
def mallocUsableSize : Option (List Byte) → SizeT
  | none => 0
  | some block => BitVec.ofNat 64 block.length

/-- `mallocError`. -/
def mallocError : String := " *** Failure Allocating Memory ***"

/-- `Buffer`.  Of the two pointers to the block only `allocatedBuffer` is kept,
since the program never makes them differ. -/
structure Buffer where
  allocatedBuffer : Option (List Byte)
  capacity : SizeT
  length : SizeT
  bufferCursor : BufferCursor
  alreadyAllocatedBuffer : Bool
deriving DecidableEq, Repr

namespace Buffer

/-- A buffer as its constructor leaves it.  The source leaves the two sizes and
the cursor uninitialised; nothing reads them before `Allocate` sets them. -/
def fresh : Buffer where
  allocatedBuffer := none
  capacity := 0
  length := 0
  bufferCursor := BufferCursor.ofCapacity 0
  alreadyAllocatedBuffer := false

/-- `Allocate`: the buffer with the returned code, or what is thrown. -/
def Allocate (alloc : Allocator) (b : Buffer) (size : SizeT) :
    Except Thrown (Buffer × ℤ) :=
  if ¬ b.alreadyAllocatedBuffer then
    let allocatedBuffer := alloc.malloc size
    let realUsable := mallocUsableSize allocatedBuffer
    if ¬ (realUsable ≥ size) then
      .error (.literal mallocError)
    else
      .ok
        ({ allocatedBuffer
           capacity := size
           length := size
           bufferCursor := BufferCursor.ofCapacity size
           alreadyAllocatedBuffer := true }, 0)
  else
    .ok (b, 1)

/-- `getBufferCursor`, which copies the cursor. -/
def getBufferCursor (b : Buffer) : BufferCursor := b.bufferCursor

/-- The cells of the block. -/
def block (b : Buffer) : List Byte := b.allocatedBuffer.getD []

/-- The buffer after its cells were written through a pointer. -/
def withBlock (b : Buffer) (cells : List Byte) : Buffer :=
  { b with allocatedBuffer := b.allocatedBuffer.map fun _ => cells }

/-- The `count` cells that start at a displacement. -/
def cellsAt (b : Buffer) (displacement : ℤ) (count : ℕ) : List Byte :=
  (b.block.drop displacement.toNat).take count

/-- The contents of the buffer: its first `length` cells. -/
def contents (b : Buffer) : List Byte := b.cellsAt 0 b.length.toNat

@[simp] theorem length_withBlock (b : Buffer) (cells : List Byte) :
    (b.withBlock cells).length = b.length := rfl

theorem block_withBlock {b : Buffer} {cells : List Byte}
    (hlength : cells.length = b.block.length) : (b.withBlock cells).block = cells := by
  cases hblock : b.allocatedBuffer with
  | none =>
      have hnil : cells = [] := by simpa [block, hblock] using hlength
      simp [withBlock, block, hblock, hnil]
  | some old => simp [withBlock, block, hblock]

/-! ## Allocating a fresh buffer -/

variable {alloc : Allocator} {size : SizeT}

theorem usable_ge_iff_provides :
    mallocUsableSize (alloc.malloc size) ≥ size ↔ alloc.Provides size := by
  cases hmalloc : alloc.malloc size with
  | none =>
      simp only [mallocUsableSize, Allocator.Provides, hmalloc, Option.isSome_none,
        Bool.false_eq_true, false_or]
      bv_omega
  | some block =>
      have henough := alloc.enough hmalloc
      have hbounded := alloc.bounded hmalloc
      refine iff_of_true ?_ (Or.inl (by simp [hmalloc]))
      simp only [mallocUsableSize, ge_iff_le, BitVec.le_def, BitVec.toNat_ofNat]
      rwa [Nat.mod_eq_of_lt hbounded]

/-- What `Allocate` makes of a fresh buffer when the request is satisfied. -/
def allocated (alloc : Allocator) (size : SizeT) : Buffer where
  allocatedBuffer := alloc.malloc size
  capacity := size
  length := size
  bufferCursor := BufferCursor.ofCapacity size
  alreadyAllocatedBuffer := true

theorem allocate_fresh (h : alloc.Provides size) :
    fresh.Allocate alloc size = .ok (allocated alloc size, 0) := by
  have husable := usable_ge_iff_provides.mpr h
  simp [Allocate, fresh, allocated, husable]

theorem allocate_fresh_of_not_provides (h : ¬ alloc.Provides size) :
    fresh.Allocate alloc size = .error (.literal mallocError) := by
  have husable := mt usable_ge_iff_provides.mp h
  simp only [Allocate, fresh, husable, Bool.false_eq_true, not_false_eq_true, if_true]

/-- `Allocate` makes this of a fresh buffer whenever it reports success. -/
theorem allocate_fresh_eq_ok_iff {b : Buffer} :
    fresh.Allocate alloc size = .ok (b, 0) ↔ alloc.Provides size ∧ b = allocated alloc size := by
  by_cases hprovides : alloc.Provides size
  · rw [allocate_fresh hprovides]
    simp [hprovides, eq_comm]
  · rw [allocate_fresh_of_not_provides hprovides]
    simp [hprovides]

theorem size_le_length_block (h : alloc.Provides size) :
    size.toNat ≤ (allocated alloc size).block.length := by
  cases hmalloc : alloc.malloc size with
  | none =>
      have hzero : size = 0 := by simpa [Allocator.Provides, hmalloc] using h
      simp [hzero]
  | some block => simpa [Buffer.block, allocated, hmalloc] using alloc.enough hmalloc

end Buffer
end ControlEngine
