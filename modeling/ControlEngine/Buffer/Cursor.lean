import ControlEngine.Support.ByteOrder
import ControlEngine.Support.Block

/-!
# The cursor of a buffer

`BufferCursor` walks over the memory of a `Buffer`.  It keeps the same position
three times: as a pointer and as the two lengths in front of and behind it.
The lengths are `size_t`, so every subtraction wraps modulo `2 ^ 64`; the
pointer is modelled by its displacement from `originPtr`, which is an integer
because a wrong move can leave the buffer on either side.

The memory itself belongs to the buffer.  Operations that write take it as the
block of the buffer's cells and return it changed; a write in front of or
behind the block leaves the block as it is, since it hits other memory.  The
`catch` clauses of the source are not modelled: nothing in the bodies throws,
and `memcpy` returns its destination, so the check in `writeByte` never fails.
-/

namespace ControlEngine

/-- `size_t` on the target machine. -/
abbrev SizeT := BitVec 64

/-- `BufferCursor`, with `ptrBuffer` as displacement from `originPtr`. -/
structure BufferCursor where
  ptrBuffer : ℤ
  forwardLength : SizeT
  backwardLength : SizeT
deriving DecidableEq, Repr

namespace BufferCursor

/-- The constructor `BufferCursor(ptr, cap)`. -/
def ofCapacity (cap : SizeT) : BufferCursor where
  ptrBuffer := 0
  forwardLength := cap
  backwardLength := 0

/-- `wrapBuffer`: back to the origin, with the way behind the cursor as the way
in front of it. -/
def wrapBuffer (c : BufferCursor) : BufferCursor where
  ptrBuffer := 0
  forwardLength := c.backwardLength
  backwardLength := 0

/-- `operator++(int)`. -/
def operatorpp (c : BufferCursor) : BufferCursor :=
  if c.forwardLength - 1 > 0 then
    { ptrBuffer := c.ptrBuffer + 1
      forwardLength := c.forwardLength - 1
      backwardLength := c.backwardLength + 1 }
  else
    c.wrapBuffer

/-- `operator--(int)`. -/
def operatormm (c : BufferCursor) : BufferCursor :=
  if c.backwardLength - 1 > 0 then
    { ptrBuffer := c.ptrBuffer - 1
      forwardLength := c.forwardLength + 1
      backwardLength := c.backwardLength - 1 }
  else
    c.wrapBuffer

/-- `jumpForward`. -/
def jumpForward (c : BufferCursor) (jumpAmount : SizeT) : BufferCursor :=
  if c.forwardLength ≥ jumpAmount then
    { ptrBuffer := c.ptrBuffer + jumpAmount.toNat
      forwardLength := c.forwardLength - jumpAmount
      backwardLength := c.backwardLength + jumpAmount }
  else
    c.wrapBuffer

/-- `jumpBackward`, which adds the amount to the pointer as `jumpForward` does.
The branch that wraps has no `return`.  To flow off the end of the function is
undefined whether or not the caller looks at the result, so the call has no
outcome there: `none`. -/
def jumpBackward (c : BufferCursor) (jumpAmount : SizeT) : Option BufferCursor :=
  if c.backwardLength ≥ jumpAmount then
    some
      { ptrBuffer := c.ptrBuffer + jumpAmount.toNat
        forwardLength := c.forwardLength + jumpAmount
        backwardLength := c.backwardLength - jumpAmount }
  else
    none

/-- `jump`.  The parameter is unsigned, so the second test never succeeds. -/
def jump (c : BufferCursor) (jumpAmount : SizeT) : Option BufferCursor :=
  if jumpAmount > 0 then
    some (c.jumpForward jumpAmount)
  else if jumpAmount < 0 then
    c.jumpBackward (jumpAmount * (-1))
  else
    some c

/-- One cell of the block is overwritten, if the displacement lies in it. -/
def poke (block : List Byte) (displacement : ℤ) (byte : Byte) : List Byte :=
  if displacement < 0 then block else block.set displacement.toNat byte

/-- The move of the cursor made by `writeByte`. -/
def afterByte (c : BufferCursor) : BufferCursor :=
  let moved : BufferCursor :=
    { ptrBuffer := c.ptrBuffer + 1
      forwardLength := c.forwardLength - 1
      backwardLength := c.backwardLength + 1 }
  if moved.forwardLength = 0 then moved.wrapBuffer else moved

/-- `writeByte`: the new cursor and memory, and the position written. -/
def writeByte (c : BufferCursor) (block : List Byte) (byte : Byte) :
    BufferCursor × List Byte × ℤ :=
  (c.afterByte, poke block c.ptrBuffer byte, c.ptrBuffer)

/-- The loop of `writeBytes`. -/
def writeLoop (c : BufferCursor) (block : List Byte) :
    List Byte → BufferCursor × List Byte
  | [] => (c, block)
  | byte :: bytes =>
      let (c', block', _) := c.writeByte block byte
      writeLoop c' block' bytes

/-- `writeBytes`: the new cursor and memory, and the position of the first byte
written. -/
def writeBytes (c : BufferCursor) (block bytes : List Byte) :
    BufferCursor × List Byte × ℤ :=
  let (c', block') := c.writeLoop block bytes
  (c', block', c.ptrBuffer)

/-! ## Small laws -/

@[simp] theorem poke_of_nonneg {block : List Byte} {offset : ℕ} {byte : Byte} :
    poke block offset byte = block.set offset byte := by
  simp [poke]

@[simp] theorem writeLoop_cons (c : BufferCursor) (block bytes : List Byte)
    (byte : Byte) :
    c.writeLoop block (byte :: bytes) =
      c.afterByte.writeLoop (poke block c.ptrBuffer byte) bytes := rfl

theorem afterByte_of_ne (c : BufferCursor) (hleft : c.forwardLength - 1 ≠ 0) :
    c.afterByte =
      { ptrBuffer := c.ptrBuffer + 1
        forwardLength := c.forwardLength - 1
        backwardLength := c.backwardLength + 1 } :=
  if_neg hleft

/-- The unsigned parameter makes every jump a jump forward. -/
theorem jump_eq_jumpForward (c : BufferCursor) (jumpAmount : SizeT) :
    c.jump jumpAmount = some (c.jumpForward jumpAmount) := by
  unfold jump
  by_cases hpos : jumpAmount > 0
  · rw [if_pos hpos]
  · have hzero : jumpAmount = 0 := by bv_omega
    subst hzero
    simp [jumpForward]

end BufferCursor
end ControlEngine
