/-
Baselib.Data.DataBlock — the buffer which data is moved around in.

A block owns `capacity` octets of memory, of which the first `size` are
written and the first `offset1` are read. All three are of type `size_t`, so
their sums are taken modulo 2 ^ 64 and compared as they come out.

A method changes the block, and returns or throws. A copy outside the memory
is neither: such a call has no outcome. An object, a text or an allocation is
less than 2 ^ 63 octets long, which no pointer difference exceeds. The number
of octets given to a raw write is whatever the caller says it is.
-/
import Baselib.Core.NumberUtils
import Baselib.Lib.LittleEndian
import Baselib.Lib.Memory

namespace Baselib.Data

open Lib (Octets toLittleEndian ofLittleEndian IntType)
open Lib.Memory (store load sourceOf)
open Core.NumberUtils (safeCoerceTo evaluate)
open Baselib.Core (NumberUtils.Exception)

/-- The octets of an object in memory. -/
structure Object where
  octets : Octets
  length_lt : octets.length < 2 ^ 63

structure DataBlock where
  /-- The memory the block points to. -/
  data : Octets
  capacity : UInt64
  size : UInt64
  offset1 : UInt64
  deriving DecidableEq

namespace DataBlock

inductive Exception where
  | bufferTooSmall (message : String)
  | numberCoerce (e : NumberUtils.Exception Empty)
  | badAlloc
  deriving DecidableEq, Repr

/-- Code which uses a block: it may change it, and returns or throws. -/
abbrev Method (ε α : Type) := ExceptT ε (StateT DataBlock Option) α

section

variable {ε ε' α : Type}

/-- What the call comes to, with the block after it. -/
def Method.call (m : Method ε α) (b : DataBlock) : Option (Except ε α × DataBlock) := m.run.run b

/-- A copy into memory or out of it. -/
def access (a : Option α) : Method ε α := ExceptT.lift (StateT.lift a)

/-- A call which does not use the block. -/
def outside (r : Except ε α) : Method ε α := ExceptT.mk (pure r)

/-- The same code among other exceptions. -/
def Method.adapt (f : ε → ε') (m : Method ε α) : Method ε' α :=
  ExceptT.mk fun b => (m.call b).map fun p => (p.1.mapError f, p.2)

end

/-- `DATA_BLOCK_ALIGNMENT_DEFAULT` -/
def alignmentDefault : UInt64 := 4 * 1024

/-- `g_BlockCapacityDefault` -/
def blockCapacityDefault : UInt64 := 1024 * 1024

def calculateCapacity (capacity : UInt64) : UInt64 :=
  if capacity ≠ 0 then capacity else blockCapacityDefault

/-- `new char[ n ]`, which throws or gives `n` octets of any content. -/
structure Allocator where
  allocate : UInt64 → Option Octets
  length_eq : ∀ {n memory}, allocate n = some memory → memory.length = n.toNat
  size_lt : ∀ {n memory}, allocate n = some memory → n.toNat < 2 ^ 63

/-- The constructor, which allocates the memory. -/
def create (allocator : Allocator) (capacity : UInt64) : Option DataBlock :=
  (allocator.allocate (calculateCapacity capacity)).map fun data =>
    ⟨data, calculateCapacity capacity, calculateCapacity capacity, 0⟩

/-- The constructor which attaches memory. -/
def attach (data : Object) : DataBlock :=
  ⟨data.octets, .ofNat data.octets.length, .ofNat data.octets.length, 0⟩

/-- What `get` makes of the block it found in the pool or created. -/
def get (b : DataBlock) : DataBlock := { b with offset1 := 0, size := 0 }

/-- `alignedOf` -/
def alignedOf (value alignment : UInt64) : UInt64 :=
  alignment * ((value + alignment - 1) / alignment)

def writeBufferTooSmall (b : DataBlock) (size : UInt64) : Exception :=
  .bufferTooSmall
    s!"Attempt to write {size} bytes with write position {b.size} and capacity {b.capacity}"

def readBufferTooSmall (b : DataBlock) (size : UInt64) : Exception :=
  .bufferTooSmall
    s!"Attempt to read {size} bytes with read position {b.offset1} and write position {b.size}"

def invalidSize (b : DataBlock) (size : UInt64) : Exception :=
  .bufferTooSmall
    (s!"Invalid data block size {size} (capacity is {b.capacity}" ++
      s!" and the protocol data offset is {b.offset1})")

def invalidOffset1 (b : DataBlock) (offset1 : UInt64) : Exception :=
  .bufferTooSmall
    (s!"Invalid data block protocol data offset {offset1}" ++
      s!" (the size of the block is {b.size})")

def negativeLength (textSize : IntType.int32.Value) : Exception :=
  .bufferTooSmall s!"Invalid negative string length {textSize.val} in a data block"

/-! ## Sizes -/

/-- `static_cast< std::size_t >` of a text size. -/
def toSize (textSize : IntType.int32.Value) : UInt64 := .ofNat (textSize.val % 2 ^ 64).toNat

/-- The octets of a `std::int32_t`. -/
def int32Octets (value : IntType.int32.Value) : Octets :=
  toLittleEndian 4 (value.val % 256 ^ 4).toNat

/-- The `std::int32_t` of these octets. -/
def int32Of (l : Octets) : IntType.int32.Value := IntType.int32.ofInt (ofLittleEndian l)

/-- `numbers::safeCoerceTo< std::int32_t >( text.size() )` -/
def coerceTextSize (length : Nat) : Except Exception IntType.int32.Value :=
  (evaluate (safeCoerceTo false IntType.int32 (IntType.uint64.ofInt length) none)).1.mapError
    .numberCoerce

/-! ## Checks -/

def chkCanWriteText (textSize : IntType.int32.Value) : Method Exception Unit := do
  let b ← getThe DataBlock
  let totalSize := 4 + toSize textSize
  if b.size + totalSize > b.capacity then
    throw (b.writeBufferTooSmall totalSize)

def readEnsureAvailable (size : UInt64) : Method Exception Unit := do
  let b ← getThe DataBlock
  if b.offset1 ≤ b.size ∧ size ≤ b.size - b.offset1 then
    return
  else
    throw (b.readBufferTooSmall size)

/-- The alignment which the capacity of a growing block is rounded to. -/
def alignmentOf (blockAlignment : UInt64) : UInt64 :=
  if blockAlignment ≠ 0 then blockAlignment else alignmentDefault

/-- Moves the block to new memory of this capacity. -/
def grow (allocator : Allocator) (newCapacity : UInt64) : Method Exception Unit := do
  let b ← getThe DataBlock
  match allocator.allocate newCapacity with
  | none => throw .badAlloc
  | some newDataBlock =>
    let octets ← access (load b.data 0 b.size.toNat)
    let data ← access (store newDataBlock 0 (sourceOf octets) b.size.toNat)
    set { b with data, capacity := newCapacity }

def writeEnsureAvailable (allocator : Allocator) (size blockAlignment : UInt64) : Method Exception Unit := do
  let b ← getThe DataBlock
  if b.size + size > b.capacity then
    grow allocator (alignedOf (b.size + size) (alignmentOf blockAlignment))

def setSizeChecked (size : UInt64) : Method Exception Unit := do
  let b ← getThe DataBlock
  if size ≤ b.capacity ∧ b.offset1 ≤ size then
    set { b with size }
  else
    throw (b.invalidSize size)

def setOffset1Checked (offset1 : UInt64) : Method Exception Unit := do
  let b ← getThe DataBlock
  if offset1 ≤ b.size then
    set { b with offset1 }
  else
    throw (b.invalidOffset1 offset1)

/-- Without the check, where the caller knows better. -/
def setSize (size : UInt64) : Method Exception Unit :=
  modifyThe DataBlock fun b => { b with size }

def setOffset1 (offset1 : UInt64) : Method Exception Unit :=
  modifyThe DataBlock fun b => { b with offset1 }

def reset : Method Exception Unit := modifyThe DataBlock fun b => { b with offset1 := 0, size := 0 }

/-! ## Writing and reading -/

/-- `write( const void* data, size )` -/
def write (data : Nat → UInt8) (size : UInt64) : Method Exception Unit := do
  let b ← getThe DataBlock
  if b.size + size ≤ b.capacity then
    let data ← access (store b.data b.size.toNat data size.toNat)
    set { b with data, size := b.size + size }
  else
    throw (b.writeBufferTooSmall size)

/-- `write( const T value )`: the value is its octets. -/
def writeScalar (value : Octets) : Method Exception Unit := write (sourceOf value) (.ofNat value.length)

/-- `write( const std::string& text )` -/
def writeText (text : Octets) : Method Exception Unit := do
  let textSize ← outside (coerceTextSize text.length)
  chkCanWriteText textSize
  writeScalar (int32Octets textSize)
  write (sourceOf text) (toSize textSize)

/-- `write( const char* text )`: the text ends before the first null. -/
def writeCString (text : Octets) : Method Exception Unit := writeText (text.takeWhile (· ≠ 0))

/-- `read( T* value )` with the size of the type. -/
def readScalar (size : UInt64) : Method Exception Octets := do
  readEnsureAvailable size
  let b ← getThe DataBlock
  let value ← access (load b.data b.offset1.toNat size.toNat)
  set { b with offset1 := b.offset1 + size }
  return value

/-- The octets of a text, once its size is read. -/
def readTextOf (textSize : IntType.int32.Value) : Method Exception Octets := do
  if textSize.val ≥ 0 then
    readEnsureAvailable (toSize textSize)
    let b ← getThe DataBlock
    let text ← access (load b.data b.offset1.toNat (toSize textSize).toNat)
    set { b with offset1 := b.offset1 + toSize textSize }
    return text
  else
    throw (negativeLength textSize)

/-- `read( std::string* text )` -/
def readText : Method Exception Octets := do
  let octets ← readScalar 4
  readTextOf (int32Of octets)

/-! ## Operations -/

inductive Operation where
  | reset
  | write (data : Nat → UInt8) (size : UInt64)
  | writeScalar (value : Object)
  | writeText (text : Object)
  | writeCString (text : Object)
  | readEnsureAvailable (size : UInt64)
  | readScalar (size : UInt64)
  | readText
  | setSizeChecked (size : UInt64)
  | setOffset1Checked (offset1 : UInt64)
  | writeEnsureAvailable (allocator : Allocator) (size blockAlignment : UInt64)

/-- The call, with the octets which it reads. -/
def Operation.method : Operation → Method Exception Octets
  | .reset => do DataBlock.reset; return []
  | .write data size => do DataBlock.write data size; return []
  | .writeScalar value => do DataBlock.writeScalar value.octets; return []
  | .writeText text => do DataBlock.writeText text.octets; return []
  | .writeCString text => do DataBlock.writeCString text.octets; return []
  | .readEnsureAvailable size => do DataBlock.readEnsureAvailable size; return []
  | .readScalar size => DataBlock.readScalar size
  | .readText => DataBlock.readText
  | .setSizeChecked size => do DataBlock.setSizeChecked size; return []
  | .setOffset1Checked offset1 => do DataBlock.setOffset1Checked offset1; return []
  | .writeEnsureAvailable allocator size blockAlignment => do
      DataBlock.writeEnsureAvailable allocator size blockAlignment
      return []

/-- The block after the call, whether it returned or threw. -/
def step (b : DataBlock) (operation : Operation) : Option DataBlock :=
  (operation.method.call b).map Prod.snd

end DataBlock

end Baselib.Data
