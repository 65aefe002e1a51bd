import HybridGC.Error
import HybridGC.Heap.Payload
import Std.Data.TreeMap

/-!
# The heap

Blocks are laid out one after the other in an arena, each a header followed by its payload, and are
known by the address of the payload. An address is never given out twice: a freed block keeps its
memory and is only marked. What a destructor is belongs to the client, so the heap is generic in it.
-/

namespace HybridGC

/-! ### Headers and blocks -/

/-- The three partitions of the tracked objects: those without counted references, those with some,
and those being collected. -/
inductive Partition where
  | zeroCount
  | multiRef
  | working
deriving DecidableEq

/-- The bookkeeping in front of a payload. -/
structure Header (δ : Type) where
  size : Nat
  destructor : Option δ
  refs : UInt64 := 0
  state : Partition := .zeroCount

/-- A header with its payload. -/
structure Block (δ : Type) where
  header : Header δ
  payload : Payload
  freed : Bool := false

/-- The block of a fresh object. -/
def Block.fresh {δ : Type} (size : Nat) (destructor : Option δ) : Block δ where
  header := { size, destructor }
  payload := .zeroed size

/-! ### The arena -/

namespace Arena

/-- The address of the first header. -/
def base : Nat := 0x10000000

/-- The bytes that headers and payloads share. -/
def capacity : Nat := 67108864

/-- The bytes of a header. -/
def headerSize : Nat := 48

/-- What headers and payloads are aligned to. -/
def alignment : Nat := 16

/-- The bytes a block can have at most. -/
def largestBlock : Nat := 0x8000000000000000 - alignment

end Arena

/-- The blocks given out, by payload address, and where the next one goes. -/
structure Heap (δ : Type) where
  blocks : Std.TreeMap UInt64 (Block δ) := ∅
  cursor : Nat := Arena.base

namespace Heap

variable {δ : Type}

instance : Inhabited (Heap δ) := ⟨{}⟩

/-- The payload address of the next block. -/
def nextAddress (h : Heap δ) : UInt64 :=
  UInt64.ofNat (h.cursor + Arena.headerSize)

/-- Lay out a block with a zeroed payload. Fails on a block that is too large for any memory, and
on one that the rest of the arena cannot hold. -/
def allocate (h : Heap δ) (size : Nat) (destructor : Option δ) :
    Except GcError (UInt64 × Heap δ) :=
  let total := Arena.headerSize + size
  if Arena.largestBlock < total then .error (.invalidLayout size)
  else if Arena.base + Arena.capacity < h.cursor + total then .error (.allocationFailed size)
  else .ok (h.nextAddress, {
    blocks := h.blocks.insert h.nextAddress (.fresh size destructor)
    cursor := roundUp (h.cursor + total) Arena.alignment })

/-- The block at a payload address. -/
def block? (h : Heap δ) (a : UInt64) : Option (Block δ) :=
  h.blocks[a]?

/-- The header of the block at a payload address. -/
def header? (h : Heap δ) (a : UInt64) : Option (Header δ) :=
  (h.block? a).map (·.header)

/-- The reference count in a header, zero where there is none. -/
def refs (h : Heap δ) (a : UInt64) : UInt64 :=
  ((h.header? a).map (·.refs)).getD 0

/-- The state in a header. -/
def state? (h : Heap δ) (a : UInt64) : Option Partition :=
  (h.header? a).map (·.state)

/-- The destructor in a header. -/
def destructor? (h : Heap δ) (a : UInt64) : Option δ :=
  (h.header? a).bind (·.destructor)

/-- The words of a payload that lie within its size. -/
def words (h : Heap δ) (a : UInt64) : List UInt64 :=
  match h.block? a with
  | none => []
  | some b => b.payload.words (b.header.size / 8)

/-- Change the block at a payload address. -/
def modifyBlock (h : Heap δ) (a : UInt64) (f : Block δ → Block δ) : Heap δ :=
  { h with blocks := h.blocks.modify a f }

/-- Change the header of the block at a payload address. -/
def modifyHeader (h : Heap δ) (a : UInt64) (f : Header δ → Header δ) : Heap δ :=
  h.modifyBlock a fun b => { b with header := f b.header }

/-- Set the count in a header. -/
def setRefs (h : Heap δ) (a n : UInt64) : Heap δ :=
  h.modifyHeader a fun header => { header with refs := n }

/-- Set the state in a header. -/
def setState (h : Heap δ) (a : UInt64) (s : Partition) : Heap δ :=
  h.modifyHeader a fun header => { header with state := s }

/-- Mark a block as freed. -/
def free (h : Heap δ) (a : UInt64) : Heap δ :=
  h.modifyBlock a fun b => { b with freed := true }

/-- The word at a byte offset of a payload, if it lies in the block. -/
def load? (h : Heap δ) (a : UInt64) (offset : Nat) : Option UInt64 := do
  (← h.block? a).payload.load? offset

/-- Write a word at a byte offset of a payload, if it lies in the block. -/
def store? (h : Heap δ) (a : UInt64) (offset : Nat) (w : UInt64) : Option (Heap δ) := do
  let payload ← (← h.block? a).payload.store? offset w
  return h.modifyBlock a fun b => { b with payload }

end Heap

/-- Lays out a block for a payload of some size with a destructor, and answers its payload address.
-/
abbrev Allocator (δ : Type) := Heap δ → Nat → Option δ → Except GcError (UInt64 × Heap δ)

end HybridGC
