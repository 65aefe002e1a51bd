import HybridGC.Word

/-!
# Payloads

A payload is memory of 64-bit cells, zeroed at first, the bytes of a cell in little-endian order. A
word may be read and written at any byte offset; at a multiple of eight it is one cell, elsewhere
it lies across two.
-/

namespace HybridGC

/-- The memory of an object. -/
structure Payload where
  cells : Array UInt64

namespace Payload

/-- Zeroed memory for a number of bytes, rounded up to a multiple of sixteen. -/
def zeroed (size : Nat) : Payload :=
  ⟨Array.replicate (roundUp size 16 / 8) 0⟩

/-- The first words. -/
def words (p : Payload) (n : Nat) : List UInt64 :=
  (p.cells.extract 0 n).toList

/-- The word at a byte offset, if it lies in the memory. -/
def load? (p : Payload) (offset : Nat) : Option UInt64 :=
  let i := offset / 8
  let shift := UInt64.ofNat (8 * (offset % 8))
  if shift = 0 then p.cells[i]?
  else do
    let low ← p.cells[i]?
    let high ← p.cells[i + 1]?
    return (low >>> shift) ||| (high <<< (64 - shift))

/-- Write a word at a byte offset, if it lies in the memory. -/
def store? (p : Payload) (offset : Nat) (w : UInt64) : Option Payload :=
  let i := offset / 8
  let shift := UInt64.ofNat (8 * (offset % 8))
  if shift = 0 then
    if i < p.cells.size then some ⟨p.cells.setIfInBounds i w⟩ else none
  else do
    let low ← p.cells[i]?
    let high ← p.cells[i + 1]?
    let below : UInt64 := (1 <<< shift) - 1
    let cells := p.cells.setIfInBounds i ((low &&& below) ||| (w <<< shift))
    return ⟨cells.setIfInBounds (i + 1) ((high &&& ~~~below) ||| (w >>> (64 - shift)))⟩

end Payload

end HybridGC
