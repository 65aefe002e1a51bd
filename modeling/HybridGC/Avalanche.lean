/-!
# The avalanche hash

A 64-bit integer hash that spreads payload addresses over the buckets of a table. Every step is
invertible modulo 2^64: a sum of shifted copies multiplies by an odd number, and a word xored with
itself shifted right can be unwound from its high bits.
-/

namespace HybridGC

/-- The word xored with itself shifted right. -/
def xorShiftRight (k amount : UInt64) : UInt64 :=
  k ^^^ (k >>> amount)

/-- The hash of an address. -/
def avalanche (key : UInt64) : UInt64 :=
  let k := ~~~key + (key <<< 21)
  let k := xorShiftRight k 24
  let k := k + (k <<< 3) + (k <<< 8)
  let k := xorShiftRight k 14
  let k := k + (k <<< 2) + (k <<< 4)
  let k := xorShiftRight k 28
  k + (k <<< 31)

end HybridGC
