/-!
# Bucket ladders

A table grows by climbing a ladder: a list of bucket counts, none of them zero, that is walked
upwards once and never down. The counts need not ascend. On the last rung a table stops growing and
its chains lengthen instead.
-/

namespace HybridGC

/-- The bucket counts a table walks through as it grows. -/
structure Ladder where
  counts : List Nat
  counts_ne_nil : counts ≠ []
  counts_pos : ∀ n ∈ counts, 0 < n

namespace Ladder

/-- The ladder with the given counts, if there are any and none is zero. -/
def ofList? (counts : List Nat) : Option Ladder :=
  if h : counts ≠ [] ∧ ∀ n ∈ counts, 0 < n then some ⟨counts, h.1, h.2⟩ else none

/-- The number of buckets on a rung. A rung above the ladder has one bucket. -/
def count (l : Ladder) (rung : Nat) : Nat :=
  (l.counts[rung]?).getD 1

theorem count_pos (l : Ladder) (rung : Nat) : 0 < l.count rung := by
  unfold count
  cases h : l.counts[rung]? with
  | none => simp
  | some n => exact l.counts_pos n (List.mem_of_getElem? h)

/-- The standard ladder: primes, each about twice the one before. -/
def standard : Ladder where
  counts := [5, 13, 23, 53, 97, 193, 389, 769, 1543, 3079, 6151, 12289, 24593, 49157, 98317,
    196613, 393241, 786433, 1572869, 3145739, 6291469, 12582917, 25165843, 50331653, 100663319,
    201326611, 402653189, 805306457, 1610612741]
  counts_ne_nil := by decide
  counts_pos := by decide

instance : Inhabited Ladder := ⟨standard⟩

end Ladder

end HybridGC
