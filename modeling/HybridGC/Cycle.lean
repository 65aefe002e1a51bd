import HybridGC.Heap.Basic
import Std.Data.TreeMap.Lemmas
import Std.Data.TreeSet
import Std.Data.TreeSet.Lemmas

/-!
# Trial deletion

Payloads carry no types, so every aligned word of a payload counts as a reference when it equals the
address of an object. A multi-ref object whose count is not exactly the number of words in
multi-ref payloads that name it is owned from outside. What no root, no zero-count object and no
outside owner reaches is a group of multi-ref objects that keep only each other alive.

The search runs over a *frontier*: the multi-ref addresses not reached yet and the objects whose
payload is still to be read. Reaching an object moves it from the one to the other, so the two
together shrink by one with every payload read.
-/

namespace HybridGC

open Std (TreeMap TreeSet)

/-! ### Counting words -/

/-- How often each word occurs in a list. -/
def tally (ws : List UInt64) : TreeMap UInt64 Nat :=
  ws.foldl (fun m w => m.insert w (m.getD w 0 + 1)) ∅

/-! ### The search -/

/-- The multi-ref addresses not reached yet, and the objects still to be read. -/
structure Frontier where
  unreached : TreeSet UInt64
  pending : List UInt64

namespace Frontier

/-- How many payloads the search can still read. -/
def size (f : Frontier) : Nat :=
  f.unreached.size + f.pending.length

/-- Reach the object a word names, if it names one not reached yet. -/
def reach (f : Frontier) (w : UInt64) : Frontier :=
  if w ∈ f.unreached then ⟨f.unreached.erase w, w :: f.pending⟩ else f

/-- Reach what several words name. -/
def reachAll (f : Frontier) (ws : List UInt64) : Frontier :=
  ws.foldl reach f

@[simp] theorem size_reach (f : Frontier) (w : UInt64) : (f.reach w).size = f.size := by
  unfold reach
  split
  case isTrue h =>
    have hpos : f.unreached.size ≠ 0 := by
      intro h0
      have hempty := TreeSet.isEmpty_eq_size_eq_zero (t := f.unreached)
      simp [h0, TreeSet.isEmpty_eq_false_of_contains h] at hempty
    simp only [size, TreeSet.size_erase, TreeSet.mem_iff_contains.1 h, List.length_cons]
    simp only [if_true]
    omega
  case isFalse => rfl

@[simp] theorem size_reachAll (f : Frontier) (ws : List UInt64) :
    (f.reachAll ws).size = f.size := by
  induction ws generalizing f with
  | nil => rfl
  | cons w ws ih =>
    show ((f.reach w).reachAll ws).size = f.size
    rw [ih, size_reach]

/-- Read payloads until none is pending, and answer what was never reached.

What was reached last is read first here. The answer does not depend on that: `Frontier.Searches`
leaves the order of reading open, and `Heap.isLeast_reachable` says what every search answers. -/
def exhaust (words : UInt64 → List UInt64) : Frontier → TreeSet UInt64
  | ⟨unreached, []⟩ => unreached
  | ⟨unreached, a :: rest⟩ => exhaust words (reachAll ⟨unreached, rest⟩ (words a))
termination_by f => f.size
decreasing_by
  rw [size_reachAll]
  simp [size]

end Frontier

/-! ### Unreachable objects -/

namespace Heap

variable {δ : Type}

/-- How many words of the given payloads name each address. -/
def references (h : Heap δ) (objects : List UInt64) : TreeMap UInt64 Nat :=
  tally (objects.flatMap h.words)

/-- The objects among those given whose count is not the number of words of their payloads that
name it. -/
def externallyOwned (h : Heap δ) (multiRef : List UInt64) : List UInt64 :=
  let internal := h.references multiRef
  multiRef.filter fun a => (h.refs a).toNat ≠ internal.getD a 0

/-- The multi-ref objects that no root word, no zero-count object and no externally owned object
reaches, in the order given.

Only which objects these are is settled by the trial deletion; a collector may condemn them in any
order, as one does that counts references in a hash map and walks through that. The order given here
is one of those, and `Collector.condemned_of_perm` says that with every other one a pass condemns
the same objects. -/
def unreachable (h : Heap δ) (zeroCount multiRef roots : List UInt64) : List UInt64 :=
  let start : Frontier := ⟨.ofList multiRef, zeroCount⟩
  let unreached := ((start.reachAll roots).reachAll (h.externallyOwned multiRef)).exhaust h.words
  multiRef.filter (· ∈ unreached)

end Heap

end HybridGC
