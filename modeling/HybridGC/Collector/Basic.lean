import HybridGC.Collector.Partitions
import HybridGC.Cycle
import HybridGC.Faulting
import HybridGC.Journal

/-!
# The collector

The state in an object's header names the partition whose table its entry is in. A pass swaps the
zero-count table into the working slot, takes back what is rescued, adds the cycles that are
condemned, and at its end frees whatever the working table still holds.

Operations that can meet a violated invariant stop at a fault; what they have changed by then stays
changed.
-/

namespace HybridGC

/-- The counters of past passes. -/
structure PassCounters where
  collections : Nat := 0
  collected : Nat := 0
  lastRescued : Nat := 0
  lastCollected : Nat := 0
deriving DecidableEq

/-- The counters of past passes, with the sizes of the two lasting partitions. -/
structure Stats extends PassCounters where
  zeroCount : Nat
  multiRef : Nat
deriving DecidableEq

/-- The partitions with the heap they describe. -/
structure Collector (δ : Type) extends Partitions, PassCounters where
  ladder : Ladder
  heap : Heap δ := {}
  collecting : Bool := false
  /-- The size of the multi-ref table when cycles were last condemned. -/
  cycleBaseline : Nat := 0
  journal : Journal := []

namespace Collector

variable {δ : Type}

/-! ### Reading -/

/-- A collector that tracks nothing. -/
def empty (l : Ladder) : Collector δ :=
  { Partitions.empty l with ladder := l }

/-- How much the multi-ref table has grown since cycles were last condemned. -/
def multiRefGrowth (c : Collector δ) : Nat :=
  c.multiRef.size - c.cycleBaseline

/-- The counters and sizes. -/
def stats (c : Collector δ) : Stats where
  toPassCounters := c.toPassCounters
  zeroCount := c.zeroCount.size
  multiRef := c.multiRef.size

/-- The objects in the working table that have a destructor, in iteration order. -/
def pendingDestructors (c : Collector δ) : List (UInt64 × δ) :=
  c.working.addresses.filterMap fun a => (c.heap.destructor? a).map (a, ·)

/-! ### Elementary changes -/

/-- Note a message. -/
def note (m : Message) (c : Collector δ) : Collector δ :=
  { c with journal := m :: c.journal }

@[simp] theorem collecting_note (m : Message) (c : Collector δ) :
    (c.note m).collecting = c.collecting := rfl

/-- Run an operation on the table of a partition. -/
def onTable {α : Type} (p : Partition) (f : Table → α × Table) : Collector δ → α × Collector δ
  | ⟨tables, counters, ladder, heap, collecting, cycleBaseline, journal⟩ =>
    let (x, tables) := tables.onTable p f
    (x, ⟨tables, counters, ladder, heap, collecting, cycleBaseline, journal⟩)

@[simp] theorem onTable_eq {α : Type} (p : Partition) (f : Table → α × Table) (c : Collector δ) :
    c.onTable p f =
      ((f (c.table p)).1, { c with toPartitions := c.setTable (f (c.table p)).2 p }) := by
  cases p <;> rfl

/-- Put an entry into a partition's table and hand back the one it displaces. -/
def put (p : Partition) (e : Entry) (c : Collector δ) : Option Entry × Collector δ :=
  let t := c.table p
  match t.growth? with
  | none => c.onTable p (·.insert e)
  | some n => (c.note (.rehashing t.size n)).onTable p (·.insert e)

@[simp] theorem collecting_put (p : Partition) (e : Entry) (c : Collector δ) :
    (c.put p e).2.collecting = c.collecting := by
  simp only [put]
  split <;> simp

/-- Take the entry of an address out of a partition's table. -/
def take (p : Partition) (a : UInt64) (c : Collector δ) : Option Entry × Collector δ :=
  c.onTable p (·.erase a)

/-- Take every entry out of a partition's table. -/
def drain (p : Partition) (c : Collector δ) : List Entry × Collector δ :=
  c.onTable p Table.drain

/-- Name a partition in an object's header. -/
def setState (a : UInt64) (p : Partition) (c : Collector δ) : Collector δ :=
  { c with heap := c.heap.setState a p }

/-- Name a partition in the headers of several objects. -/
def setStates (as : List UInt64) (p : Partition) (c : Collector δ) : Collector δ :=
  { c with heap := as.foldl (fun h a => h.setState a p) c.heap }

/-! ### Partitions -/

/-- Register a fresh object in the zero-count partition. -/
def track (a : UInt64) : Faulting (Collector δ) Unit := do
  if (← modifyGet (put .zeroCount (.ofAddress a))).isSome then throw (.trackedTwice a)

/-- Move an object from one partition to another. -/
def transfer (source target : Partition) (a : UInt64) : Faulting (Collector δ) Unit := do
  match ← modifyGet (take source a) with
  | none => throw (.missingFromPartition a)
  | some e =>
    modify (setState a target)
    if (← modifyGet (put target e)).isSome then throw (.inTwoPartitions a)

/-- Move an object whose count has left zero to the multi-ref partition. -/
def promote (a : UInt64) : Faulting (Collector δ) Unit :=
  transfer .zeroCount .multiRef a

/-- Move an object whose count has come back to zero to the zero-count partition. -/
def demote (a : UInt64) : Faulting (Collector δ) Unit :=
  transfer .multiRef .zeroCount a

/-- Count one more reference to an object. Answers the new count. -/
def increment (a : UInt64) : Faulting (Collector δ) UInt64 := do
  let n := (← get).heap.refs a
  if n.toNat + 1 = UInt64.size then throw .countOverflow
  modify fun c => { c with heap := c.heap.setRefs a (n + 1) }
  return n + 1

/-- Count one reference less to an object. Answers the new count. -/
def decrement (a : UInt64) : Faulting (Collector δ) UInt64 := do
  let n := (← get).heap.refs a
  if n = 0 then throw .countUnderflow
  modify fun c => { c with heap := c.heap.setRefs a (n - 1) }
  return n - 1

/-! ### Passes -/

/-- Begin a pass: the zero-count objects become the candidates in the working table. -/
def beginPass : Faulting (Collector δ) Unit := do
  if (← get).collecting then throw .passInProgress
  modify fun c => { c with collecting := true, lastRescued := 0 }
  modify fun c => c.note (.passBegun c.zeroCount.size c.multiRef.size)
  if !(← get).working.isEmpty then throw .workingNotEmpty
  modify fun c => { c with working := c.zeroCount, zeroCount := .empty c.ladder }
  modify fun c => c.setStates c.working.addresses .working

/-- Give the candidate a word names, if it names one, back to the zero-count partition. -/
def rescue (w : UInt64) (c : Collector δ) : Bool × Collector δ :=
  match c.take .working w with
  | (none, _) => (false, c)
  | (some e, c) =>
    let (_, c) := (c.setState w .zeroCount).put .zeroCount e
    (true, { c with lastRescued := c.lastRescued + 1 })

/-- Rescue what several words name, in order. Answers the words that rescued nothing. -/
def rescueAll : List UInt64 → Collector δ → List UInt64 × Collector δ
  | [], c => ([], c)
  | w :: ws, c =>
    let (rescued, c) := c.rescue w
    let (rest, c) := rescueAll ws c
    (if rescued then rest else w :: rest, c)

/-- Move the multi-ref objects that keep only each other alive, given the root words, to the working
table. Answers their addresses. -/
def condemnCycles (roots : List UInt64) : Faulting (Collector δ) (List UInt64) := do
  let c ← get
  let condemned := c.heap.unreachable c.zeroCount.addresses c.multiRef.addresses roots
  condemned.forM (transfer .multiRef .working)
  modify fun c => { c with cycleBaseline := c.multiRef.size }
  if !condemned.isEmpty then modify (note (.cyclesCondemned condemned.length))
  return condemned

/-- Move an entry that has been taken out of its table to the working table. -/
def condemn (e : Entry) : Faulting (Collector δ) Unit := do
  modify (setState e.address .working)
  if (← modifyGet (put .working e)).isSome then throw .condemnedTwice

/-- Move every zero-count and then every multi-ref object to the working table. -/
def condemnAll : Faulting (Collector δ) Unit := do
  (← modifyGet (drain .zeroCount)).forM condemn
  (← modifyGet (drain .multiRef)).forM condemn

/-- Free a block. -/
def free (a : UInt64) (c : Collector δ) : Collector δ :=
  { c.note (.freeing a) with heap := c.heap.free a }

/-- Free every object in the working table. Answers how many there were. -/
def sweep (c : Collector δ) : Nat × Collector δ :=
  let swept := c.working.addresses
  let c := swept.foldl (fun c a => c.free a) c
  (swept.length, { c with working := .empty c.ladder })

/-- Sweep and end the pass. Answers how many objects were freed. -/
def finishPass (c : Collector δ) : Nat × Collector δ :=
  let (swept, c) := c.sweep
  let c := { c with
    collecting := false
    collections := c.collections + 1
    collected := c.collected + swept
    lastCollected := swept }
  (swept, c.note (.passFinished c.zeroCount.size c.multiRef.size c.lastRescued swept))

end Collector

end HybridGC
