import HybridGC.Heap.Basic
import HybridGC.Table.Basic

/-!
# Partitions

Three tables hold the entries of the tracked objects: those without counted references, those with
some, and those that a pass or a teardown works on.
-/

namespace HybridGC

/-- The tables of the three partitions. -/
structure Partitions where
  zeroCount : Table
  multiRef : Table
  working : Table

namespace Partitions

/-- Three empty tables. -/
def empty (l : Ladder) : Partitions :=
  ⟨.empty l, .empty l, .empty l⟩

/-- The table of a partition. -/
def table (ps : Partitions) : Partition → Table
  | .zeroCount => ps.zeroCount
  | .multiRef => ps.multiRef
  | .working => ps.working

/-- Exchange the table of a partition. -/
def setTable (ps : Partitions) (t : Table) : Partition → Partitions
  | .zeroCount => { ps with zeroCount := t }
  | .multiRef => { ps with multiRef := t }
  | .working => { ps with working := t }

@[simp] theorem table_setTable_self (ps : Partitions) (t : Table) (p : Partition) :
    (ps.setTable t p).table p = t := by
  cases p <;> rfl

theorem table_setTable_of_ne (ps : Partitions) (t : Table) {p q : Partition} (h : p ≠ q) :
    (ps.setTable t p).table q = ps.table q := by
  cases p <;> cases q <;> simp_all [table, setTable]

/-- Run an operation on the table of a partition. -/
def onTable {α : Type} (p : Partition) (f : Table → α × Table) : Partitions → α × Partitions
  | ⟨zeroCount, multiRef, working⟩ =>
    match p with
    | .zeroCount => let (x, zeroCount) := f zeroCount; (x, ⟨zeroCount, multiRef, working⟩)
    | .multiRef => let (x, multiRef) := f multiRef; (x, ⟨zeroCount, multiRef, working⟩)
    | .working => let (x, working) := f working; (x, ⟨zeroCount, multiRef, working⟩)

@[simp] theorem onTable_eq {α : Type} (p : Partition) (f : Table → α × Table) (ps : Partitions) :
    ps.onTable p f = ((f (ps.table p)).1, ps.setTable (f (ps.table p)).2 p) := by
  cases p <;> rfl

/-- The partition an address is found in. -/
def locate (ps : Partitions) (a : UInt64) : Option Partition :=
  if ps.zeroCount.contains a then some .zeroCount
  else if ps.multiRef.contains a then some .multiRef
  else if ps.working.contains a then some .working
  else none

/-- Whether an address is in one of the tables. -/
def isTracked (ps : Partitions) (a : UInt64) : Bool :=
  (ps.locate a).isSome

/-- Whether an address is in the multi-ref table. -/
def isMultiRef (ps : Partitions) (a : UInt64) : Bool :=
  ps.multiRef.contains a

/-- How many entries the three tables hold. -/
def trackedCount (ps : Partitions) : Nat :=
  ps.zeroCount.size + ps.multiRef.size + ps.working.size

end Partitions

end HybridGC
