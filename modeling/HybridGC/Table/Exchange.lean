import HybridGC.Collector.Basic

/-!
# Exchanging entries between two tables

What a collector does to its tables, for two tables and no objects: an address is only an address,
and no header names the table its entry is in. Every operation names the table it works on. Those
that move entries take them out of the one table and put them into the other, as a pass does with
what it condemns.
-/

namespace HybridGC

/-- A collector without objects, for the sake of two of its tables. -/
abbrev Exchange := Collector Unit

namespace Exchange

/-- Two empty tables. -/
def empty (l : Ladder) : Exchange :=
  Collector.empty l

/-- Which of the two tables. -/
inductive Side where
  | left
  | right
deriving DecidableEq

/-- The opposite side. -/
def Side.other : Side → Side
  | .left => .right
  | .right => .left

/-- The partition whose table is on a side. -/
def Side.partition : Side → Partition
  | .left => .zeroCount
  | .right => .multiRef

/-- The table on a side. -/
def table (x : Exchange) (side : Side) : Table :=
  x.toPartitions.table side.partition

/-- The table on the left. -/
def left (x : Exchange) : Table :=
  x.table .left

/-- The table on the right. -/
def right (x : Exchange) : Table :=
  x.table .right

/-- Put an entry into a table and hand back the one it displaces. -/
def insert (side : Side) (e : Entry) (x : Exchange) : Option Entry × Exchange :=
  x.put side.partition e

/-- Put entries into a table in order. Answers how many displaced another. -/
def insertAll (side : Side) : List Entry → Exchange → Nat × Exchange
  | [], x => (0, x)
  | e :: es, x =>
    let (old, x) := insert side e x
    let (n, x) := insertAll side es x
    (old.toList.length + n, x)

/-- Take the entry of an address out of a table. -/
def erase (side : Side) (a : UInt64) (x : Exchange) : Option Entry × Exchange :=
  x.take side.partition a

/-- Take every entry out of a table, in iteration order. -/
def drain (side : Side) (x : Exchange) : List Entry × Exchange :=
  Collector.drain side.partition x

/-- Move the entry of an address from a table to the other one. Answers nothing if it is not there,
else the entry it displaces. -/
def move (side : Side) (a : UInt64) (x : Exchange) : Option (Option Entry) × Exchange :=
  match x.erase side a with
  | (none, x) => (none, x)
  | (some e, x) =>
    let (old, x) := insert side.other e x
    (some old, x)

/-- Move every entry of a table to the other one, in iteration order. Answers how many were moved
and how many displaced another. -/
def drainInto (side : Side) (x : Exchange) : Nat × Nat × Exchange :=
  let (es, x) := drain side x
  let (replaced, x) := insertAll side.other es x
  (es.length, replaced, x)

end Exchange

end HybridGC
