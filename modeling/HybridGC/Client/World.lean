import HybridGC.Client.Answer
import HybridGC.Host

/-!
# The client and its collector

A client has eight variables, a root bag and the addresses of the objects it has numbered. Together
with a collector whose destructors are scripts it makes up a world.
-/

namespace HybridGC

/-- What belongs to the client alone. -/
structure Client where
  vars : Vector UInt64 8 := .replicate 8 0
  bag : RootBag := {}
  /-- The addresses of the objects by number; zero while an allocation has not come back. -/
  objects : Array UInt64 := #[]
  /-- The rounds of destructions, the newest first. -/
  rounds : List Round := []

/-- A client with a collector. -/
abbrev World := Host Client Finalizer

/-- Computations on a world that may stop and then keep their changes. -/
abbrev Act := Host.Act Client Finalizer

/-- A slot whose object is known. -/
inductive Place where
  | variable (k : Fin 8)
  | cell (address : UInt64) (offset : Nat)

/-! ### The client's memory -/

namespace Client

/-- The word an operand names, if there is one. -/
def eval? (c : Client) (heap : Heap Finalizer) (self : Option UInt64) :
    Operand → Option UInt64
  | .ref r => r.resolve? c.objects
  | .variable k => some c.vars[k]
  | .self => self
  | .load object offset => do heap.load? (← c.eval? heap self object) offset

/-- The place of a slot, if its object is named. -/
def place? (c : Client) (heap : Heap Finalizer) (self : Option UInt64) : Slot → Option Place
  | .variable k => some (.variable k)
  | .cell object offset => (c.eval? heap self object).map (.cell · offset)

/-- The word in a place, if the place exists. -/
def read? (c : Client) (heap : Heap Finalizer) : Place → Option UInt64
  | .variable k => some c.vars[k]
  | .cell a offset => heap.load? a offset

/-- Set a variable. -/
def assign (k : Fin 8) (v : UInt64) (c : Client) : Answer × Client :=
  (.nothing, { c with vars := c.vars.set k v })

/-- Add a word to the root bag. Answers how many words it holds then. -/
def addRoot (w : UInt64) (c : Client) : Answer × Client :=
  let bag := c.bag.add w
  (.count bag.size, { c with bag })

/-- Remove a word from the root bag. Answers whether it was there. -/
def removeRoot (w : UInt64) (c : Client) : Answer × Client :=
  match c.bag.remove? w with
  | none => (.flag false, c)
  | some bag => (.flag true, { c with bag })

/-- Remove every word from the root bag. -/
def clearRoots (c : Client) : Answer × Client :=
  (.flag true, { c with bag := {} })

/-- Begin a round of destructions. -/
def beginRound (condemned : List UInt64) (c : Client) : Client :=
  { c with rounds := { condemned } :: c.rounds }

end Client

/-! ### Worlds -/

namespace World

open Host

/-- The word an operand names, if there is one. -/
def eval? (w : World) (self : Option UInt64) (p : Operand) : Option UInt64 :=
  w.client.eval? w.gc.collector.heap self p

/-- The place of a slot, if its object is named. -/
def place? (w : World) (self : Option UInt64) (s : Slot) : Option Place :=
  w.client.place? w.gc.collector.heap self s

/-- The word in a place, if the place exists. -/
def read? (w : World) (p : Place) : Option UInt64 :=
  w.client.read? w.gc.collector.heap p

/-- The world with another word in a place, if the place exists. -/
def write? (w : World) (v : UInt64) : Place → Option World
  | .variable k => some { w with client := (w.client.assign k v).2 }
  | .cell a offset => do
    let heap ← w.gc.collector.heap.store? a offset v
    return { w with gc := { w.gc with collector := { w.gc.collector with heap } } }

/-- A place as a cell that holds a pointer. A place that does not exist reads as null and stays so.
-/
def cell (p : Place) : Cell Client Finalizer where
  read w := (read? w p).getD 0
  write v w := (write? w v p).getD w

/-! ### Object numbers -/

/-- Reserve the next object number. -/
def reserve : Act Nat := do
  let n := (← get).client.objects.size
  modifyClient fun c => { c with objects := c.objects.push 0 }
  return n

/-- Give the last reserved number back. -/
def release : Act Unit :=
  modifyClient fun c => { c with objects := c.objects.pop }

/-- Enter the address of a reserved number. -/
def enter (n : Nat) (a : UInt64) : Act Unit :=
  modifyClient fun c => { c with objects := c.objects.setIfInBounds n a }

/-! ### Rounds -/

/-- Record a destruction in the current round. -/
def record (d : Destruction) : Act Unit :=
  modifyClient fun c =>
    match c.rounds with
    | [] => c
    | r :: rs => { c with rounds := { r with destructions := d :: r.destructions } :: rs }

end World

end HybridGC
