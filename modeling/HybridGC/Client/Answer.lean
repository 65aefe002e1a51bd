import HybridGC.Client.Script
import HybridGC.Error
import HybridGC.Fault
import HybridGC.Gc

/-!
# Answers

What calls answer, and the record of the destructors that ran.
-/

namespace HybridGC

/-- What a call answers. -/
inductive Answer where
  | nothing
  | flag (b : Bool)
  | count (n : Nat)
  | code (r : ReturnCode)
  | word (w : UInt64)
  | words (ws : List UInt64)
  | object (number : Nat) (address : UInt64)
  | stats (s : Stats)
  | config (c : Config)
  | header (size : Nat) (refs : UInt64) (state : Partition) (destructor : Option DestructorKind)
  | query (tracked : Bool) (found : Option (Partition × UInt64))
  | error (e : GcError)
  | fault (f : Fault)
  /-- The call names a word or a place that does not exist. -/
  | refused

/-- One run of a destructor: the object with its count and state before the run, what the calls of
the script answered, and whether the destructor returned. -/
structure Destruction where
  object : Nat
  address : UInt64
  kind : DestructorKind
  refs : UInt64
  state : Partition
  answers : List Answer
  returned : Bool

/-- The destructions of one pass or teardown, the newest first, and the objects the pass condemned
as cyclic. -/
structure Round where
  condemned : List UInt64
  destructions : List Destruction := []

namespace Round

/-- The destructions in the order in which they happened. -/
def inOrder (r : Round) : List Destruction :=
  r.destructions.reverse

/-- The round without the destructor that did not return, if there is one. -/
def completed (r : Round) : Round :=
  { r with destructions := r.destructions.filter (·.returned) }

/-- Whether a condemned object was destroyed. Condemned objects come in no particular order, so
nothing but the set of the destroyed objects is then certain. -/
def isUnordered (r : Round) : Bool :=
  r.destructions.any fun d => r.condemned.contains d.address

/-- The numbers of the destroyed objects, ascending. -/
def objects (r : Round) : List Nat :=
  (r.destructions.map (·.object)).mergeSort

end Round

end HybridGC
