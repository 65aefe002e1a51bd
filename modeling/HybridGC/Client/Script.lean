import HybridGC.Reference

/-!
# Scripts

What clients do with a collector is written down as data: a script is a list of calls, and a
destructor is a script that runs when its object dies. Calls name words by operands, which are
evaluated when the call is made.
-/

namespace HybridGC

/-- A word named by a client. -/
inductive Operand where
  | ref (r : Reference)
  /-- The value of a variable. -/
  | variable (k : Fin 8)
  /-- In a destructor, the object it destroys. -/
  | self
  /-- The word at a byte offset of an object's payload. -/
  | load (object : Operand) (offset : Nat)

/-- A place that holds a pointer: a variable, or a word of an object's payload. -/
inductive Slot where
  | variable (k : Fin 8)
  | cell (object : Operand) (offset : Nat)

/-- How a call reaches the collector. -/
inductive Api where
  /-- By a method of the collector itself. -/
  | direct
  /-- By a function on the collector of the program. -/
  | program
  /-- By the C boundary of the collector of the program. -/
  | c
deriving DecidableEq

/-- How a call is made, and whether it is handed to a new thread. -/
structure Manner where
  api : Api := .direct
  spawn : Bool := false

/-- What a call asks for. -/
inductive Op where
  /-- Install the collector of the program. -/
  | init
  | isInitialized
  | objectCount
  /-- Allocate objects, one after the other, all with the same destructor. -/
  | alloc (size : Nat) (destructor : Option (DestructorKind × List (Manner × Op))) (times : Nat)
  | addref (p : Operand) (times : Nat)
  | delref (p : Operand) (times : Nat)
  /-- Store a counted pointer in a slot; at the C boundary the slot may be null. -/
  | swapref (slot : Option Slot) (value : Operand)
  | collect
  | deinit
  /-- Set the collect threshold to the word an operand names. -/
  | setThreshold (n : Operand)
  | config
  | stats
  /-- Write a word into a payload, uncounted. -/
  | store (p : Operand) (offset : Nat) (value : Operand)
  /-- Set a variable, uncounted. -/
  | assign (k : Fin 8) (value : Operand)
  | words (p : Operand)
  | header (p : Operand)
  | query (p : Operand)
  | rootAdd (p : Operand)
  | rootRemove (p : Operand)
  | rootClear
  /-- Raise a fault, with a text of the client's own if it has one. -/
  | fail (text : String := "callback")

/-- A call: the way it is made and what it asks for. -/
abbrev Call := Manner × Op

/-- A destructor, with the number of the object it belongs to. -/
structure Finalizer where
  object : Nat
  kind : DestructorKind
  script : List Call

end HybridGC
