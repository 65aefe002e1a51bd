/-!
# Naming words

Clients number the objects they allocate, from zero. A word is named outright, or as the address of
a numbered object plus some bytes.
-/

namespace HybridGC

/-- A word, or an object's address and bytes beyond it. -/
inductive Reference where
  | word (w : UInt64)
  | object (number : Nat) (offset : UInt64)
deriving DecidableEq

/-- The word that is named, given the addresses of the objects. -/
def Reference.resolve? (objects : Array UInt64) : Reference → Option UInt64
  | .word w => some w
  | .object i offset => objects[i]?.map (· + offset)

/-- Whether the function that ends an object runs inside the collector's own code or behind the
foreign boundary, where a fault is caught. -/
inductive DestructorKind where
  | native
  | foreign
deriving DecidableEq

end HybridGC
