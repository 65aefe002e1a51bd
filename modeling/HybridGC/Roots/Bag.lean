/-!
# Root bags

Root words that clients maintain. A bag is shared through handles: handles made from one another see
the same bag, all others a bag of their own.
-/

namespace HybridGC

/-! ### One bag -/

/-- Root words in the order in which a scan visits them. -/
structure RootBag where
  words : List UInt64 := []

namespace RootBag

/-- Add a word at the end. -/
def add (b : RootBag) (w : UInt64) : RootBag :=
  ⟨b.words ++ [w]⟩

@[simp] theorem words_add (b : RootBag) (w : UInt64) : (b.add w).words = b.words ++ [w] := rfl

/-- Remove the first occurrence of a word, if there is one. The last word takes its place. -/
def remove? (b : RootBag) (w : UInt64) : Option RootBag :=
  (b.words.idxOf? w).map fun i => ⟨(b.words.set i (b.words.getLastD w)).dropLast⟩

/-- How many words the bag holds. -/
def size (b : RootBag) : Nat :=
  b.words.length

/-- Whether the bag holds no word. -/
def isEmpty (b : RootBag) : Bool :=
  b.words.isEmpty

end RootBag

/-! ### Handles -/

/-- Several bags, and the bag each handle names. -/
structure RootBags where
  bags : List RootBag := [{}]
  handles : List Nat := [0]

namespace RootBags

/-- The bag behind a handle. -/
def bag? (s : RootBags) (handle : Nat) : Option RootBag := do
  s.bags[← s.handles[handle]?]?

/-- Exchange the bag behind a handle. Every handle that shares it sees the new one. -/
def setBag (s : RootBags) (handle : Nat) (b : RootBag) : RootBags :=
  match s.handles[handle]? with
  | none => s
  | some i => { s with bags := s.bags.set i b }

/-- A call on a handle. -/
inductive Call where
  | add (handle : Nat) (w : UInt64)
  | remove (handle : Nat) (w : UInt64)
  | clear (handle : Nat)
  | size (handle : Nat)
  | scan (handle : Nat)
  /-- Make a handle that shares the bag of another. -/
  | share (handle : Nat)
  /-- Make a handle with a bag of its own. -/
  | create

/-- What a call answers. -/
inductive Answer where
  | nothing
  | flag (b : Bool)
  | count (n : Nat)
  | size (n : Nat) (empty : Bool)
  | words (ws : List UInt64)
  | handle (h : Nat)
  /-- There is no such handle. -/
  | refused

/-- Perform a call. -/
def perform (s : RootBags) : Call → Answer × RootBags
  | .add h w =>
    match s.bag? h with
    | none => (.refused, s)
    | some b => (.count (b.add w).size, s.setBag h (b.add w))
  | .remove h w =>
    match s.bag? h with
    | none => (.refused, s)
    | some b =>
      match b.remove? w with
      | none => (.flag false, s)
      | some b => (.flag true, s.setBag h b)
  | .clear h => (if (s.bag? h).isSome then .nothing else .refused, s.setBag h {})
  | .size h =>
    match s.bag? h with
    | none => (.refused, s)
    | some b => (.size b.size b.isEmpty, s)
  | .scan h =>
    match s.bag? h with
    | none => (.refused, s)
    | some b => (.words b.words, s)
  | .share h =>
    match s.handles[h]? with
    | none => (.refused, s)
    | some i => (.handle s.handles.length, { s with handles := s.handles ++ [i] })
  | .create =>
    (.handle s.handles.length,
      { bags := s.bags ++ [{}], handles := s.handles ++ [s.bags.length] })

end RootBags

end HybridGC
