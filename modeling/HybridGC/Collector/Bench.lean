import HybridGC.Collector.Basic
import HybridGC.Reference

/-!
# A collector on the bench

The operations of a bare collector, called one by one and in any order. Blocks are allocated
without being tracked. A fault ends only the operation that meets it.
-/

namespace HybridGC

/-- A collector and the addresses of the blocks made for it. -/
structure Bench where
  collector : Collector DestructorKind
  objects : Array UInt64 := #[]
  /-- Whether several cyclic objects have been condemned since the working table was last swept.
  They come in no particular order. -/
  unordered : Bool := false

namespace Bench

/-- A call to the collector. -/
inductive Call where
  | create (size : Nat) (destructor : Option DestructorKind)
  | store (p : Reference) (offset : Nat) (value : Reference)
  | increment (p : Reference)
  | decrement (p : Reference)
  | header (p : Reference)
  | track (p : Reference)
  | promote (p : Reference)
  | demote (p : Reference)
  | beginPass
  | rescue (p : Reference)
  | condemnCycles (roots : List Reference)
  | condemnAll
  | sweep
  | finishPass
  | locate (p : Reference)
  | isMultiRef (p : Reference)
  | growth
  | stats
  | pending

/-- What a call answers. -/
inductive Answer where
  | nothing
  | flag (b : Bool)
  | count (n : Nat)
  | object (number : Nat) (address : UInt64)
  | header (address : UInt64) (header : Header DestructorKind)
  | located (number : Option Nat)
  | stats (s : Stats)
  | pending (objects : List (Nat × DestructorKind))
  | error (e : GcError)
  | fault (f : Fault)
  /-- The call names a word or a place that does not exist. -/
  | refused

/-- An empty collector over a ladder. -/
def start (l : Ladder) : Bench where
  collector := .empty l

/-- The number of the object at an address. -/
def number? (b : Bench) (a : UInt64) : Option Nat :=
  b.objects.idxOf? a

/-- Change the collector and answer. -/
def update (b : Bench) (r : Answer × Collector DestructorKind) : Answer × Bench :=
  (r.1, { b with collector := r.2 })

/-- Run a computation on the collector and answer its result or its fault. -/
def attempt {α : Type} (b : Bench) (act : Faulting (Collector DestructorKind) α)
    (answer : α → Answer) : Answer × Bench :=
  match act.run b.collector with
  | .ok x c => (answer x, { b with collector := c })
  | .error f c => (.fault f, { b with collector := c })

/-- Answer for a word, if the reference names one. -/
def withWord (b : Bench) (p : Reference) (answer : UInt64 → Answer × Bench) :
    Answer × Bench :=
  match p.resolve? b.objects with
  | none => (.refused, b)
  | some a => answer a

/-- Answer for an object that is not freed or still tracked, if the reference names one. -/
def withBlock (b : Bench) (p : Reference)
    (answer : UInt64 → Block DestructorKind → Answer × Bench) : Answer × Bench :=
  b.withWord p fun a =>
    match b.collector.heap.block? a with
    | none => (.refused, b)
    | some block =>
      if block.freed && !b.collector.isTracked a then (.refused, b) else answer a block

/-- Perform a call. -/
def perform (b : Bench) : Call → Answer × Bench
  | .create size destructor =>
    match b.collector.heap.allocate size destructor with
    | .error e => (.error e, b)
    | .ok (a, heap) =>
      (.object b.objects.size a,
        { b with collector := { b.collector with heap }, objects := b.objects.push a })
  | .store p offset value =>
    b.withBlock p fun a _ =>
      b.withWord value fun w =>
        match b.collector.heap.store? a offset w with
        | none => (.refused, b)
        | some heap => (.nothing, { b with collector := { b.collector with heap } })
  | .increment p => b.withBlock p fun a _ => b.attempt (Collector.increment a) (.count ·.toNat)
  | .decrement p => b.withBlock p fun a _ => b.attempt (Collector.decrement a) (.count ·.toNat)
  | .header p =>
    b.withBlock p fun a block =>
      (.header (a - UInt64.ofNat Arena.headerSize) block.header, b)
  | .track p => b.withBlock p fun a _ => b.attempt (Collector.track a) fun _ => .nothing
  | .promote p => b.withWord p fun a => b.attempt (Collector.promote a) fun _ => .nothing
  | .demote p => b.withWord p fun a => b.attempt (Collector.demote a) fun _ => .nothing
  | .beginPass => b.attempt Collector.beginPass fun _ => .nothing
  | .rescue p =>
    b.withWord p fun a =>
      let (rescued, c) := b.collector.rescue a
      b.update (.flag rescued, c)
  | .condemnCycles roots =>
    match roots.mapM (Reference.resolve? b.objects) with
    | none => (.refused, b)
    | some words =>
      match (Collector.condemnCycles words).run b.collector with
      | .ok condemned c =>
        (.count condemned.length,
          { b with collector := c, unordered := b.unordered || 1 < condemned.length })
      | .error f c => (.fault f, { b with collector := c })
  | .condemnAll => b.attempt Collector.condemnAll fun _ => .nothing
  | .sweep =>
    let (swept, c) := b.collector.sweep
    (.count swept, { b with collector := c, unordered := false })
  | .finishPass =>
    let (swept, c) := b.collector.finishPass
    (.count swept, { b with collector := c, unordered := false })
  | .locate p =>
    b.withWord p fun a =>
      (.located (if b.collector.isTracked a then b.number? a else none), b)
  | .isMultiRef p => b.withWord p fun a => (.flag (b.collector.isMultiRef a), b)
  | .growth => (.count b.collector.multiRefGrowth, b)
  | .stats => (.stats b.collector.stats, b)
  | .pending =>
    let objects := b.collector.pendingDestructors.filterMap fun (a, kind) =>
      (b.number? a).map (·, kind)
    let sorted := objects.mergeSort fun x y => x.1 ≤ y.1
    (.pending (if b.unordered then sorted else objects), b)

end Bench

end HybridGC
