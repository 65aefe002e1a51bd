import HybridGC.Collector.Basic
import HybridGC.Roots.Scanner

/-!
# The garbage collector

A collector with its configuration and its source of roots. Clients allocate, count references and
ask for passes. Destructors are the client's, so a pass comes in two halves: opening it decides what
dies and says whose destructors are owed, and closing it, once these have run, frees the dead. A
teardown has the same two halves.

After shutdown every operation leaves the collector as it is, except that its threshold may be set.
-/

namespace HybridGC

/-! ### Configuration -/

/-- The parameters of a collector. -/
structure Config where
  /-- How many zero-count objects make an allocation run a pass. Zero: none do. -/
  collectThreshold : Nat := 500
  /-- The bucket counts of every table. -/
  ladder : Ladder := .standard
  /-- Whether multi-ref cycles are reclaimed. -/
  cycleCollection : Bool := true
  /-- How much the multi-ref table must have grown for an automatic pass to look for cycles. Zero:
  automatic passes never do. -/
  cycleThreshold : Nat := 5000

/-- A collector in use. -/
structure Gc (δ : Type) where
  collector : Collector δ
  config : Config
  scanner : Scanner
  isShutdown : Bool := false

/-- Whether destructors may be running: a pass is open, or the collector has been shut down. -/
def Gc.isBusy {δ : Type} (g : Gc δ) : Bool :=
  g.collector.collecting || g.isShutdown

/-- A pass that has been opened: the cyclic objects it condemned, and the destructors it owes in the
order in which they run. -/
structure Pass (δ : Type) where
  condemned : List UInt64
  pending : List (UInt64 × δ)

namespace Gc

variable {δ : Type}

/-- A collector that tracks nothing. -/
def start (config : Config) (scanner : Scanner) : Gc δ where
  collector := .empty config.ladder
  config := config
  scanner := scanner

/-- Run a computation of the collector inside. -/
def onCollector {α : Type} (act : Faulting (Collector δ) α) : Faulting (Gc δ) α :=
  fun ⟨collector, config, scanner, isShutdown⟩ =>
    match act.run collector with
    | .ok x collector => .ok x ⟨collector, config, scanner, isShutdown⟩
    | .error f collector => .error f ⟨collector, config, scanner, isShutdown⟩

@[simp] theorem run_onCollector {α : Type} (act : Faulting (Collector δ) α) (g : Gc δ) :
    (onCollector act).run g =
      match act.run g.collector with
      | .ok x c => .ok x { g with collector := c }
      | .error f c => .error f { g with collector := c } := rfl

/-- Note a message. -/
def note (m : Message) : Faulting (Gc δ) Unit :=
  onCollector (modify (Collector.note m))

/-! ### Allocation -/

/-- Allocate an object without counted references and track it. Refused after shutdown. -/
def create (alloc : Allocator δ) (size : Nat) (destructor : Option δ) :
    Faulting (Gc δ) (Except GcError UInt64) := do
  if (← get).isShutdown then
    note (.allocationRefused size)
    return .error .shutDown
  match alloc (← get).collector.heap size destructor with
  | .error e => return .error e
  | .ok (a, heap) =>
    onCollector do
      modify fun c => { c with heap }
      Collector.track a
    return .ok a

/-- Whether an allocation has to run a pass. -/
def isDue (g : Gc δ) : Bool :=
  0 < g.config.collectThreshold && !g.collector.collecting
    && g.config.collectThreshold ≤ g.collector.zeroCount.size

/-! ### Reference counts -/

/-- Take a counted reference to an object. Null is ignored, and so is everything after shutdown.
Answers the pointer. -/
def addref (p : UInt64) : Faulting (Gc δ) UInt64 := do
  let g ← get
  if p = 0 || g.isShutdown then return p
  if !g.collector.isTracked p then throw (.addrefUntracked p)
  onCollector do
    let n ← Collector.increment p
    if n = 1 && (← get).heap.state? p = some .zeroCount then Collector.promote p
  return p

/-- Drop a counted reference to an object. Null is ignored, and so is everything after shutdown. -/
def delref (p : UInt64) : Faulting (Gc δ) Unit := do
  let g ← get
  if p = 0 || g.isShutdown then return
  if !g.collector.isTracked p then throw (.delrefUntracked p)
  onCollector do
    let n ← Collector.decrement p
    if n = 0 && (← get).heap.state? p = some .multiRef then Collector.demote p

/-! ### Passes -/

/-- Whether a pass looks for cycles. One asked for always does, an automatic one only after enough
growth, and none if cycles are not collected. -/
def tracesCycles (g : Gc δ) (automatic : Bool) : Bool :=
  g.config.cycleCollection
    && (!automatic || (0 < g.config.cycleThreshold
      && g.config.cycleThreshold ≤ g.collector.multiRefGrowth))

/-- Open a pass with the root words of a scan, keeping a fresh object if one is given, which makes
the pass an automatic one. No pass is opened after shutdown, without a scan, or during another pass.
-/
def openPass (fresh : Option UInt64) (scan : Option (List UInt64)) :
    Faulting (Gc δ) (Option (Pass δ)) := do
  let g ← get
  if g.isShutdown then return none
  match scan with
  | none =>
    note .passSkipped
    return none
  | some roots =>
    if g.collector.collecting then return none
    let tracing := g.tracesCycles fresh.isSome
    onCollector do
      Collector.beginPass
      let _ ← modifyGet (Collector.rescueAll fresh.toList)
      let unused ← modifyGet (Collector.rescueAll roots)
      let c ← get
      let condemned ←
        if tracing then Collector.condemnCycles (unused.filter c.isMultiRef) else pure []
      return some ⟨condemned, (← get).pendingDestructors⟩

/-- Free what the open pass has left in the working table. Answers how many objects were freed. -/
def closePass : Faulting (Gc δ) Nat :=
  onCollector (modifyGet Collector.finishPass)

/-! ### Teardown -/

/-- Shut down and condemn every object. Answers the destructors owed, or nothing if the collector
has been shut down before. -/
def beginTeardown : Faulting (Gc δ) (Option (List (UInt64 × δ))) := do
  if (← get).isShutdown then return none
  modify fun g => { g with isShutdown := true }
  if (← get).collector.collecting then throw .deinitDuringPass
  onCollector do
    Collector.condemnAll
    return some (← get).pendingDestructors

/-- Free every condemned object. -/
def endTeardown : Faulting (Gc δ) Unit :=
  onCollector do
    let swept ← modifyGet Collector.sweep
    modify (Collector.note (.tornDown swept))

/-! ### Configuring -/

/-- Set how many zero-count objects make an allocation run a pass, also after shutdown. -/
def setThreshold (n : Nat) : Faulting (Gc δ) Unit :=
  modify fun g => { g with config := { g.config with collectThreshold := n } }

/-! ### Reading -/

/-- The header of a tracked object. -/
def header? (g : Gc δ) (a : UInt64) : Option (Header δ) :=
  if g.collector.isTracked a then g.collector.heap.header? a else none

/-- The words of a tracked object's payload. -/
def words? (g : Gc δ) (a : UInt64) : Option (List UInt64) :=
  if g.collector.isTracked a then some (g.collector.heap.words a) else none

end Gc

end HybridGC
