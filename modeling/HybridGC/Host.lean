import HybridGC.Gc

/-!
# Collectors at work

A collector works for a client and depends on it: for memory, for the root words of a pass, and to
run the destructors it owes. These may call the collector again, while the pass or the teardown that
runs them is still under way.
-/

namespace HybridGC

/-- What stops a client: a fault that unwinds to whoever catches it, or one that has met the C
boundary and ends the process. -/
inductive Stop where
  | unwinding (f : Fault)
  | aborting (f : Fault)

/-- The memory of a client, with the collector that works for it. -/
structure Host (μ δ : Type) where
  client : μ
  gc : Gc δ

namespace Host

/-- Computations on a host that may stop and then keep their changes. -/
abbrev Act (μ δ : Type) := EStateM Stop (Host μ δ)

variable {μ δ α : Type}

/-- Run a computation of the collector; its faults unwind. -/
def onGc (act : Faulting (Gc δ) α) : Act μ δ α :=
  fun ⟨client, gc⟩ =>
    match act.run gc with
    | .ok x gc => .ok x ⟨client, gc⟩
    | .error f gc => .error (.unwinding f) ⟨client, gc⟩

@[simp] theorem run_onGc (act : Faulting (Gc δ) α) (s : Host μ δ) :
    (onGc act).run s =
      match act.run s.gc with
      | .ok x g => .ok x { s with gc := g }
      | .error f g => .error (.unwinding f) { s with gc := g } := rfl

/-- Run an operation of the client. -/
def onClient (f : μ → α × μ) : Act μ δ α :=
  fun ⟨client, gc⟩ => let (x, client) := f client; .ok x ⟨client, gc⟩

@[simp] theorem run_onClient (f : μ → α × μ) (s : Host μ δ) :
    (onClient f).run s = .ok (f s.client).1 { s with client := (f s.client).2 } := rfl

/-- Change what belongs to the client. -/
def modifyClient (f : μ → μ) : Act μ δ Unit :=
  onClient fun c => ((), f c)

/-! ### What a collector depends on -/

/-- What a collector asks of its client. -/
structure Environment (μ δ : Type) where
  alloc : Allocator δ
  /-- The root words that are reported, or nothing where the scanner cannot scan. -/
  scan : μ → Scanner → Option (List UInt64)
  /-- Told which objects a pass has condemned as cyclic, before any destructor runs. -/
  beginRound : List UInt64 → μ → μ
  destroy : UInt64 → δ → Act μ δ Unit

/-! ### Operations that run destructors -/

/-- Run the destructors a pass or teardown owes, in order. -/
def destroyAll (env : Environment μ δ) (pending : List (UInt64 × δ)) : Act μ δ Unit :=
  pending.forM fun (a, d) => do
    onGc (Gc.note (.destroying a))
    env.destroy a d

/-- Run a pass, keeping a fresh object if one is given. Answers how many objects were freed. -/
def runPass (env : Environment μ δ) (fresh : Option UInt64) : Act μ δ Nat := do
  let s ← get
  match ← onGc (Gc.openPass fresh (env.scan s.client s.gc.scanner)) with
  | none => return 0
  | some pass =>
    modifyClient (env.beginRound pass.condemned)
    destroyAll env pass.pending
    onGc Gc.closePass

/-- Allocate an object, and run a pass if that is due. -/
def allocate (env : Environment μ δ) (size : Nat) (destructor : Option δ) :
    Act μ δ (Except GcError UInt64) := do
  match ← onGc (Gc.create env.alloc size destructor) with
  | .error e => return .error e
  | .ok a =>
    if (← get).gc.isDue then
      let _ ← runPass env (some a)
    return .ok a

/-- Destroy everything and shut down. -/
def deinit (env : Environment μ δ) : Act μ δ Unit := do
  match ← onGc Gc.beginTeardown with
  | none => return
  | some pending =>
    modifyClient (env.beginRound [])
    destroyAll env pending
    onGc Gc.endTeardown

/-! ### Pointers in slots -/

/-- A place that holds a pointer. -/
structure Cell (μ δ : Type) where
  read : Host μ δ → UInt64
  write : UInt64 → Host μ δ → Host μ δ

/-- Store a pointer in a place: take the new reference, store, drop the old one. -/
def swapref (cell : Cell μ δ) (value : UInt64) : Act μ δ Unit := do
  let old := cell.read (← get)
  let new ← onGc (Gc.addref value)
  modify (cell.write new)
  onGc (Gc.delref old)

end Host

end HybridGC
