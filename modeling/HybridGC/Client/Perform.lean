import HybridGC.Client.World

/-!
# Performing calls

Calls are performed on a world. A pass or a teardown runs destructors, whose scripts are calls
again. While destructors run, the collector is in a pass or shut down, so the calls they make never
run destructors in turn: how calls run destructors is therefore a parameter, and for the calls of a
script one that does nothing is as good as any (`HybridGC.Client.Busy`).
-/

namespace HybridGC

namespace World

open Host

/-- How the destructor of an object is run on a thread. -/
abbrev Destroy := Thread → UInt64 → Finalizer → Act Unit

/-- What a collector asks of a client on a thread whose destructors run in a given way. -/
def environment (destroy : Destroy) (here : Thread) : Environment Client Finalizer where
  alloc := Heap.allocate
  scan c scanner := scanner.scan here c.bag c.vars.toList
  beginRound := Client.beginRound
  destroy := destroy here

/-! ### Calls -/

/-- Repeat a computation and answer as it does the last time. -/
def times (act : Act Answer) : Nat → Act Answer
  | 0 => return .nothing
  | 1 => act
  | n + 1 => do
    let _ ← act
    times act n

/-- Allocate an object under the next number. A number whose allocation fails is given back. At the
C boundary the cause is only noted. -/
def create (destroy : Destroy) (here : Thread) (api : Api) (size : Nat)
    (destructor : Option (DestructorKind × List Call)) : Act Answer := do
  let n ← reserve
  let accepted := destructor.filter fun d => api ≠ .c || d.1 = .foreign
  let finalizer := accepted.map fun (kind, script) => ⟨n, kind, script⟩
  match ← allocate (environment destroy here) size finalizer with
  | .ok a =>
    enter n a
    return .object n a
  | .error e =>
    release
    if api = .c then
      onGc (Gc.note (.allocationFailed size e))
      return .nothing
    return .error e

/-- Answer for the word an operand names, if it names one. -/
def withWord (self : Option UInt64) (p : Operand) (answer : UInt64 → Act Answer) : Act Answer := do
  match eval? (← get) self p with
  | none => return .refused
  | some a => answer a

/-- Answer what a call asks for. -/
def answer (destroy : Destroy) (here : Thread) (self : Option UInt64) (api : Api) :
    Op → Act Answer
  | .init =>
    return if api = .c then .code (.ofError .alreadyInitialized) else .error .alreadyInitialized
  | .isInitialized => return if api = .c then .count 1 else .flag true
  | .objectCount => return .count (← get).gc.collector.trackedCount
  | .alloc size destructor n => times (create destroy here api size destructor) n
  | .addref p n =>
    withWord self p fun a => do
      let _ ← times (do return .word (← onGc (Gc.addref a))) n
      return .word a
  | .delref p n =>
    withWord self p fun a =>
      times (do onGc (Gc.delref a); return .nothing) n
  | .swapref none _ => return .nothing
  | .swapref (some slot) value =>
    withWord self value fun v => do
      match place? (← get) self slot with
      | none => return .refused
      | some p =>
        if (read? (← get) p).isNone then return .refused
        swapref (cell p) v
        return .word ((read? (← get) p).getD 0)
  | .collect => do
    let freed ← runPass (environment destroy here) none
    return if api = .c then .code .success else .count freed
  | .deinit => do
    deinit (environment destroy here)
    return .nothing
  | .setThreshold n => do
    if api ≠ .direct then return .refused
    withWord self n fun v => do
      onGc (Gc.setThreshold v.toNat)
      return .nothing
  | .config => return .config (← get).gc.config
  | .stats => return .stats (← get).gc.collector.stats
  | .store p offset value =>
    withWord self p fun a =>
      withWord self value fun v => do
        match write? (← get) v (.cell a offset) with
        | none => return .refused
        | some w =>
          set w
          return .nothing
  | .assign k value => withWord self value fun v => onClient (Client.assign k v)
  | .words p =>
    withWord self p fun a => do
      match (← get).gc.words? a with
      | none => return .nothing
      | some ws => return .words ws
  | .header p =>
    withWord self p fun a => do
      match (← get).gc.header? a with
      | none => return .nothing
      | some h => return .header h.size h.refs h.state (h.destructor.map (·.kind))
  | .query p =>
    withWord self p fun a => do
      let g := (← get).gc
      return .query (g.collector.isTracked a) ((g.header? a).map fun h => (h.state, h.refs))
  | .rootAdd p => withWord self p fun a => onClient (Client.addRoot a)
  | .rootRemove p => withWord self p fun a => onClient (Client.removeRoot a)
  | .rootClear => onClient Client.clearRoots
  | .fail text => throw (.unwinding (.raised text))

/-- Whether a call passes through the C boundary, where a fault ends the process. -/
def crossesBoundary (api : Api) : Op → Bool
  | .init | .isInitialized | .objectCount | .alloc .. | .addref .. | .delref .. | .swapref ..
  | .collect | .deinit => api = .c
  | _ => false

/-- Let no fault of a computation unwind further. -/
def abortOnFault {α : Type} (act : Act α) : Act α := fun w =>
  match act.run w with
  | .ok x w => .ok x w
  | .error (.unwinding f) w | .error (.aborting f) w => .error (.aborting f) w

/-- Perform a call on a thread. -/
def perform (destroy : Destroy) (here : Thread) (self : Option UInt64) (call : Call) :
    Act Answer :=
  let (manner, op) := call
  let act := answer destroy (here.call manner.spawn) self manner.api op
  if crossesBoundary manner.api op then abortOnFault act else act

/-! ### Destructors -/

/-- Perform the calls of a script until one stops. Answers what the calls answered and what stopped
the script. -/
def runScript (here : Thread) (self : UInt64) :
    List Call → World → (List Answer × Option Stop) × World
  | [], w => (([], none), w)
  | call :: rest, w =>
    match (perform (fun _ _ _ => pure ()) here (some self) call).run w with
    | .error stop w => (([], some stop), w)
    | .ok x w =>
      let ((xs, stop), w) := runScript here self rest w
      ((x :: xs, stop), w)

/-- What becomes of the fault that ends a script: a foreign destructor catches it and answers it, a
native one lets it unwind. Nothing catches the end of the program. -/
def afterScript (kind : DestructorKind) : Option Stop → List Answer × Option Stop
  | some (.unwinding f) =>
    match kind with
    | .foreign => ([.fault f], none)
    | .native => ([], some (.unwinding f))
  | stop => ([], stop)

/-- Record a destruction and stop if there is something to stop at. -/
def recordAndStop (d : Destruction) (stop : Option Stop) : Act Unit := do
  record d
  match stop with
  | none => return
  | some stop => throw stop

/-- Run the destructor of an object and record the destruction, with the count and the state that
the object had before. -/
def runDestructor : Destroy := fun here a f w =>
  let header := w.gc.collector.heap.header? a
  let refs := (header.map fun h => h.refs).getD 0
  let state := (header.map fun h => h.state).getD .working
  let ((answers, stop), w) := runScript here a f.script w
  let (caught, stop) := afterScript f.kind stop
  (recordAndStop ⟨f.object, a, f.kind, refs, state, answers ++ caught, stop.isNone⟩ stop).run w

/-- Perform a call of the client itself, on the main thread or one it is handed to. -/
def request (call : Call) : Act Answer :=
  perform runDestructor .main none call

end World

end HybridGC
