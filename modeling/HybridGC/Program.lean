import HybridGC.Client.Session

/-!
# The collector of a process

A process has at most one collector, installed once and torn down when the process ends. Until it is
installed, allocation, collection and questions fail, and the rest does nothing. Calls through the C
boundary answer return codes and null instead of errors, and a fault that reaches the boundary ends
the process at once.
-/

namespace HybridGC

/-- A process: its client, and the collector if one is installed. -/
structure Program where
  client : Client := {}
  /-- What was noted before a collector was installed. -/
  early : Journal := []
  installed : Option (Gc Finalizer) := none

namespace Program

/-- Everything noted. -/
def journal (p : Program) : Journal :=
  match p.installed with
  | none => p.early
  | some g => g.collector.journal ++ p.early

/-- Run a computation on the client with the installed collector. Answers an error if there is none.
-/
def withCollector {α : Type} (act : Act α) : EStateM Stop Program (Except GcError α) :=
  fun p =>
    match p.installed with
    | none => .ok (.error .notInitialized) p
    | some gc =>
      match act.run ⟨p.client, gc⟩ with
      | .ok x ⟨client, gc⟩ => .ok (.ok x) { p with client, installed := some gc }
      | .error stop ⟨client, gc⟩ => .error stop { p with client, installed := some gc }

/-- Install a collector with the standard configuration. Its scanner belongs to the thread. -/
def init (here : Thread) : EStateM Stop Program (Except GcError Unit) := do
  if (← get).installed.isSome then return .error .alreadyInitialized
  modify fun p => { p with installed := some (.start {} (.stack here)) }
  return .ok ()

/-- An error as a way of calling shows it. -/
def refuse (api : Api) (e : GcError) : Answer :=
  if api = .c then .code (.ofError e) else .error e

/-- Run an operation of the client. -/
def onClient {α : Type} (f : Client → α × Client) : EStateM Stop Program α :=
  modifyGet fun p => let (x, client) := f p.client; (x, { p with client })

/-- Answer for the word an operand names where no collector is installed, if it names one. There is
nothing in the heap then. -/
def withWord (p : Operand) (answer : UInt64 → EStateM Stop Program Answer) :
    EStateM Stop Program Answer := do
  match (← get).client.eval? {} none p with
  | none => return .refused
  | some a => answer a

/-- Answer what a call asks for where no collector is installed. -/
def answerAlone (here : Thread) (api : Api) : Op → EStateM Stop Program Answer
  | .init => do
    match ← init here with
    | .ok () => return if api = .c then .code .success else .nothing
    | .error e => return refuse api e
  | .isInitialized => return if api = .c then .count 0 else .flag false
  | .objectCount => return .count 0
  | .alloc size _ n => do
    if api = .c then
      let noted := List.replicate n (Message.allocationFailed size .notInitialized)
      modify fun p => { p with early := noted ++ p.early }
      return .nothing
    return if n = 0 then .nothing else .error .notInitialized
  | .addref p _ => withWord p fun a => return .word a
  | .delref p _ => withWord p fun _ => return .nothing
  | .swapref none _ => return .nothing
  | .swapref (some slot) value =>
    withWord value fun _ => do
      let client := (← get).client
      match (client.place? {} none slot).bind (client.read? {}) with
      | none => return .refused
      | some held => return .word held
  | .collect => return refuse api .notInitialized
  | .deinit => return .nothing
  | .setThreshold _ => return .refused
  | .config | .stats => return .error .notInitialized
  | .query p => withWord p fun _ => return .error .notInitialized
  | .words p | .header p => withWord p fun _ => return .nothing
  | .store .. => return .refused
  | .assign k value => withWord value fun v => onClient (Client.assign k v)
  | .rootAdd p => withWord p fun a => onClient (Client.addRoot a)
  | .rootRemove p => withWord p fun a => onClient (Client.removeRoot a)
  | .rootClear => onClient Client.clearRoots
  | .fail text => throw (.unwinding (.raised text))

/-- Perform a call of the client. -/
def perform (call : Call) : EStateM Stop Program Answer := do
  match ← withCollector (World.request call) with
  | .ok x => return x
  | .error _ => answerAlone (Thread.main.call call.1.spawn) call.1.api call.2

/-! ### Runs -/

/-- What became of a call between two processes. -/
private def reportCall (before after : Program) (answer : Answer) : Step where
  answer := answer
  census := after.installed.map Gc.census
  rounds := (after.client.rounds.take
    (after.client.rounds.length - before.client.rounds.length)).reverse
  messages := Journal.since after.journal before.journal

/-- What a process did: its calls, the teardown at its end, and the fault that ended it if one did.
A fault in a call leaves no teardown. -/
structure Outcome where
  steps : List Step
  exitRounds : List Round := []
  exitMessages : List Message := []
  abort : Option Fault := none

/-- End the process: tear the collector down if one is installed. The teardown lies behind the C
boundary, so a fault in it ends the process where it is met, and the destructor that meets it is
never seen to end. -/
def exit (p : Program) : Outcome :=
  let outcome (p' : Program) (abort : Option Fault) : Outcome :=
    let s := reportCall p p' .nothing
    { steps := [], exitRounds := s.rounds.map Round.completed, exitMessages := s.messages, abort }
  match (withCollector (Host.deinit (World.environment World.runDestructor .main))).run p with
  | .ok _ p' => outcome p' none
  | .error (.unwinding f) p' | .error (.aborting f) p' => outcome p' (some f)

/-- Make calls one after the other and end the process. -/
def run : List Call → Program → Outcome
  | [], p => p.exit
  | call :: calls, p =>
    match (perform call).run p with
    | .error (.aborting f) _ => { steps := [], abort := some f }
    | .error (.unwinding f) p' =>
      let o := run calls p'
      { o with steps := reportCall p p' (.fault f) :: o.steps }
    | .ok x p' =>
      let o := run calls p'
      { o with steps := reportCall p p' x :: o.steps }

end Program

end HybridGC
