import HybridGC.Client.Perform

/-!
# Sessions

A client makes calls one after the other. A fault ends the call that meets it and not the session.
Each step tells what the call answered, how many objects there are then, which destructors ran and
what was noted.
-/

namespace HybridGC

/-- How many objects a collector has. -/
structure Census where
  zeroCount : Nat
  multiRef : Nat
  tracked : Nat
  isShutdown : Bool

/-- The census of a collector. -/
def Gc.census {δ : Type} (g : Gc δ) : Census where
  zeroCount := g.collector.zeroCount.size
  multiRef := g.collector.multiRef.size
  tracked := g.collector.trackedCount
  isShutdown := g.isShutdown

/-- What became of one call. -/
structure Step where
  answer : Answer
  census : Option Census
  /-- The rounds of destructions during the call, in order. -/
  rounds : List Round
  /-- What was noted during the call, in order. -/
  messages : List Message

namespace World

/-- The world of a new client whose collector has the given configuration and scanner. -/
def start (config : Config) (scanner : Scanner) : World where
  client := {}
  gc := .start config scanner

/-- What became of a call between two worlds. -/
def report (before after : World) (answer : Answer) : Step where
  answer := answer
  census := some after.gc.census
  rounds := (after.client.rounds.take
    (after.client.rounds.length - before.client.rounds.length)).reverse
  messages := Journal.since after.gc.collector.journal before.gc.collector.journal

/-- Run a computation as a step of a session. -/
def step (act : Act Answer) (w : World) : Step × World :=
  match act.run w with
  | .ok x w' => (report w w' x, w')
  | .error (.unwinding f) w' | .error (.aborting f) w' => (report w w' (.fault f), w')

/-- Make calls one after the other. -/
def run : List Call → World → List Step × World
  | [], w => ([], w)
  | call :: calls, w =>
    let (s, w) := step (request call) w
    let (ss, w) := run calls w
    (s :: ss, w)

/-- The end of a session: the collector is torn down. -/
def close (w : World) : Step :=
  (step (do Host.deinit (environment runDestructor .main); return .nothing) w).1

end World

end HybridGC
