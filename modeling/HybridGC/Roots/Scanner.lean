import HybridGC.Roots.Bag

/-!
# Root scanners

Where the candidate root words of a pass come from: nowhere, a bag that the client maintains, or the
variables on the stack of one thread. A stack can be read by the thread it belongs to and by no
other.
-/

namespace HybridGC

/-- The thread a call runs on: the main one or some other. No two calls run on the same other. -/
inductive Thread where
  | main
  | spawned
deriving DecidableEq

/-- The thread of a call made on a thread, when the call may be handed to a new one. -/
def Thread.call (here : Thread) (spawn : Bool) : Thread :=
  if spawn then .spawned else here

/-- A source of root words. -/
inductive Scanner where
  /-- Reports nothing. -/
  | noRoots
  /-- Reports the root bag. -/
  | explicit
  /-- Reports the variables on the stack of the thread that made the scanner. -/
  | stack (owner : Thread)
deriving DecidableEq

namespace Scanner

/-- Whether the scanner can scan on a thread. -/
def scannable (s : Scanner) (here : Thread) : Bool :=
  match s with
  | .noRoots | .explicit => true
  | .stack owner => owner = .main && here = .main

/-- The words the scanner reports on a thread, or nothing if it cannot scan there. -/
def scan (s : Scanner) (here : Thread) (bag : RootBag) (vars : List UInt64) :
    Option (List UInt64) :=
  if s.scannable here then
    match s with
    | .noRoots => some []
    | .explicit => some bag.words
    | .stack _ => some vars
  else none

end Scanner

end HybridGC
