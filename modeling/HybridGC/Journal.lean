import HybridGC.Error
import HybridGC.Word

/-!
# The journal

Operations note what they do as typed messages, each of one severity. A journal holds the newest
message first and is never cut; what a step noted is the part that was not there before.
-/

namespace HybridGC

/-- How severe a message is. -/
inductive Severity where
  | error
  | warn
  | debug
  | trace
deriving DecidableEq

namespace Severity

/-- The name that stands before a message. -/
def label : Severity → String
  | .error => "ERROR"
  | .warn => "WARN"
  | .debug => "DEBUG"
  | .trace => "TRACE"

/-- The most severe comes first. -/
def rank : Severity → Nat
  | .error => 0
  | .warn => 1
  | .debug => 2
  | .trace => 3

end Severity

/-- What an operation notes. -/
inductive Message where
  | rehashing (entries buckets : Nat)
  | passBegun (zeroCount multiRef : Nat)
  | passFinished (zeroCount multiRef rescued swept : Nat)
  | cyclesCondemned (objects : Nat)
  | destroying (address : UInt64)
  | freeing (address : UInt64)
  | tornDown (objects : Nat)
  | passSkipped
  | allocationRefused (size : Nat)
  | allocationFailed (size : Nat) (cause : GcError)
deriving DecidableEq

namespace Message

/-- How severe a message is. -/
def severity : Message → Severity
  | .rehashing .. | .destroying _ | .freeing _ => .trace
  | .passBegun .. | .passFinished .. | .cyclesCondemned _ | .tornDown _ => .debug
  | .passSkipped | .allocationRefused _ => .warn
  | .allocationFailed .. => .error

/-- The text of a message. -/
def text : Message → String
  | .rehashing entries buckets => s!"rehashing {entries} entries into {buckets} buckets"
  | .passBegun z m => s!"BEFORE - ZCT: {z} MRT: {m} TOT: {z + m}"
  | .passFinished z m rescued swept =>
    s!"AFTER - ZCT: {z} MRT: {m} TOT: {z + m} (rescued {rescued}, swept {swept})"
  | .cyclesCondemned n => s!"condemned {n} cyclic multi-ref objects"
  | .destroying a => s!"destroying {hex a}"
  | .freeing a => s!"freeing {hex a}"
  | .tornDown n => s!"teardown released {n} objects"
  | .passSkipped => "collection skipped: root scanner is bound to another thread"
  | .allocationRefused size => s!"allocation of {size} bytes refused after shutdown"
  | .allocationFailed size cause => s!"gc_alloc({size}) failed: {cause.message}"

/-- The line of a message: its severity and its text. -/
def line (m : Message) : String :=
  m.severity.label ++ " " ++ m.text

end Message

/-- Messages, the newest first. -/
abbrev Journal := List Message

namespace Journal

/-- What a journal holds beyond an earlier state of it, the oldest first. -/
def since (now before : Journal) : List Message :=
  (now.take (now.length - before.length)).reverse

/-- The lines of the messages at least as severe as a threshold. -/
def lines (threshold : Severity) (ms : List Message) : List String :=
  (ms.filter fun m => m.severity.rank ≤ threshold.rank).map Message.line

end Journal

end HybridGC
