import HybridGC.Word

/-!
# Faults

A fault is a violated invariant. It stops the call that meets it, and the changes the call has made
so far stay.
-/

namespace HybridGC

/-- What an operation stops at. -/
inductive Fault where
  /-- A ladder of bucket counts that is empty or has a zero. -/
  | badLadder
  /-- A reference count that is at the largest word already. -/
  | countOverflow
  /-- A reference count that is zero already. -/
  | countUnderflow
  | addrefUntracked (address : UInt64)
  | delrefUntracked (address : UInt64)
  | trackedTwice (address : UInt64)
  | missingFromPartition (address : UInt64)
  | inTwoPartitions (address : UInt64)
  /-- Found while everything is condemned. -/
  | condemnedTwice
  | passInProgress
  /-- A pass begins while the working table holds entries. -/
  | workingNotEmpty
  | deinitDuringPass
  /-- Raised by the client itself. -/
  | raised (text : String)
deriving DecidableEq

/-- The text of a fault. -/
def Fault.message : Fault → String
  | .badLadder => "bucket prime sequence must be non-empty and positive"
  | .countOverflow => "attempt to add with overflow"
  | .countUnderflow => "reference count underflow"
  | .addrefUntracked a => s!"addref of untracked pointer {hex a}"
  | .delrefUntracked a => s!"delref of untracked pointer {hex a}"
  | .trackedTwice a => s!"object {hex a} tracked twice"
  | .missingFromPartition a => s!"object {hex a} missing from its partition"
  | .inTwoPartitions a => s!"object {hex a} present in two partitions"
  | .condemnedTwice => "object present in two partitions"
  | .passInProgress => "collection already in progress"
  | .workingNotEmpty => "assertion failed: self.working.is_empty()"
  | .deinitDuringPass => "deinit called during a collection pass"
  | .raised text => text

end HybridGC
