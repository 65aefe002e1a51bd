/-!
# Errors

What a call can answer in place of its result, and the return codes under which the C boundary
reports it.
-/

namespace HybridGC

/-- Why a call has no result. -/
inductive GcError where
  | notInitialized
  | alreadyInitialized
  | shutDown
  | invalidLayout (size : Nat)
  | allocationFailed (size : Nat)
  | internal (text : String)
deriving DecidableEq

/-- The text of an error. -/
def GcError.message : GcError → String
  | .notInitialized => "Collector is not initialized"
  | .alreadyInitialized => "Collector is already initialized"
  | .shutDown => "Collector has been shut down"
  | .invalidLayout size => s!"Invalid allocation layout for a payload of {size} bytes"
  | .allocationFailed size => s!"Memory allocation failed for a payload of {size} bytes"
  | .internal text => s!"Internal error: {text}"

/-- What the C boundary returns. -/
inductive ReturnCode where
  | success
  | errorAlreadyInitialized
  | errorNotInitialized
  | errorShutDown
  | errorAllocationFailed
  | errorInternal
deriving DecidableEq

namespace ReturnCode

/-- The number of a return code. -/
def toInt : ReturnCode → Int
  | .success => 0
  | .errorAlreadyInitialized => -1
  | .errorNotInitialized => -2
  | .errorShutDown => -3
  | .errorAllocationFailed => -4
  | .errorInternal => -5

/-- The return code of an error. Both ways an allocation can fail share one. -/
def ofError : GcError → ReturnCode
  | .notInitialized => .errorNotInitialized
  | .alreadyInitialized => .errorAlreadyInitialized
  | .shutDown => .errorShutDown
  | .invalidLayout _ | .allocationFailed _ => .errorAllocationFailed
  | .internal _ => .errorInternal

/-- The return code of a result. -/
def ofExcept {α : Type} : Except GcError α → ReturnCode
  | .ok _ => .success
  | .error e => ofError e

end ReturnCode

end HybridGC
