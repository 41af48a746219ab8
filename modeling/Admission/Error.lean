import Admission.Text.Shape

/-!
# What can go wrong

Three kinds of failure: an engine refuses work, the admission of a request or the settlement of a
lease fails, or work ends otherwise than by completing. The first is the cause of some of the
second, and the third keeps the words of either, since work is told after the fact. Each kind has a
message for people and a shape for a diagnosis.
-/

set_option autoImplicit false
set_option relaxedAutoImplicit false

namespace Admission

open Text (quote Shape.wrapped Shape.record)

/-- Why an engine refuses work, or cannot be built. -/
inductive EngineError where
  /-- There is no room left. -/
  | queueFull
  /-- The engine takes no work any more. -/
  | shutDown
  | invalidConfig (text : String)
  | internal (text : String)
deriving DecidableEq, Inhabited

namespace EngineError

/-- The error in words. -/
def message : EngineError → String
  | queueFull => "task queue is full"
  | shutDown => "pool has been shut down"
  | invalidConfig text => "invalid configuration: " ++ text
  | internal text => "internal error: " ++ text

/-- The error for a diagnosis. -/
def shape : EngineError → String
  | queueFull => "QueueFull"
  | shutDown => "PoolShutdown"
  | invalidConfig text => Text.Shape.wrapped "InvalidConfig" (quote text)
  | internal text => Text.Shape.wrapped "Internal" (quote text)

end EngineError

/-- Why a request, a release or a registration fails. -/
inductive AdmissionError where
  /-- The category has its limit in use. -/
  | rejected (category : String) (active limit : Nat)
  | doubleRelease (category : String) (leaseId : Nat)
  /-- The work was admitted, but the engine refused it. -/
  | engineRejected (category : String) (cause : EngineError)
  | invalidConfig (text : String)
deriving DecidableEq, Inhabited

namespace AdmissionError

/-- The error in words. -/
def message : AdmissionError → String
  | rejected category active limit =>
    s!"admission rejected for category `{category}`: {active} active, limit {limit}"
  | doubleRelease category leaseId => s!"lease {leaseId} in category `{category}` released twice"
  | engineRejected category cause =>
    s!"execution engine rejected work for category `{category}`: " ++ cause.message
  | invalidConfig text => "invalid configuration: " ++ text

/-- The error for a diagnosis. -/
def shape : AdmissionError → String
  | rejected category active limit =>
    Text.Shape.record "Rejected"
      [("category", quote category), ("active", toString active), ("limit", toString limit)]
  | doubleRelease category leaseId =>
    Text.Shape.record "DoubleRelease"
      [("category", quote category), ("lease_id", toString leaseId)]
  | engineRejected category cause =>
    Text.Shape.record "EngineRejected" [("category", quote category), ("source", cause.shape)]
  | invalidConfig text => Text.Shape.wrapped "InvalidConfig" (quote text)

/-- Whether there was no room, in the category or in the engine. -/
def isRejection : AdmissionError → Bool
  | rejected .. | engineRejected .. => true
  | doubleRelease .. | invalidConfig .. => false

/-- The error that this one follows from. -/
def cause? : AdmissionError → Option EngineError
  | engineRejected _ cause => some cause
  | _ => none

end AdmissionError

/-- Why work did not complete. -/
inductive WorkFailure where
  /-- It was not admitted. -/
  | rejected (text : String)
  /-- It was admitted, but the engine refused it. -/
  | engineRejected (text : String)
  /-- It panicked. -/
  | panicked (text : String)
deriving DecidableEq, Inhabited

namespace WorkFailure

/-- The failure in words. -/
def message : WorkFailure → String
  | rejected text => "rejected by admission control: " ++ text
  | engineRejected text => "rejected by execution engine: " ++ text
  | panicked text => "work panicked: " ++ text

/-- The failure for a diagnosis. -/
def shape : WorkFailure → String
  | rejected text => Text.Shape.wrapped "Rejected" (quote text)
  | engineRejected text => Text.Shape.wrapped "EngineRejected" (quote text)
  | panicked text => Text.Shape.wrapped "Panicked" (quote text)

end WorkFailure

end Admission
