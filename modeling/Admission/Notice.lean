import Admission.Category
import Admission.Ledger

/-!
# What a controller tells the outside

Operations of a controller answer to their caller and may besides have something to tell: a peak, a
lost lease, a change of overload. A `Notice` is one such thing, and `logLine` is how it is written
to a log. A change of overload goes to a sink, and only a sink that logs makes a line of it.
-/

set_option autoImplicit false
set_option relaxedAutoImplicit false

namespace Admission

/-- Something worth telling. -/
inductive Notice (R : Type) where
  | peak (sample : PeakSample R)
  /-- A sweep took back a lease that had been held for the given time. -/
  | reclaimed (controller category : String) (leaseId heldFor : Nat) (loss : Ledger.Loss)
  /-- A lease was dropped without release. -/
  | dropped (controller category : String) (leaseId : Nat)
  /-- A lease was released after a sweep had taken it back. -/
  | releasedLate (controller category : String) (leaseId : Nat)
  /-- Work ended after its time was up. -/
  | overran (category : String) (leaseId : Nat)
  | overload (event : OverloadEvent)

/-- How much a line of a log matters. -/
inductive LogLevel where
  | debug
  | info
  | warn
  | error
deriving DecidableEq

/-- The name of a level. -/
def LogLevel.name : LogLevel → String
  | debug => "debug"
  | info => "info"
  | warn => "warn"
  | error => "error"

/-- The value of a field of a line. -/
inductive LogValue (R : Type) where
  | text (value : String)
  | count (value : Nat)
  | number (value : R)

/-- A line of a log. -/
structure LogLine (R : Type) where
  level : LogLevel
  message : String
  fields : List (String × LogValue R)

namespace OverloadEvent

/-- The line of a sink that logs. -/
def logLine (R : Type) (event : OverloadEvent) : LogLine R :=
  let lasted := event.time - event.since
  let common : List (String × LogValue R) :=
    [("controller", .text event.controller), ("category", .text event.category),
     ("active", .count event.active), ("limit", .count event.limit)]
  match event.transition with
  | .entered => ⟨.warn, "category entered overload", common ++ [("normal_for_ms", .count lasted)]⟩
  | .cleared =>
    ⟨.info, "category overload cleared", common ++ [("overloaded_for_ms", .count lasted)]⟩

/-- The line written when a sink fails on the event. -/
def sinkFailure (R : Type) (event : OverloadEvent) : LogLine R :=
  ⟨.error, "overload sink panicked; notification dropped",
    [("category", .text event.category), ("transition", .text event.transition.shape)]⟩

end OverloadEvent

/-- The line of a notice, if it is not left to a sink. -/
def Notice.logLine {R : Type} : Notice R → Option (LogLine R)
  | .peak sample =>
    some ⟨.debug, "peak active sample",
      [("category", .text sample.category), ("peak_active", .count sample.peakActive),
       ("limit", .count sample.limit), ("adjusted_weight", .number sample.adjustedWeight)]⟩
  | .reclaimed controller category leaseId heldFor loss =>
    some ⟨.warn, "reclaimed abandoned lease",
      [("controller", .text controller), ("category", .text category),
       ("lease_id", .count leaseId), ("held_ms", .count heldFor), ("reason", .text loss.message)]⟩
  | .dropped controller category leaseId =>
    some ⟨.warn, "lease dropped without release; slot will be reclaimed",
      [("controller", .text controller), ("category", .text category),
       ("lease_id", .count leaseId)]⟩
  | .releasedLate controller category leaseId =>
    some ⟨.warn, "lease released after the sweep already reclaimed it",
      [("controller", .text controller), ("category", .text category),
       ("lease_id", .count leaseId)]⟩
  | .overran category leaseId =>
    some ⟨.warn, "work finished after its timeout expired",
      [("category", .text category), ("lease_id", .count leaseId)]⟩
  | .overload _ => none

end Admission
