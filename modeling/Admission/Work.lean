import Admission.Engine
import Admission.Time

/-!
# Work and its outcome

Work is run at most once and completed once. `FnWork` is work made of a function: it remembers the
first cause of failure it is told, and completing it sends one outcome to whoever holds the other
end of its mailbox. An outcome can be taken out of the mailbox once.
-/

set_option autoImplicit false
set_option relaxedAutoImplicit false

namespace Admission

/-- What a panic carries. -/
inductive Payload where
  | text (text : String)
  /-- Something that is not a text. -/
  | other
deriving DecidableEq, Inhabited

/-- The panic in words. -/
def Payload.message : Payload → String
  | text words => words
  | other => "non-string panic payload"

/-- How a call of somebody else's code ends. -/
inductive Ending where
  | returned
  | panicked (payload : Payload)
deriving DecidableEq, Inhabited

/-- Where the outcome of work arrives. It holds one outcome at most. -/
structure Mailbox where
  outcome : Option WorkOutcome := none
deriving DecidableEq

namespace Mailbox

instance : Inhabited Mailbox := ⟨{}⟩

/-- Takes the outcome out, if it has arrived. -/
def take (mailbox : Mailbox) : Mailbox × Option WorkOutcome := ({}, mailbox.outcome)

/-- Puts an outcome in. -/
def put (_ : Mailbox) (outcome : WorkOutcome) : Mailbox := ⟨some outcome⟩

end Mailbox

/-- Work made of a function. -/
structure FnWork where
  category : String
  name : Option String := none
  timeout : Option Duration := none
  /-- Whether the function is still to be run. -/
  ready : Bool := true
  failure : Option WorkFailure := none
  /-- Whether an outcome is still to be sent. -/
  reporting : Bool := false
deriving DecidableEq, Inhabited

namespace FnWork

/-- Starts the work. Answers whether the function runs: it does the first time. -/
def run (work : FnWork) : FnWork × Bool := ({ work with ready := false }, work.ready)

/-- Tells the work why it failed. The first cause stays. -/
def markFailed (work : FnWork) (cause : WorkFailure) : FnWork :=
  { work with failure := some (work.failure.getD cause) }

/-- Completes the work. Answers the outcome to send, if one is still to be sent. -/
def complete (work : FnWork) : FnWork × Option WorkOutcome :=
  if work.reporting then
    ({ work with reporting := false, failure := none },
      some (match work.failure with
        | none => .completed
        | some failure => .failed failure))
  else (work, none)

end FnWork

/-- Work made of a function, and the mailbox its outcome arrives in. -/
structure ReportedWork where
  /-- The work, until it is dropped. -/
  work : Option FnWork
  /-- The mailbox, until its holder drops it. -/
  mailbox : Option Mailbox
  /-- How often the function ran. -/
  runs : Nat := 0
deriving DecidableEq, Inhabited

namespace ReportedWork

/-- Runs the work. -/
def run (reported : ReportedWork) : ReportedWork :=
  match reported.work with
  | none => reported
  | some work =>
    let (work, runs) := work.run
    { reported with work := some work, runs := if runs then reported.runs + 1 else reported.runs }

/-- Tells the work why it failed. -/
def markFailed (reported : ReportedWork) (cause : WorkFailure) : ReportedWork :=
  { reported with work := reported.work.map (·.markFailed cause) }

/-- Completes the work, and delivers its outcome if the mailbox is still there. -/
def complete (reported : ReportedWork) : ReportedWork :=
  match reported.work with
  | none => reported
  | some work =>
    let (work, outcome) := work.complete
    { reported with
      work := some work
      mailbox :=
        match outcome with
        | none => reported.mailbox
        | some outcome => reported.mailbox.map (·.put outcome) }

/-- Drops the work. -/
def dropWork (reported : ReportedWork) : ReportedWork := { reported with work := none }

/-- Drops the mailbox. -/
def dropMailbox (reported : ReportedWork) : ReportedWork := { reported with mailbox := none }

/-- Takes the outcome out of the mailbox, if it has arrived. -/
def receive (reported : ReportedWork) : ReportedWork × Option WorkOutcome :=
  match reported.mailbox with
  | none => (reported, none)
  | some mailbox =>
    let (mailbox, outcome) := mailbox.take
    ({ reported with mailbox := some mailbox }, outcome)

end ReportedWork

end Admission
