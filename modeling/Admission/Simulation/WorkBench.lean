import Admission.Work

/-!
# Trying work made of a function

A script of calls to one piece of work and to the other end of its mailbox.
-/

set_option autoImplicit false
set_option relaxedAutoImplicit false

namespace Admission.Simulation

/-- A line of a script for work. -/
inductive WorkBenchCommand where
  | describe
  | run
  | fail (cause : WorkFailure)
  | complete
  | dropWork
  | dropMailbox
  /-- Takes the outcome, if there is one. -/
  | receive
  | unknown
deriving Inhabited

/-- The answer to a line. -/
inductive WorkBenchReply where
  | none
  | description (category : String) (name : Option String) (timeout : Option Duration)
  | runs (count : Nat)
  | outcome (outcome : Option WorkOutcome)
  | noWork
  | noMailbox
  | unknown
deriving Inhabited

namespace WorkBench

/-- Work as it is set up. -/
def start (category : String) (name : Option String) (timeout : Option Duration)
    (reporting : Bool) : ReportedWork where
  work := some { category, name, timeout, reporting }
  mailbox := if reporting then some {} else none

/-- Answers a command for the work, if it is still there. -/
def withWork (reported : ReportedWork) (obey : FnWork → ReportedWork × WorkBenchReply) :
    ReportedWork × WorkBenchReply :=
  match reported.work with
  | none => (reported, .noWork)
  | some work => obey work

/-- Obeys a command. -/
def obey (reported : ReportedWork) : WorkBenchCommand → ReportedWork × WorkBenchReply
  | .describe =>
    withWork reported fun work ↦ (reported, .description work.category work.name work.timeout)
  | .run => withWork reported fun _ ↦ (reported.run, .runs reported.run.runs)
  | .fail cause => withWork reported fun _ ↦ (reported.markFailed cause, .none)
  | .complete => withWork reported fun _ ↦ (reported.complete, .none)
  | .dropWork => withWork reported fun _ ↦ (reported.dropWork, .none)
  | .dropMailbox => (reported.dropMailbox, .none)
  | .receive =>
    if reported.mailbox.isNone then (reported, .noMailbox)
    else
      let (reported, outcome) := reported.receive
      (reported, .outcome outcome)
  | .unknown => withWork reported fun _ ↦ (reported, .unknown)

/-- Obeys the commands of a script in turn. -/
def run : List WorkBenchCommand → ReportedWork → List WorkBenchReply
  | [], _ => []
  | command :: script, reported =>
    let (reported, reply) := obey reported command
    reply :: run script reported

end WorkBench

end Admission.Simulation
