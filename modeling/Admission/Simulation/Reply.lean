import Admission.Report
import Admission.Simulation.Command
import Admission.Submission
import Admission.Watchdog

/-!
# Replies of a simulation

What the commands of a simulation are answered with. Work logs its calls, and the replies to the
commands of its script, so a reply can contain others.
-/

set_option autoImplicit false
set_option relaxedAutoImplicit false

namespace Admission.Simulation

/-- Why a command cannot be obeyed. -/
inductive Refusal where
  | noLease
  | noController
  | noWork
  | noKeptWork
  | malformedCommand
  | unknownCommand
deriving DecidableEq, Inhabited

/-- A category and the number of leases that its controller holds. -/
structure View (R : Type) where
  category : CategorySnapshot R
  totalActive : Nat

/-- A call of the watchdog, and what its handle shows. -/
structure WatchCall where
  task : String
  timeout : Duration
  watch : Watch
deriving Inhabited

mutual

/-- The answer to a command. -/
inductive Reply (R : Type) where
  | none
  | refusal (reason : Refusal)
  | count (value : Nat)
  | text? (value : Option String)
  | texts (values : List String)
  | category? (category : Option (CategorySnapshot R))
  /-- A category with its controller, in plain and for a diagnosis. -/
  | opened (controller shape : String) (category : CategorySnapshot R)
  | admitted (result : Except AdmissionError (Nat × Lease)) (view : View R)
  | filled (granted : Nat) (refused : Option AdmissionError) (view : View R)
  | cycled (granted refused : Nat) (view : View R)
  | drained (held : List Nat) (view : View R)
  | released (result : Except AdmissionError Nat) (category : CategorySnapshot R)
  | lease (lease : Lease) (controller category : String) (elapsed : Nat) (phase : Phase)
  | reconciled (reclaimed totalActive : Nat)
  | controller (id shape : String) (settings : ControllerSettings) (totalActive : Nat)
  | snapshot (snapshot : ControllerSnapshot R)
  | snapshots (snapshots : List (ControllerSnapshot R))
  | source (settings : VersionedSettings) (weight : Option Nat) (config : AdmissionConfig)
  | events (events : List OverloadEvent)
  | health (health : Health)
  | report (report : AdminReport R)
  | registered (result : Except AdmissionError Unit)
  | inserted (id : String) (made : Bool)
  | submitted (result : Except AdmissionError Nat) (work : Nat) (log : List (LogEntry R))
      (outcome : Option WorkOutcome) (view : View R)
  | submitter (controller : String) (stats : EngineStats) (watched : Bool)
  | stats (stats : EngineStats)
  | kept (work : AdmittedWork Nat)
  | ran (outcome : WorkOutcome)
  | work (log : List (LogEntry R)) (outcome : Option WorkOutcome)
  | watched (calls : List WatchCall)

/-- What work logs. -/
inductive LogEntry (R : Type) where
  | ran
  | markedFailed (failure : WorkFailure)
  | completed
  | step (reply : Reply R)

end

instance {R : Type} : Inhabited (Reply R) := ⟨.none⟩

end Admission.Simulation
