import Admission.Config
import Admission.Time
import Admission.Work

/-!
# Commands of a simulation

A simulation plays a script against controllers that share a clock, a configuration, a sink, an
engine and a watchdog. A `Command` is one line of the script. Submitted work has a script of its
own, which is played when the work runs.
-/

set_option autoImplicit false
set_option relaxedAutoImplicit false

namespace Admission.Simulation

/-- What kind of work is submitted. -/
inductive WorkKind where
  /-- Work made of a function, with a mailbox for its outcome. -/
  | function
  /-- Work that logs every call of its code. -/
  | logged
  /-- Work without a name, a timeout or an ear for its outcome. -/
  | minimal
deriving DecidableEq, Inhabited

/-- A call of the code of logged work. -/
inductive WorkCall where
  | run
  | markFailed
  | complete
deriving DecidableEq, Inhabited

/-- The name of a call. -/
def WorkCall.name : WorkCall → String
  | run => "run"
  | markFailed => "mark_failed"
  | complete => "complete"

/-- A change of the settings of a controller. -/
abbrev SettingsEdit := ControllerSettings → ControllerSettings

/-- A line of a script. Controllers and categories go by name, leases by handle, and work by the
order in which it was submitted or kept. -/
inductive Command where
  | advance (millis : Nat)
  | setClock (reading : Nat)
  | openCategory (controller category : String)
  | find (controller category : String)
  | listCategories (controller : String)
  | request (controller category : String)
  /-- Admits until a request is refused or there have been so many grants. -/
  | fill (controller category : String) (most : Nat)
  /-- Admits so many times, holds every lease for a while, and waits after each. -/
  | cycle (controller category : String) (times hold gap : Nat)
  /-- Releases every lease of a category that has a handle. -/
  | drain (controller category : String)
  | release (handle : Nat)
  | drop (handle : Nat)
  /-- Loses the handle without dropping the lease. -/
  | forget (handle : Nat)
  | heartbeat (handle : Nat)
  | inspectLease (handle : Nat)
  | reconcile (controller : String)
  | reconcileAll
  /-- Sweeps all controllers until they hold so many leases. -/
  | supervise (untilActive : Nat)
  | refresh (controller : String)
  | inspectController (controller : String)
  | snapshot (controller : String)
  | snapshots
  | setController (controller : String) (settings : ControllerSettings)
  | setWeight (controller category : String) (weight : Nat)
  | editController (controller : String) (edit : SettingsEdit)
  | removeController (controller : String)
  | inspectSource (controller category : String)
  | events
  | health
  | report (generatedAt : Nat) (withEngine : Bool)
  | ids
  | listControllers
  | get (controller : String)
  /-- Builds and registers a controller, with a source of its own or the shared one. -/
  | register (id : String) (ownSource : Bool)
  | getOrInsert (name id : String)
  | submit (controller category : String) (kind : WorkKind) (name : Option String)
      (timeout : Option Duration) (body : List Command) (panicsOn : Option WorkCall)
  | inspectSubmitter (controller : String)
  | engineStats
  | inspectKept (position : Nat)
  | runKept (position : Nat)
  | dropKept (position : Nat)
  | inspectWork (work : Nat)
  | watched
  | awaitFired (count : Nat)
  /-- Panics; possible only in the script of work. -/
  | panic (payload : Payload)
  /-- A line that cannot be read. -/
  | malformed
  | unknown
deriving Inhabited

mutual

/-- The number of lines of a command, those of submitted work included. -/
def Command.size : Command → Nat
  | .submit _ _ _ _ _ body _ => Command.sizes body + 1
  | _ => 1

/-- The number of lines of a script. -/
def Command.sizes : List Command → Nat
  | [] => 0
  | command :: script => command.size + Command.sizes script

end

end Admission.Simulation
