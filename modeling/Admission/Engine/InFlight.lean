import Admission.Engine

/-!
# An engine with a bound on work in flight

The engine starts a task for every piece of work it accepts, and each task holds a permit until it
is over. There are as many permits as work may be in flight, at least one, and work that finds none
left is refused rather than queued. A closed engine refuses everything; tasks that it started before
run to their ends.

Callers and tasks run at the same time. An `Event` is one step that the others cannot come between.
-/

set_option autoImplicit false
set_option relaxedAutoImplicit false

namespace Admission

/-- Where a task, or the call that starts it, is. -/
inductive FlightStage where
  /-- The call holds a permit. -/
  | permitted
  /-- The task is started. -/
  | spawned
  | running
  /-- The work has ended, and the task still holds its permit. -/
  | ended
  | over
  /-- The call is about to count its work as refused. -/
  | refusing (cause : EngineError)
  /-- The work has been handed back. -/
  | refused (cause : EngineError)
deriving DecidableEq, Inhabited

/-- A task, or the call that starts it. -/
structure Flight where
  work : Nat
  stage : FlightStage
deriving DecidableEq, Inhabited

/-- The state of the engine. -/
structure InFlight where
  /-- The number of permits there are. -/
  maxInFlight : Nat
  /-- The number of permits that nobody holds. -/
  available : Nat
  isClosed : Bool := false
  counters : Counters := {}
  flights : List Flight := []

namespace InFlight

/-- An engine for the given number of works in flight, or for one if none is asked for. -/
def create (maxInFlight : Nat) : InFlight :=
  { maxInFlight := max maxInFlight 1, available := max maxInFlight 1 }

instance : Inhabited InFlight := ⟨create 1⟩

/-- A step of a call, a task or the engine's owner. Calls and tasks go by their positions. -/
inductive Event where
  /-- Somebody hands in work: it gets a permit or is refused. -/
  | execute (work : Nat)
  /-- The call counts the refusal, or counts the work and starts its task. -/
  | count (task : Nat)
  | begin (task : Nat)
  | finish (task : Nat) (outcome : WorkOutcome)
  /-- The task gives its permit back. -/
  | free (task : Nat)
  | close
deriving DecidableEq, Inhabited

/-- Moves a task to another stage. -/
def setStage (engine : InFlight) (task : Nat) (stage : FlightStage) : InFlight :=
  { engine with flights := engine.flights.modify task fun entry ↦ { entry with stage } }

/-- Adds the task of a call. -/
def enter (engine : InFlight) (work : Nat) (stage : FlightStage) : InFlight :=
  { engine with flights := engine.flights ++ [⟨work, stage⟩] }

/-- The steps of a task. -/
def stepFlight (engine : InFlight) (number : Nat) (flight : Flight) : Event → Option InFlight
  | .count _ =>
    match flight.stage with
    | .permitted =>
      some ({ engine with counters := engine.counters.accept }.setStage number .spawned)
    | .refusing cause =>
      some ({ engine with counters := engine.counters.refuse }.setStage number (.refused cause))
    | _ => none
  | .begin _ =>
    if flight.stage = .spawned then
      some ({ engine with counters := engine.counters.begin }.setStage number .running)
    else none
  | .finish _ outcome =>
    if flight.stage = .running then
      some ({ engine with counters := engine.counters.finish outcome }.setStage number .ended)
    else none
  | .free _ =>
    if flight.stage = .ended then
      some ({ engine with available := engine.available + 1 }.setStage number .over)
    else none
  | _ => none

/-- The state after an event, if the event is possible. A closed engine refuses work before it looks
for a permit. -/
def step (engine : InFlight) (event : Event) : Option InFlight :=
  match event with
  | .execute work =>
    if engine.isClosed then some (engine.enter work (.refusing .shutDown))
    else if engine.available = 0 then some (engine.enter work (.refusing .queueFull))
    else some ({ engine with available := engine.available - 1 }.enter work .permitted)
  | .count number | .begin number | .finish number _ | .free number =>
    (engine.flights[number]?).bind fun flight ↦ engine.stepFlight number flight event
  | .close => some { engine with isClosed := true }

/-- What the engine shows of itself: a work in flight counts as a live worker. -/
def stats (engine : InFlight) : EngineStats :=
  engine.counters.fill
    { queueCapacity := engine.maxInFlight
      liveWorkers := engine.maxInFlight - min engine.available engine.maxInFlight
      maxWorkers := engine.maxInFlight }

/-- The engine for a diagnosis. -/
def shape (engine : InFlight) : String :=
  Text.Shape.openRecord "TokioEngine"
    [("max_in_flight", toString engine.maxInFlight), ("available", toString engine.available)]

end InFlight

end Admission
