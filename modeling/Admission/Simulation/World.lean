import Admission.Simulation.Reply
import Admission.Simulation.Watching

/-!
# The world of a simulation

Everything that the commands of a simulation act on. Controllers stand in a registry; leases granted
to the script have handles; submitted work is numbered and keeps a log; an engine that keeps work
has a place for every piece. Time runs on a clock that the script moves; the watchdog has a time of
its own.
-/

set_option autoImplicit false
set_option relaxedAutoImplicit false

namespace Admission.Simulation

/-- Where changes of overload go. -/
inductive SinkKind where
  /-- To a buffer. -/
  | memory
  /-- To the log. -/
  | log
  /-- To a buffer, after which the sink fails on changes of one kind. -/
  | failingOn (transition : Transition)
deriving DecidableEq, Inhabited

/-- What the engine does. -/
inductive EngineKind where
  | runs
  | refuses (cause : EngineError)
  /-- It keeps work until so many places are taken. -/
  | keeps (capacity : Nat)
deriving DecidableEq, Inhabited

/-- What watches running times. -/
inductive WatchdogKind where
  | none
  /-- Nothing ever expires. -/
  | idle
  /-- Calls are recorded, and nothing ever expires. -/
  | recording
  | timing
deriving DecidableEq, Inhabited

/-- Work that was submitted. -/
structure Submitted (R : Type) where
  kind : WorkKind
  body : List Command
  panicsOn : Option WorkCall
  function : ReportedWork
  log : List (LogEntry R) := []

instance {R : Type} : Inhabited (Submitted R) := ⟨⟨.minimal, [], none, default, []⟩⟩

/-- The state of a simulation. -/
structure World (R : Type) where
  clock : Clock
  store : ConfigStore
  /-- Whether the source sets the weights of single categories. -/
  servesWeights : Bool
  /-- The timings of controllers built by the script. -/
  timings : Timings
  registry : Registry R
  /-- The names of controllers with a source of their own, which never changes. -/
  ownSources : List String := []
  sinkKind : SinkKind
  buffer : EventBuffer OverloadEvent
  /-- The lines of the log, latest first. -/
  log : List (LogLine R) := []
  /-- The leases with handles, each with the name of its controller. -/
  handles : Array (Option (String × Lease)) := #[]
  engineKind : EngineKind
  counters : Counters := {}
  /-- The places for kept work, each with the name of its controller. -/
  kept : Array (Option (String × AdmittedWork Nat)) := #[]
  watchdogKind : WatchdogKind
  watching : Watching := {}
  /-- The calls of the watchdog. -/
  watchCalls : List (String × Duration) := []
  works : Array (Submitted R) := #[]

namespace World

variable {R : Type} [Scalar R]

/-- The present reading of the clock. -/
def now (world : World R) : Nat := world.clock.now

/-- The shared source. -/
def sharedSource (world : World R) : Source :=
  if world.servesWeights then world.store.source else world.store.sourceWithoutWeights

/-- The source of the controller under a name. -/
def source (world : World R) (name : String) : Source :=
  if name ∈ world.ownSources then (default : ConfigStore).source else world.sharedSource

/-! ### Telling -/

/-- Adds a line to the log. -/
def logLine (world : World R) (line : LogLine R) : World R :=
  { world with log := line :: world.log }

/-- Sends a change of overload to the sink. A sink that fails does so after it has stored the event,
and its failure goes to the log. -/
def deliver (world : World R) (event : OverloadEvent) : World R :=
  let stored := { world with buffer := world.buffer.push event }
  match world.sinkKind with
  | .memory => stored
  | .log => world.logLine (event.logLine R)
  | .failingOn transition =>
    if event.transition = transition then stored.logLine (event.sinkFailure R) else stored

/-- Takes note of one thing. -/
def tellOne (world : World R) (notice : Notice R) : World R :=
  match notice with
  | .overload event => world.deliver event
  | notice =>
    match notice.logLine with
    | none => world
    | some line => world.logLine line

/-- Takes note of what there is to tell. -/
def tell (notices : List (Notice R)) (world : World R) : World R := notices.foldl tellOne world

/-! ### Controllers -/

/-- The controller under a name. -/
def controller? (world : World R) (name : String) : Option (Controller R) :=
  world.registry.get? name

/-- The controller under a name that has one. -/
def controller (name : String) (world : World R) : Controller R :=
  (world.controller? name).getD (.build name world.timings (world.source name) world.now)

/-- Puts the controller under a name back after an operation. -/
def setController (name : String) (controller : Controller R) (world : World R) : World R :=
  { world with registry := world.registry.put name controller }

theorem controller_setController (name : String) (controller : Controller R) (world : World R) :
    World.controller name (setController name controller world) = controller := by
  simp [World.controller, controller?, setController, Registry.put, Registry.get?]

theorem controller_tellOne (name : String) (world : World R) (notice : Notice R) :
    World.controller name (world.tellOne notice) = World.controller name world := by
  unfold tellOne
  split
  · unfold deliver
    dsimp only
    split
    · rfl
    · rfl
    · split <;> rfl
  · split <;> rfl

theorem controller_tell (name : String) (notices : List (Notice R)) (world : World R) :
    World.controller name (tell notices world) = World.controller name world := by
  induction notices generalizing world with
  | nil => rfl
  | cons notice rest ih => exact (ih _).trans (controller_tellOne name world notice)

/-- Lets an operation act on the controller under a name. -/
def act {α : Type} (world : World R) (name : String)
    (operation : Controller R → Source → Nat → Outcome R α) : World R × α :=
  let outcome := operation (world.controller name) (world.source name) world.now
  (tell outcome.notices (setController name outcome.controller world), outcome.answer)

/-- The category of a controller, which is created if need be. -/
def openCategory (world : World R) (name category : String) : World R :=
  let (controller, _) :=
    (world.controller name).getCategory (world.source name) world.now category
  setController name controller world

/-- A category that exists, as it is shown. -/
def categoryAt (world : World R) (name : String) (position : Nat) : CategorySnapshot R :=
  (((world.controller name).categories[position]?).getD (.fresh "" 0 world.now)).snapshot

/-- A category, which is created if need be, and the number of leases of its controller. -/
def view (world : World R) (name category : String) : World R × View R :=
  let world := world.openCategory name category
  let controller := world.controller name
  (world,
    { category := world.categoryAt name ((controller.position? category).getD 0)
      totalActive := controller.totals.totalActive })

/-- Asks for a lease. -/
def request (world : World R) (name category : String) : World R × Except AdmissionError Lease :=
  world.act name fun controller source now ↦ controller.request source now category

/-- Releases a lease. -/
def release (world : World R) (name : String) (lease : Lease) :
    World R × Except AdmissionError Nat :=
  world.act name fun controller source now ↦ controller.release source now lease

/-! ### Handles -/

/-- The lease of a handle. -/
def lease? (world : World R) (handle : Nat) : Option (String × Lease) :=
  (world.handles[handle]?).join

/-- Gives a lease a handle. -/
def addHandle (world : World R) (name : String) (lease : Lease) : World R × Nat :=
  ({ world with handles := world.handles.push (some (name, lease)) }, world.handles.size)

/-- Loses a handle. -/
def loseHandle (world : World R) (handle : Nat) : World R :=
  { world with handles := world.handles.modify handle fun _ ↦ none }

/-! ### The watchdog -/

/-- Starts to watch work. -/
def monitor (task : String) (timeout : Duration) (world : World R) : World R × Nat :=
  let (watching, handle) :=
    if world.watchdogKind = .timing then world.watching.monitor task timeout
    else world.watching.detach
  ({ world with watching, watchCalls := world.watchCalls ++ [(task, timeout)] }, handle)

/-- The watchdog as submissions see it. -/
def supervisor (kind : WatchdogKind) : Option (Supervisor (World R)) :=
  if kind = .none then none
  else
    some
      { monitor
        cancel := fun handle world ↦ { world with watching := world.watching.cancel handle }
        expired := fun handle world ↦ (world.watching.handle handle).expired }

/-! ### Work -/

/-- Changes the record of submitted work. -/
def editWork (world : World R) (work : Nat) (edit : Submitted R → Submitted R) : World R :=
  { world with works := world.works.modify work edit }

/-- The record of submitted work. -/
def workAt (world : World R) (work : Nat) : Submitted R := world.works[work]?.getD default

/-- Adds an entry to the log of work. -/
def logWork (world : World R) (work : Nat) (entry : LogEntry R) : World R :=
  world.editWork work fun submitted ↦ { submitted with log := submitted.log ++ [entry] }

/-- Adds an entry to the log of work that logs its calls, which may then panic. -/
def logCall (world : World R) (work : Nat) (call : WorkCall) (entry : LogEntry R) :
    World R × Ending :=
  let submitted := world.workAt work
  if submitted.kind = .logged then
    (world.logWork work entry,
      if submitted.panicsOn = some call then .panicked (.text call.name) else .returned)
  else (world, .returned)

/-- Tells work how it failed. -/
def markFailed (work : Nat) (failure : WorkFailure) (world : World R) : World R × Ending :=
  let world := world.editWork work fun submitted ↦
    { submitted with function := submitted.function.markFailed failure }
  world.logCall work .markFailed (.markedFailed failure)

/-- Completes work. -/
def complete (work : Nat) (world : World R) : World R × Ending :=
  let world := world.editWork work fun submitted ↦
    { submitted with function := submitted.function.complete }
  world.logCall work .complete .completed

/-- Takes the outcome of work out of its mailbox. -/
def takeOutcome (world : World R) (work : Nat) : World R × Option WorkOutcome :=
  let (function, outcome) := (world.workAt work).function.receive
  (world.editWork work fun submitted ↦ { submitted with function }, outcome)

/-- Takes the log of work. -/
def takeLog (world : World R) (work : Nat) : World R × List (LogEntry R) :=
  (world.editWork work fun submitted ↦ { submitted with log := [] }, (world.workAt work).log)

/-! ### The engine -/

/-- The engine as submissions to a controller see it. -/
def engine (name : String) : EngineCode (World R) Nat where
  receive admitted world :=
    match world.engineKind with
    | .runs => (world, .runNow)
    | .refuses cause => (world, .refuse cause)
    | .keeps capacity =>
      if capacity ≤ (world.kept.toList.filter (·.isSome)).length then (world, .refuse .queueFull)
      else ({ world with kept := world.kept.push (some (name, admitted)) }, .keep)
  begin world := { world with counters := world.counters.accept.begin }
  finish outcome world := { world with counters := world.counters.finish outcome }

/-- What the engine shows of itself. An engine that refuses or keeps everything shows nothing. -/
def engineStats (world : World R) : EngineStats :=
  match world.engineKind with
  | .runs => world.counters.inlineStats
  | _ => {}

/-- The site of submissions to a controller; `run` runs the script of work. -/
def site (run : Nat → World R → World R × Ending) (kind : WatchdogKind) (name : String) :
    Site (World R) R Nat where
  controller := controller name
  setController := setController name
  now := now
  source world := world.source name
  tell := tell
  code := { run, markFailed, complete }
  supervisor := supervisor kind
  engine := engine name
  controller_setController := controller_setController name
  controller_tell := controller_tell name

end World

end Admission.Simulation
