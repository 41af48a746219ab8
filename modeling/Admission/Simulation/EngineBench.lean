import Admission.Controller.Snapshot
import Admission.Engine.InFlight
import Admission.Pool
import Admission.Simulation.Reply

/-!
# Trying an engine

One controller whose work runs on an engine with workers of its own. The work is made of functions
that may wait at a gate before they return or panic.

The workers run on while the script goes from command to command: every step is made that can be
made, which is one of the orders that the engine's events allow. Only between two submissions in a
row nobody moves, as a script submits faster than a worker wakes. A burst worker gives up only when
the script waits for something that nothing else brings about.
-/

set_option autoImplicit false
set_option relaxedAutoImplicit false

namespace Admission.Simulation

/-! ### Engines at work -/

/-- An engine with workers of its own. -/
inductive BusyEngine where
  | workers (pool : Pool)
  | tasks (engine : InFlight)

/-- What can happen next in an engine. -/
inductive Progress where
  /-- It makes a step by itself. -/
  | moved (engine : BusyEngine)
  /-- One of its workers runs work. -/
  | runs (worker work : Nat)

namespace BusyEngine

instance : Inhabited BusyEngine := ⟨.workers default⟩

/-- A pool after the events that are possible. -/
def followPool (pool : Pool) (events : List Pool.Event) : Pool :=
  events.foldl (fun pool event ↦ (pool.step event).getD pool) pool

/-- An engine with a bound after the events that are possible. -/
def followInFlight (engine : InFlight) (events : List InFlight.Event) : InFlight :=
  events.foldl (fun engine event ↦ (engine.step event).getD engine) engine

/-- Hands work to the engine. Answers why it is refused, if it is. -/
def receive (work : Nat) : BusyEngine → BusyEngine × Option EngineError
  | .workers before =>
    let number := before.calls.length
    let after := followPool before
      [.call work, .send number, .count number, .look number, .reserve number]
    (.workers after,
      match after.calls[number]? with
      | some ⟨_, .refused cause⟩ => some cause
      | _ => none)
  | .tasks before =>
    let number := before.flights.length
    let after := followInFlight before [.execute work, .count number]
    (.tasks after,
      match after.flights[number]? with
      | some ⟨_, .refused cause⟩ => some cause
      | _ => none)

/-- What a worker of a pool can do next; `isReady` says which work need not wait. -/
def workerProgress? (isReady : Nat → Bool) (pool : Pool) (worker : Worker) (number : Nat) :
    Option Progress :=
  let step (event : Pool.Event) : Option Progress :=
    (pool.step event).map fun pool ↦ .moved (.workers pool)
  match worker.stage with
  | .starting => step (.await number)
  | .waiting => step (.receive number) <|> step (.close number)
  | .received _ | .quitting => step (.rouse number)
  | .holding _ => step (.begin number)
  | .running work => if isReady work then some (.runs number work) else none
  | .leaving => step (.leave number)
  | .gone => none

/-- What a task can do next. -/
def flightProgress? (isReady : Nat → Bool) (engine : InFlight) (flight : Flight) (number : Nat) :
    Option Progress :=
  let step (event : InFlight.Event) : Option Progress :=
    (engine.step event).map fun engine ↦ .moved (.tasks engine)
  match flight.stage with
  | .spawned => step (.begin number)
  | .running => if isReady flight.work then some (.runs number flight.work) else none
  | .ended => step (.free number)
  | _ => none

/-- What can happen next. -/
def progress? (isReady : Nat → Bool) : BusyEngine → Option Progress
  | .workers pool =>
    pool.workers.zipIdx.findSome? fun entry ↦ workerProgress? isReady pool entry.1 entry.2
  | .tasks engine =>
    engine.flights.zipIdx.findSome? fun entry ↦ flightProgress? isReady engine entry.1 entry.2

/-- More steps than can be made in a row without another command. -/
def patience : BusyEngine → Nat
  | .workers pool => 8 * (pool.queue.length + pool.workers.length + 1)
  | .tasks engine => 8 * (engine.flights.length + 1)

/-- The work of a worker has ended. -/
def finish (worker : Nat) (outcome : WorkOutcome) : BusyEngine → BusyEngine
  | .workers pool => .workers (followPool pool [.finish worker outcome])
  | .tasks engine => .tasks (followInFlight engine [.finish worker outcome])

/-- The engine after the first burst worker without work has given up waiting. -/
def retire? : BusyEngine → Option BusyEngine
  | .workers pool =>
    (List.range pool.workers.length).findSome? fun number ↦
      (pool.step (.expire number)).map .workers
  | .tasks _ => none

/-- Takes no more work. -/
def shutDown : BusyEngine → BusyEngine
  | .workers pool => .workers (followPool pool [.shutDown, .closeQueue])
  | .tasks engine => .tasks (followInFlight engine [.close])

/-- What the engine shows of itself. -/
def stats : BusyEngine → EngineStats
  | .workers pool => pool.stats
  | .tasks engine => engine.stats

/-- The engine for a diagnosis. -/
def shape : BusyEngine → String
  | .workers pool => pool.shape
  | .tasks engine => engine.shape

/-- The configuration of a pool. -/
def config? : BusyEngine → Option PoolConfig
  | .workers pool => some pool.config
  | .tasks _ => none

end BusyEngine

/-! ### The bench -/

/-- Work made of a function. -/
structure GatedWork where
  /-- Whether the function waits. -/
  gated : Bool
  /-- The words it panics with. -/
  panics : Option String
  function : ReportedWork
  /-- The work with its lease, as the engine keeps it. -/
  admitted : Option (AdmittedWork Nat) := none

instance : Inhabited GatedWork := ⟨{ gated := false, panics := none, function := default }⟩

/-- A controller and the engine under trial. -/
structure EngineBench (R : Type) where
  clock : Clock
  store : ConfigStore
  controller : Controller R
  engine : BusyEngine
  works : Array GatedWork := #[]

/-- The engine to try. -/
inductive BenchEngine where
  | workers (config : PoolConfig)
  | tasks (maxInFlight : Nat)
  /-- An engine that has nothing to start its tasks with. -/
  | unsupported
deriving Inhabited

/-- A line of a script for an engine. -/
inductive EngineBenchCommand where
  | submit (category : String) (gated : Bool) (panics : Option String)
  | awaitStarted (work : Nat)
  | openGate (work : Nat)
  | awaitOutcome (work : Nat)
  /-- Waits until the named statistics have these values. -/
  | awaitStats (values : List (String × Nat))
  | stats
  | config
  | shutDown
  | advance (millis : Nat)
  | inspectCategory (category : String)
  | totalActive
  | diagnose
  | unknown
deriving Inhabited

/-- The answer to a line. -/
inductive EngineBenchReply (R : Type) where
  | none
  | done
  | refusal (reason : Refusal)
  | submitted (result : Except AdmissionError Nat) (work : Nat)
  | outcome (outcome : Option WorkOutcome)
  | stats (stats : EngineStats)
  | config (config : Option PoolConfig)
  | category (category : CategorySnapshot R)
  | count (value : Nat)
  | shape (text : String)

instance {R : Type} : Inhabited (EngineBenchReply R) := ⟨.none⟩

namespace EngineBench

variable {R : Type} [Scalar R]

/-- Changes one piece of work. -/
def editWork (bench : EngineBench R) (work : Nat) (edit : GatedWork → GatedWork) : EngineBench R :=
  { bench with works := bench.works.modify work edit }

/-- Changes the function of one piece of work. -/
def editFunction (work : Nat) (edit : ReportedWork → ReportedWork) (bench : EngineBench R) :
    EngineBench R :=
  bench.editWork work fun entry ↦ { entry with function := edit entry.function }

/-- Runs the function of work. -/
def runFunction (work : Nat) (bench : EngineBench R) : EngineBench R × Ending :=
  let panics := (bench.works[work]?).bind (·.panics)
  (bench.editFunction work (·.run),
    match panics with
    | none => .returned
    | some words => .panicked (.text words))

/-- The site of submissions. -/
def site : Site (EngineBench R) R Nat where
  controller := controller
  setController controller bench := { bench with controller }
  now bench := bench.clock.now
  source bench := bench.store.source
  tell _ bench := bench
  code :=
    { run := runFunction
      markFailed := fun work cause bench ↦ (bench.editFunction work (·.markFailed cause), .returned)
      complete := fun work bench ↦ (bench.editFunction work (·.complete), .returned) }
  supervisor := none
  engine :=
    { receive := fun admitted bench ↦
        let (engine, refusal) := bench.engine.receive admitted.work
        let bench := { bench with engine }
        match refusal with
        | some cause => (bench, .refuse cause)
        | none =>
          (bench.editWork admitted.work fun entry ↦ { entry with admitted := some admitted }, .keep)
      begin := id
      finish := fun _ bench ↦ bench }
  controller_setController _ _ := rfl
  controller_tell _ _ := rfl

/-- Whether nothing holds work up. -/
def isReady (bench : EngineBench R) (work : Nat) : Bool :=
  match bench.works[work]? with
  | none => false
  | some entry => !entry.gated

/-- Makes the steps that can be made, up to a number. -/
def settleWithin : Nat → EngineBench R → EngineBench R
  | 0, bench => bench
  | steps + 1, bench =>
    match bench.engine.progress? bench.isReady with
    | none => bench
    | some (.moved engine) => settleWithin steps { bench with engine }
    | some (.runs worker work) =>
      match (bench.works[work]?).bind (·.admitted) with
      | none => bench
      | some admitted =>
        let (bench, outcome) := site.run admitted bench
        settleWithin steps { bench with engine := bench.engine.finish worker outcome }

/-- Makes every step that can be made. -/
def settle (bench : EngineBench R) : EngineBench R := settleWithin bench.engine.patience bench

/-- Whether the named statistics have these values. -/
def hasStats (bench : EngineBench R) (values : List (String × Nat)) : Bool :=
  values.all fun value ↦ bench.engine.stats.entries.lookup value.1 = some value.2

/-- Lets burst workers give up, a number of them at most, until the statistics have these values. -/
def awaitStatsWithin (values : List (String × Nat)) : Nat → EngineBench R → EngineBench R
  | 0, bench => bench
  | workers + 1, bench =>
    if bench.hasStats values then bench
    else
      match bench.engine.retire? with
      | none => bench
      | some engine => awaitStatsWithin values workers (settle { bench with engine })

/-- Waits for statistics. -/
def awaitStats (bench : EngineBench R) (values : List (String × Nat)) : EngineBench R :=
  awaitStatsWithin values bench.engine.stats.liveWorkers bench

/-- Answers a command about work, if there is such work. -/
def withWork (bench : EngineBench R) (work : Nat)
    (obey : EngineBench R × EngineBenchReply R) : EngineBench R × EngineBenchReply R :=
  if work < bench.works.size then obey else (bench, .refusal .noWork)

/-- Submits new work. -/
def submit (bench : EngineBench R) (category : String) (gated : Bool) (panics : Option String) :
    EngineBench R × EngineBenchReply R :=
  let work := bench.works.size
  let function : ReportedWork :=
    { work := some { category, reporting := true }, mailbox := some {} }
  let entered := { bench with works := bench.works.push { gated, panics, function } }
  let (bench, result) := site.submit { work, category, name := none, timeout := none } entered
  (bench, .submitted result work)

/-- Obeys a command. -/
def obey (bench : EngineBench R) : EngineBenchCommand → EngineBench R × EngineBenchReply R
  | .submit category gated panics => bench.submit category gated panics
  | .awaitStarted work => bench.withWork work (bench, .done)
  | .openGate work =>
    bench.withWork work (bench.editWork work fun entry ↦ { entry with gated := false }, .none)
  | .awaitOutcome work =>
    let outcome := (bench.works[work]?).bind fun entry ↦ entry.function.receive.2
    bench.withWork work
      (bench.editFunction work fun function ↦ function.receive.1, .outcome outcome)
  | .awaitStats values => (bench.awaitStats values, .done)
  | .stats => (bench, .stats bench.engine.stats)
  | .config => (bench, .config bench.engine.config?)
  | .shutDown => ({ bench with engine := bench.engine.shutDown }, .none)
  | .advance millis => ({ bench with clock := bench.clock.advance millis }, .none)
  | .inspectCategory category =>
    let (controller, position) :=
      bench.controller.getCategory bench.store.source bench.clock.now category
    ({ bench with controller },
      .category
        ((controller.categories[position]?).getD (.fresh category 0 bench.clock.now)).snapshot)
  | .totalActive => (bench, .count bench.controller.totals.totalActive)
  | .diagnose => (bench, .shape bench.engine.shape)
  | .unknown => (bench, .refusal .unknownCommand)

/-- What the workers do next to a command. -/
def settleBeside (bench : EngineBench R) : EngineBenchCommand → EngineBench R
  | .submit .. => bench
  | _ => bench.settle

/-- Obeys the commands of a script in turn. -/
def run : List EngineBenchCommand → EngineBench R → List (EngineBenchReply R)
  | [], _ => []
  | command :: script, bench =>
    let (bench, reply) := (bench.settleBeside command).obey command
    reply :: run script (bench.settleBeside command)

/-- The bytes that a process can address. The stacks of its threads have to fit into them. -/
def addressSpace : Nat := 0x800000000000

/-- Whether there is room for the stacks of the core workers. -/
def hasRoom (config : PoolConfig) : Bool := config.coreWorkers * config.stackSize < addressSpace

/-- The engine as it is started. A faulty configuration is found before any worker is. -/
def startEngine : BenchEngine → Except EngineError BusyEngine
  | .workers config =>
    if config.fault?.isSome || hasRoom config then (Pool.create config).map .workers
    else .error (.internal "failed to spawn worker: Resource temporarily unavailable (os error 11)")
  | .tasks maxInFlight => .ok (.tasks (.create maxInFlight))
  | .unsupported => .error (.internal "there is nothing to run tasks on")

/-- A bench with a controller of a given ceiling. -/
def create (plan : BenchEngine) (threshold : Nat) : Except EngineError (EngineBench R) :=
  let name := "pool"
  let clock : Clock := ⟨1000000⟩
  let store := ConfigStore.ofConfig
    { controllers := NameMap.empty.insert name (.withThreshold threshold) }
  (startEngine plan).map fun engine ↦
    settle
      { clock
        store
        controller := .build name default store.source clock.now
        engine }

end EngineBench

end Admission.Simulation
