import Admission.Simulation.World

/-!
# Playing a script

`playScript` plays the lines of a script one after another and answers, for each, the reply and the
lines it added to the log. A line that submits work may play the script of that work before it is
over, and so may a line that runs kept work. Work runs at most once, so no more lines are ever being
played at once than the script has lines; that bounds the depth of `play`.
-/

set_option autoImplicit false
set_option relaxedAutoImplicit false

namespace Admission.Simulation

variable {R : Type} [Scalar R]

namespace World

/-- Obeys a command for a controller, if there is one. -/
def withController (world : World R) (name : String) (obey : World R → World R × Reply R) :
    World R × Reply R :=
  if (world.controller? name).isSome then obey world else (world, .refusal .noController)

/-- Obeys a command for the lease of a handle, if it has one. -/
def withLease (world : World R) (handle : Nat)
    (obey : String → Lease → World R → World R × Reply R) : World R × Reply R :=
  match world.lease? handle with
  | none => (world, .refusal .noLease)
  | some (name, lease) => obey name lease world

/-! ### Leases -/

/-- Admits a request and gives the lease a handle. -/
def requestHandle (world : World R) (name category : String) :
    World R × Except AdmissionError (Nat × Lease) :=
  match world.request name category with
  | (world, .error error) => (world, .error error)
  | (world, .ok lease) =>
    let (world, handle) := world.addHandle name lease
    (world, .ok (handle, lease))

/-- Admits until a request is refused or nothing is left of the number of grants. -/
def fillLoop (name category : String) : Nat → Nat → World R → World R × Nat × Option AdmissionError
  | 0, granted, world => (world, granted, none)
  | left + 1, granted, world =>
    match world.requestHandle name category with
    | (world, .error error) => (world, granted, some error)
    | (world, .ok _) => fillLoop name category left (granted + 1) world

/-- Moves the clock. -/
def advance (world : World R) (millis : Nat) : World R :=
  { world with clock := world.clock.advance millis }

/-- Admits, holds, releases and waits so many times. -/
def cycleLoop (name category : String) (hold gap : Nat) :
    Nat → Nat → Nat → World R → World R × Nat × Nat
  | 0, granted, refused, world => (world, granted, refused)
  | left + 1, granted, refused, world =>
    match world.request name category with
    | (world, .error _) =>
      cycleLoop name category hold gap left granted (refused + 1) (world.advance gap)
    | (world, .ok lease) =>
      let (world, _) := (world.advance hold).release name lease
      cycleLoop name category hold gap left (granted + 1) refused (world.advance gap)

/-- Releases the leases of a category that have handles, in order of handle. The times they were
held come out last one first. -/
def drainLoop (name category : String) : List Nat → List Nat → World R → World R × List Nat
  | [], held, world => (world, held)
  | handle :: handles, held, world =>
    match world.lease? handle with
    | none => drainLoop name category handles held world
    | some (owner, lease) =>
      let controller := world.controller owner
      if owner = name ∧ controller.categoryName lease.category = category ∧
          controller.ledger.phase? lease.number ≠ some .released then
        match world.release owner lease with
        | (world, .ok duration) => drainLoop name category handles (duration :: held) world
        | (world, .error _) => drainLoop name category handles held world
      else drainLoop name category handles held world

/-! ### All controllers -/

/-- Sweeps all controllers. Answers how many leases they took back. -/
def reconcileAll (world : World R) : World R × Nat :=
  let (registry, swept) := world.registry.reconcileAll world.source world.now
  ((swept.foldl (fun world entry ↦ tell entry.2 world) { world with registry }),
    swept.foldl (fun total entry ↦ total + entry.1) 0)

/-- Sweeps all controllers, a few times at most, until they hold so many leases. -/
def sweepUntil (active : Nat) : Nat → World R → World R
  | 0, world => world
  | fuel + 1, world =>
    if world.registry.totalActive = active then world
    else sweepUntil active fuel world.reconcileAll.1

/-- Snapshots of all controllers. -/
def snapshots (world : World R) : World R × List (ControllerSnapshot R) :=
  let (registry, snapshots) := world.registry.snapshots world.source world.now
  ({ world with registry }, snapshots)

/-- Builds and registers a controller. -/
def register (world : World R) (id : String) (ownSource : Bool) :
    World R × Except AdmissionError Unit :=
  let source := if ownSource then (default : ConfigStore).source else world.sharedSource
  match world.registry.register (.build id world.timings source world.now) with
  | .error error => (world, .error error)
  | .ok registry =>
    ({ world with
        registry
        ownSources := if ownSource then id :: world.ownSources else world.ownSources },
      .ok ())

/-- Replaces the configuration, and answers its version. -/
def configure (world : World R) (store : ConfigStore) : World R × Reply R :=
  ({ world with store }, .count store.version)

/-! ### Work -/

/-- Plays the script of work and logs the replies. -/
def playBody (play : Command → World R → World R × Except Payload (Reply R)) (work : Nat) :
    List Command → World R → World R × Ending
  | [], world => (world, .returned)
  | command :: script, world =>
    match play command world with
    | (world, .ok reply) => playBody play work script (world.logWork work (.step reply))
    | (world, .error payload) => (world, .panicked payload)

/-- Runs work. -/
def runWork (play : Command → World R → World R × Except Payload (Reply R)) (work : Nat)
    (world : World R) : World R × Ending :=
  let world := world.editWork work fun submitted ↦
    { submitted with function := submitted.function.run }
  match world.logCall work .run .ran with
  | (world, .panicked payload) => (world, .panicked payload)
  | (world, .returned) => playBody play work (world.workAt work).body world

/-- The record of new work. -/
def newWork (category : String) (kind : WorkKind) (name : Option String) (timeout : Option Duration)
    (body : List Command) (panicsOn : Option WorkCall) : Submitted R where
  kind
  body
  panicsOn
  function :=
    if kind = .function then
      { work := some { category, name, timeout, reporting := true }, mailbox := some {} }
    else { work := none, mailbox := none }

/-- The work in a place, which is free afterwards. -/
def takeKept (world : World R) (position : Nat) : World R × Option (String × AdmittedWork Nat) :=
  ({ world with kept := world.kept.modify position fun _ ↦ none }, (world.kept[position]?).join)

end World

open World

/-- Plays a command other than `panic`; `play` plays the commands of work that runs. -/
def obey (play : Command → World R → World R × Except Payload (Reply R)) (world : World R) :
    Command → World R × Reply R
  | .advance millis =>
    let world := world.advance millis
    (world, .count world.now)
  | .setClock reading => ({ world with clock := world.clock.set reading }, .count reading)
  | .openCategory name category =>
    world.withController name fun world ↦
      let (world, view) := world.view name category
      let controller := world.controller name
      (world,
        .opened controller.id
          (Text.Shape.record "Category"
            [("controller", Text.quote controller.id), ("name", Text.quote category)])
          view.category)
  | .find name category =>
    world.withController name fun world ↦
      (world, .category? ((world.controller name).category? category))
  | .listCategories name =>
    world.withController name fun world ↦ (world, .texts (world.controller name).categoryNames)
  | .request name category =>
    world.withController name fun world ↦
      let (world, result) := world.requestHandle name category
      let (world, view) := world.view name category
      (world, .admitted result view)
  | .fill name category most =>
    world.withController name fun world ↦
      let (world, granted, refused) := fillLoop name category most 0 world
      let (world, view) := world.view name category
      (world, .filled granted refused view)
  | .cycle name category times hold gap =>
    world.withController name fun world ↦
      let world := world.openCategory name category
      let (world, granted, refused) := cycleLoop name category hold gap times 0 0 world
      let (world, view) := world.view name category
      (world, .cycled granted refused view)
  | .drain name category =>
    world.withController name fun world ↦
      let (world, held) :=
        drainLoop name category (List.range world.handles.size) [] world
      let (world, view) := world.view name category
      (world, .drained held.reverse view)
  | .release handle =>
    world.withLease handle fun name lease world ↦
      let (world, result) := world.release name lease
      (world, .released result (world.categoryAt name lease.category))
  | .drop handle =>
    world.withLease handle fun name lease world ↦
      let (world, ()) := world.act name fun controller _ _ ↦ controller.drop lease
      (world.loseHandle handle, .category? (some (world.categoryAt name lease.category)))
  | .forget handle =>
    world.withLease handle fun name lease world ↦
      (world.loseHandle handle, .category? (some (world.categoryAt name lease.category)))
  | .heartbeat handle =>
    world.withLease handle fun name lease world ↦
      (setController name ((world.controller name).heartbeat world.now lease) world, .none)
  | .inspectLease handle =>
    world.withLease handle fun name lease world ↦
      let controller := world.controller name
      (world,
        .lease lease controller.id (controller.categoryName lease.category)
          (world.now - lease.grantedAt) ((controller.ledger.phase? lease.number).getD .active))
  | .reconcile name =>
    world.withController name fun world ↦
      let (world, reclaimed) := world.act name fun controller source now ↦
        controller.reconcile source now
      (world, .reconciled reclaimed (world.controller name).totals.totalActive)
  | .reconcileAll =>
    let (world, reclaimed) := world.reconcileAll
    (world, .count reclaimed)
  | .supervise untilActive =>
    let world := sweepUntil untilActive 2 world
    (world, .count world.registry.totalActive)
  | .refresh name =>
    world.withController name fun world ↦
      (setController name
        ((world.controller name).readSettings (world.source name) world.now) world, .none)
  | .inspectController name =>
    world.withController name fun world ↦
      let controller := (world.controller name).refreshSettings (world.source name) world.now
      (setController name controller world,
        .controller controller.id controller.shape controller.current
          controller.totals.totalActive)
  | .snapshot name =>
    world.withController name fun world ↦
      let (controller, snapshot) :=
        (world.controller name).snapshot (world.source name) world.now
      (setController name controller world, .snapshot snapshot)
  | .snapshots =>
    let (world, snapshots) := world.snapshots
    (world, .snapshots snapshots)
  | .setController name settings => world.configure (world.store.setController name settings)
  | .setWeight name category weight =>
    world.configure (world.store.setCategoryWeight name category weight)
  | .editController name edit => world.configure (world.store.editController name edit)
  | .removeController name => world.configure (world.store.removeController name)
  | .inspectSource name category =>
    (world,
      .source (world.store.settings name) (world.store.weight name category) world.store.config)
  | .events => (world, .events world.buffer.events)
  | .health =>
    let (world, snapshots) := world.snapshots
    (world, .health (.ofSnapshots snapshots))
  | .report generatedAt withEngine =>
    let (world, controllers) := world.snapshots
    (world,
      .report
        { generatedAt
          controllers
          engine := if withEngine then some world.engineStats else none })
  | .ids => (world, .texts world.registry.ids)
  | .listControllers => (world, .texts (world.registry.toList.map (·.id)))
  | .get name => (world, .text? ((world.controller? name).map (·.id)))
  | .register id ownSource =>
    let (world, result) := world.register id ownSource
    (world, .registered result)
  | .getOrInsert name id =>
    let made := (world.controller? name).isNone
    let (registry, controller) := world.registry.getOrInsertWith name fun _ ↦
      .build id world.timings world.sharedSource world.now
    ({ world with registry }, .inserted controller.id made)
  | .submit name category kind label timeout body panicsOn =>
    world.withController name fun world ↦
      let work := world.works.size
      let label := if kind = .minimal then none else label
      let timeout := if kind = .minimal then none else timeout
      let world :=
        { world with
          works := world.works.push (newWork category kind label timeout body panicsOn) }
      let site := World.site (runWork play) world.watchdogKind name
      let (world, result) := site.submit { work, category, name := label, timeout } world
      let (world, log) := world.takeLog work
      let (world, outcome) := world.takeOutcome work
      let (world, view) := world.view name category
      (world, .submitted result work log outcome view)
  | .inspectSubmitter name =>
    world.withController name fun world ↦
      (world,
        .submitter (world.controller name).id world.engineStats (world.watchdogKind ≠ .none))
  | .engineStats => (world, .stats world.engineStats)
  | .inspectKept position =>
    match (world.kept[position]?).join with
    | none => (world, .refusal .noKeptWork)
    | some (_, admitted) => (world, .kept admitted)
  | .runKept position =>
    match world.takeKept position with
    | (world, none) => (world, .refusal .noKeptWork)
    | (world, some (name, admitted)) =>
      let site := World.site (runWork play) world.watchdogKind name
      let (world, outcome) := site.run admitted world
      (world, .ran outcome)
  | .dropKept position =>
    match world.takeKept position with
    | (world, none) => (world, .refusal .noKeptWork)
    | (world, some (name, admitted)) =>
      let site := World.site (runWork play) world.watchdogKind name
      (site.drop admitted.lease world, .none)
  | .inspectWork work =>
    if work < world.works.size then
      let (world, log) := world.takeLog work
      let (world, outcome) := world.takeOutcome work
      (world, .work log outcome)
    else (world, .refusal .noWork)
  | .watched =>
    (world,
      .watched
        (if world.watchdogKind = .recording then
          world.watchCalls.mapIdx fun handle call ↦
            ⟨call.1, call.2, world.watching.handle handle⟩
        else []))
  | .awaitFired count =>
    let watching := world.watching.awaitFired count
    ({ world with watching }, .texts (watching.fired.map (·.1)))
  | .panic _ => (world, .none)
  | .malformed => (world, .refusal .malformedCommand)
  | .unknown => (world, .refusal .unknownCommand)

/-- Plays a command. The fuel bounds how many commands are being played at once. -/
def play : Nat → Command → World R → World R × Except Payload (Reply R)
  | 0, _, world => (world, .ok .none)
  | _ + 1, .panic payload, world => (world, .error payload)
  | fuel + 1, command, world =>
    let (world, reply) := obey (play fuel) world command
    (world, .ok reply)

/-- The reply to a line of a script, and the lines it added to the log. -/
structure Played (R : Type) where
  reply : Reply R
  log : List (LogLine R)

/-- Plays the lines of a script in turn. -/
def playLines (fuel : Nat) : List Command → World R → List (Played R)
  | [], _ => []
  | command :: script, world =>
    let (world, reply) := play fuel command { world with log := [] }
    let reply := match reply with
      | .ok reply => reply
      | .error _ => .none
    ⟨reply, world.log.reverse⟩ :: playLines fuel script world

/-- Plays a script. -/
def playScript (script : List Command) (world : World R) : List (Played R) :=
  playLines (Command.sizes script + 1) script world

end Admission.Simulation
