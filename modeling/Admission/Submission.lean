import Admission.Controller.Admit
import Admission.Controller.Settle
import Admission.Work

/-!
# Submitting work

To submit work is to ask for a lease, to hand the work to an engine with its lease, and to give the
lease back when the work has ended. Whatever happens, the work is completed once, after its lease is
given back: refused work is told the cause and completed without being run, and work that panics is
told so. A panic of the work's own code goes no further than the submission.

The code of the work, the watchdog and the engine act on a state of their own, of which the
controller is a part. A `Site` says where in that state the controller is and what the others do to
it. To put a controller there is to find it there, and to take note of something leaves it as it is.
-/

set_option autoImplicit false
set_option relaxedAutoImplicit false

namespace Admission

/-- Work as it is submitted; `ω` names work. -/
structure WorkItem (ω : Type) where
  work : ω
  category : String
  name : Option String
  timeout : Option Duration

/-- Work with its lease, ready to be run. -/
structure AdmittedWork (ω : Type) where
  work : ω
  lease : Lease
  /-- The name of the lease's category. -/
  category : String
  label : Option String
  timeout : Option Duration
  submittedAt : Nat

/-- Work that was granted a lease. -/
def WorkItem.withLease {ω : Type} (item : WorkItem ω) (lease : Lease) : AdmittedWork ω where
  work := item.work
  lease
  category := item.category
  label := item.name
  timeout := item.timeout
  submittedAt := lease.grantedAt

namespace AdmittedWork

variable {ω : Type}

/-- What the watchdog calls the work. -/
def task (admitted : AdmittedWork ω) : String := admitted.label.getD admitted.category

/-- The work for a diagnosis. -/
def shape (admitted : AdmittedWork ω) : String :=
  Text.Shape.openRecord "AdmittedWork"
    [("category", Text.quote admitted.category),
     ("name", Text.Shape.ofOption Text.quote admitted.label),
     ("lease_id", toString admitted.lease.id),
     ("submitted_at_ms", toString admitted.submittedAt),
     ("timeout", Text.Shape.ofOption Duration.text admitted.timeout)]

end AdmittedWork

/-- The parties to submissions, for a diagnosis: the controller, the engine, and whether running
times are watched. -/
def submitterShape (controller : String) (stats : EngineStats) (watched : Bool) : String :=
  Text.Shape.record "Submitter"
    [("controller", Text.quote controller), ("engine", stats.shape),
     ("watchdog", Text.Shape.ofBool watched)]

/-- The code of the work itself, each call of which may panic. -/
structure WorkCode (σ ω : Type) where
  run : ω → σ → σ × Ending
  markFailed : ω → WorkFailure → σ → σ × Ending
  complete : ω → σ → σ × Ending

/-- A supervisor of running times. It names what it watches by numbers. -/
structure Supervisor (σ : Type) where
  monitor : String → Duration → σ → σ × Nat
  cancel : Nat → σ → σ
  expired : Nat → σ → Bool

/-- What an engine does with work it is handed. -/
inductive EngineChoice where
  /-- It runs the work before it answers. -/
  | runNow
  /-- It has kept the work for later. -/
  | keep
  | refuse (cause : EngineError)
deriving DecidableEq, Inhabited

/-- An engine as the submission sees it. -/
structure EngineCode (σ ω : Type) where
  /-- The engine is handed work. -/
  receive : AdmittedWork ω → σ → σ × EngineChoice
  /-- Called before and after a run. -/
  begin : σ → σ
  finish : WorkOutcome → σ → σ

/-- Where the controller is, and who else acts on the state. -/
structure Site (σ R ω : Type) where
  controller : σ → Controller R
  setController : Controller R → σ → σ
  now : σ → Nat
  source : σ → Source
  /-- Takes note of what there is to tell. -/
  tell : List (Notice R) → σ → σ
  code : WorkCode σ ω
  supervisor : Option (Supervisor σ)
  engine : EngineCode σ ω
  controller_setController : ∀ changed state, controller (setController changed state) = changed
  controller_tell : ∀ notices state, controller (tell notices state) = controller state

namespace Site

variable {σ R ω : Type} [Scalar R]

/-- Lets an operation act on the controller. -/
def act {α : Type} (site : Site σ R ω) (operation : Controller R → Outcome R α) (state : σ) :
    σ × α :=
  let outcome := operation (site.controller state)
  (site.tell outcome.notices (site.setController outcome.controller state), outcome.answer)

/-- Asks for a lease. -/
def request (site : Site σ R ω) (category : String) (state : σ) :
    σ × Except AdmissionError Lease :=
  site.act (fun controller ↦ controller.request (site.source state) (site.now state) category) state

/-- Exempts a lease from becoming stale. -/
def supervise (site : Site σ R ω) (lease : Lease) (state : σ) : σ :=
  site.setController ((site.controller state).supervise lease) state

/-- Gives a lease back. If it was given back before, nothing happens. -/
def release (site : Site σ R ω) (lease : Lease) (state : σ) : σ :=
  (site.act
    (fun controller ↦ controller.release (site.source state) (site.now state) lease) state).1

/-- Drops a lease. -/
def drop (site : Site σ R ω) (lease : Lease) (state : σ) : σ :=
  (site.act (fun controller ↦ controller.drop lease) state).1

/-- Tells the work how it failed, if it did, and completes it. The two calls are made in one
precaution against panics: after a panic of the first there is no second. -/
def settle (site : Site σ R ω) (work : ω) (failure : Option WorkFailure) (state : σ) : σ :=
  match failure with
  | none => (site.code.complete work state).1
  | some failure =>
    match site.code.markFailed work failure state with
    | (state, .returned) => (site.code.complete work state).1
    | (state, .panicked _) => state

/-- Starts to watch work that has a timeout. -/
def startWatch (site : Site σ R ω) (admitted : AdmittedWork ω) (state : σ) : σ × Option Nat :=
  match admitted.timeout, site.supervisor with
  | some timeout, some supervisor =>
    let (state, watch) := supervisor.monitor admitted.task timeout state
    (state, some watch)
  | _, _ => (state, none)

/-- Ends a watch, and takes note if the time was up before. -/
def endWatch (site : Site σ R ω) (admitted : AdmittedWork ω) (watch : Option Nat) (state : σ) : σ :=
  match watch, site.supervisor with
  | some watch, some supervisor =>
    let state := supervisor.cancel watch state
    if supervisor.expired watch state then
      site.tell [.overran admitted.category admitted.lease.id] state
    else state
  | _, _ => state

/-- What a run that ends so means for the work. -/
def outcomeOf : Ending → WorkOutcome
  | .returned => .completed
  | .panicked payload => .failed (.panicked payload.message)

/-- The failure that an outcome tells of. -/
def failureOf : WorkOutcome → Option WorkFailure
  | .completed => none
  | .failed failure => some failure

/-- Runs admitted work: the watch is over and the lease given back before the work is completed. -/
def run (site : Site σ R ω) (admitted : AdmittedWork ω) (state : σ) : σ × WorkOutcome :=
  let (state, watch) := site.startWatch admitted state
  let (state, ending) := site.code.run admitted.work state
  let state := site.endWatch admitted watch state
  let state := site.release admitted.lease state
  let outcome := outcomeOf ending
  (site.settle admitted.work (failureOf outcome) state, outcome)

/-- Gives the lease of work back without running it, and completes it as failed. -/
def fail (site : Site σ R ω) (admitted : AdmittedWork ω) (cause : WorkFailure) (state : σ) : σ :=
  site.settle admitted.work (some cause) (site.release admitted.lease state)

/-- Hands admitted work to the engine. -/
def execute (site : Site σ R ω) (admitted : AdmittedWork ω) (state : σ) :
    σ × Except EngineError Unit :=
  match site.engine.receive admitted state with
  | (state, .runNow) =>
    let (state, outcome) := site.run admitted (site.engine.begin state)
    (site.engine.finish outcome state, .ok ())
  | (state, .keep) => (state, .ok ())
  | (state, .refuse cause) => (state, .error cause)

/-- Submits work. Answers the identifier of its lease. -/
def submit (site : Site σ R ω) (item : WorkItem ω) (state : σ) :
    σ × Except AdmissionError Nat :=
  match site.request item.category state with
  | (state, .error error) =>
    (site.settle item.work (some (.rejected error.message)) state, .error error)
  | (state, .ok lease) =>
    let admitted := item.withLease lease
    match site.execute admitted (site.supervise lease state) with
    | (state, .ok ()) => (state, .ok lease.id)
    | (state, .error cause) =>
      (site.fail admitted (.engineRejected cause.message) state,
        .error (.engineRejected item.category cause))

end Site

end Admission
