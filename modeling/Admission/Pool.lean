import Admission.Engine
import Admission.Pool.Config

/-!
# A pool of workers

Work waits in a bounded queue for one of the pool's workers. Core workers live as long as the pool;
a burst worker is started when work arrives and nobody is idle, and leaves after some time without
work. After shutdown the queue is emptied and the workers leave.

Submitters and workers run at the same time. An `Event` is one step of one of them that the others
cannot come between, and `Pool.step` says which steps are possible and what they do. Work is named
by numbers.
-/

set_option autoImplicit false
set_option relaxedAutoImplicit false

namespace Admission

/-- The two kinds of workers. -/
inductive WorkerKind where
  | core
  | burst
deriving DecidableEq, Inhabited

/-- Where a worker is in its loop. -/
inductive WorkerStage where
  /-- It is about to wait for work. -/
  | starting
  /-- It waits for work, and counts as idle. -/
  | waiting
  /-- It has taken work out of the queue, and still counts as idle. -/
  | received (work : Nat)
  /-- It has given up waiting, and still counts as idle. -/
  | quitting
  /-- It is about to run work. -/
  | holding (work : Nat)
  /-- It runs work. -/
  | running (work : Nat)
  /-- It is about to leave, and still counts as alive. -/
  | leaving
  | gone
deriving DecidableEq, Inhabited

/-- A worker. -/
structure Worker where
  kind : WorkerKind
  stage : WorkerStage := .starting
deriving DecidableEq, Inhabited

/-- Where a call of submit is. -/
inductive CallStage where
  /-- It has seen that the pool is not shut down. -/
  | checked
  /-- Its work is in the queue. -/
  | sent
  /-- Its work has been counted. -/
  | counted
  /-- It has seen that nobody is idle. -/
  | reserving
  /-- Its work is about to be counted as refused. -/
  | refusing (cause : EngineError)
  | accepted
  /-- Its work has been handed back. -/
  | refused (cause : EngineError)
deriving DecidableEq, Inhabited

/-- A call of submit. -/
structure Call where
  work : Nat
  stage : CallStage
deriving DecidableEq, Inhabited

/-- The state of a pool with its workers and the calls under way. -/
structure Pool where
  config : PoolConfig
  /-- The work that waits, the next first. -/
  queue : List Nat := []
  /-- Whether the queue takes work. -/
  isOpen : Bool := true
  /-- Whether shutdown has begun. -/
  isShutDown : Bool := false
  /-- Workers that count as alive. -/
  live : Nat := 0
  /-- Workers that count as idle. -/
  idle : Nat := 0
  counters : Counters := {}
  workers : List Worker := []
  calls : List Call := []

namespace Pool

instance : Inhabited Pool := ⟨{ config := default }⟩

/-- A pool with its core workers, if the configuration is free of faults. Their threads are taken to
start. -/
def create (config : PoolConfig) : Except EngineError Pool :=
  match config.fault? with
  | some fault => .error (.invalidConfig fault.message)
  | none =>
    .ok
      { config
        live := config.coreWorkers
        workers := List.replicate config.coreWorkers { kind := .core } }

/-- A step of a worker, a call or the pool's owner. Workers and calls go by their positions. -/
inductive Event where
  /-- Somebody calls submit. -/
  | call (work : Nat)
  /-- A call puts its work into the queue, or finds that it cannot. -/
  | send (call : Nat)
  /-- A call counts its work. -/
  | count (call : Nat)
  /-- A call looks whether anybody is idle. -/
  | look (call : Nat)
  /-- A call starts a burst worker if there may be one more. -/
  | reserve (call : Nat)
  /-- A worker begins to wait. -/
  | await (worker : Nat)
  /-- A worker takes the next work. -/
  | receive (worker : Nat)
  /-- A burst worker has waited long enough. -/
  | expire (worker : Nat)
  /-- A worker finds the queue closed and empty. -/
  | close (worker : Nat)
  /-- A worker stops counting as idle. -/
  | rouse (worker : Nat)
  /-- A worker begins to run its work. -/
  | begin (worker : Nat)
  /-- A worker's work has ended. -/
  | finish (worker : Nat) (outcome : WorkOutcome)
  /-- A worker stops counting as alive. -/
  | leave (worker : Nat)
  /-- The owner begins to shut the pool down. -/
  | shutDown
  /-- The owner closes the queue. -/
  | closeQueue
deriving DecidableEq, Inhabited

/-- The stage of a worker. -/
def stageOf? (pool : Pool) (worker : Nat) : Option WorkerStage :=
  (pool.workers[worker]?).map (·.stage)

/-- Moves a worker to another stage. -/
def setStage (pool : Pool) (worker : Nat) (stage : WorkerStage) : Pool :=
  { pool with workers := pool.workers.modify worker fun entry ↦ { entry with stage } }

/-- Moves a call to another stage. -/
def setCall (pool : Pool) (call : Nat) (stage : CallStage) : Pool :=
  { pool with calls := pool.calls.modify call fun entry ↦ { entry with stage } }

/-- The steps of a call. To start a burst worker is to start a thread, and that is taken to succeed:
the case in which it fails, where the call gives the place of the worker back and logs the failure,
is left out. -/
def stepCall (pool : Pool) (number : Nat) (call : Call) : Event → Option Pool
  | .send _ =>
    if call.stage = .checked then
      if !pool.isOpen then some (pool.setCall number (.refusing .shutDown))
      else if pool.config.maxQueueDepth ≤ pool.queue.length then
        some (pool.setCall number (.refusing .queueFull))
      else some ({ pool with queue := pool.queue ++ [call.work] }.setCall number .sent)
    else none
  | .count _ =>
    match call.stage with
    | .sent => some ({ pool with counters := pool.counters.accept }.setCall number .counted)
    | .refusing cause =>
      some ({ pool with counters := pool.counters.refuse }.setCall number (.refused cause))
    | _ => none
  | .look _ =>
    if call.stage = .counted then
      some (pool.setCall number (if 0 < pool.idle then .accepted else .reserving))
    else none
  | .reserve _ =>
    if call.stage = .reserving then
      let pool := pool.setCall number .accepted
      if pool.live < pool.config.maxWorkers then
        some { pool with live := pool.live + 1, workers := pool.workers ++ [{ kind := .burst }] }
      else some pool
    else none
  | _ => none

/-- The steps of a worker. -/
def stepWorker (pool : Pool) (number : Nat) (worker : Worker) : Event → Option Pool
  | .await _ =>
    if worker.stage = .starting then
      some ({ pool with idle := pool.idle + 1 }.setStage number .waiting)
    else none
  | .receive _ =>
    if worker.stage = .waiting then
      match pool.queue with
      | [] => none
      | work :: rest => some ({ pool with queue := rest }.setStage number (.received work))
    else none
  | .expire _ =>
    if worker.stage = .waiting ∧ worker.kind = .burst ∧ pool.queue = [] then
      some (pool.setStage number .quitting)
    else none
  | .close _ =>
    if worker.stage = .waiting ∧ pool.isOpen = false ∧ pool.queue = [] then
      some (pool.setStage number .quitting)
    else none
  | .rouse _ =>
    match worker.stage with
    | .received work =>
      some ({ pool with idle := pool.idle - 1 }.setStage number (.holding work))
    | .quitting => some ({ pool with idle := pool.idle - 1 }.setStage number .leaving)
    | _ => none
  | .begin _ =>
    match worker.stage with
    | .holding work =>
      some ({ pool with counters := pool.counters.begin }.setStage number (.running work))
    | _ => none
  | .finish _ outcome =>
    match worker.stage with
    | .running _ =>
      some ({ pool with counters := pool.counters.finish outcome }.setStage number .starting)
    | _ => none
  | .leave _ =>
    if worker.stage = .leaving then
      some ({ pool with live := pool.live - 1 }.setStage number .gone)
    else none
  | _ => none

/-- The state after an event, if the event is possible. -/
def step (pool : Pool) (event : Event) : Option Pool :=
  match event with
  | .call work =>
    let stage := if pool.isShutDown then CallStage.refusing .shutDown else .checked
    some { pool with calls := pool.calls ++ [⟨work, stage⟩] }
  | .send number | .count number | .look number | .reserve number =>
    (pool.calls[number]?).bind fun call ↦ pool.stepCall number call event
  | .await number | .receive number | .expire number | .close number | .rouse number
  | .begin number | .finish number _ | .leave number =>
    (pool.workers[number]?).bind fun worker ↦ pool.stepWorker number worker event
  | .shutDown => if pool.isShutDown then none else some { pool with isShutDown := true }
  | .closeQueue =>
    if pool.isShutDown ∧ pool.isOpen then some { pool with isOpen := false } else none

/-- What the pool shows of itself. -/
def stats (pool : Pool) : EngineStats :=
  pool.counters.fill
    { queueDepth := pool.queue.length
      queueCapacity := pool.config.maxQueueDepth
      liveWorkers := pool.live
      coreWorkers := pool.config.coreWorkers
      maxWorkers := pool.config.maxWorkers }

/-- The pool for a diagnosis. -/
def shape (pool : Pool) : String :=
  Text.Shape.openRecord "WorkerPool"
    [("config", pool.config.shape), ("live", toString pool.live),
     ("shutdown", Text.Shape.ofBool pool.isShutDown)]

end Pool

end Admission
