import Admission.Pool
import Mathlib.Algebra.GroupWithZero.Nat
import Mathlib.Algebra.Order.BigOperators.Group.List
import Mathlib.Algebra.Order.Group.Nat

/-!
# The workers of a pool

A step of a pool is one of a worker, one of a call, or one of the owner. `Pool.Steps` lists what
each can be, and with `steps_of_step` every invariant is a matter of these cases. A step of a worker
moves one worker from one stage to another, so a number that is summed up over the workers changes
by what it is for the two stages (`WorkerSteps.total_eq`).

`Staffed` is the invariant of the workforce. The counters of the pool are the numbers of workers
that they are meant to be, the queue is never longer than it may be, there are never more workers
than there may be, and a core worker goes only when the queue is closed and empty. So before the
pool is shut down no core worker is missing (`Staffed.core_le_live`).
-/

set_option autoImplicit false
set_option relaxedAutoImplicit false

namespace Admission

namespace Pool

/-! ### What a step does -/

/-- What a worker can do: the event, the stage it comes to, and the rest of the pool then. -/
inductive WorkerSteps (pool : Pool) (number : Nat) (worker : Worker) :
    Event → WorkerStage → Pool → Prop
  | await (h : worker.stage = .starting) :
    WorkerSteps pool number worker (.await number) .waiting { pool with idle := pool.idle + 1 }
  | receive {work : Nat} {rest : List Nat} (h : worker.stage = .waiting)
      (hqueue : pool.queue = work :: rest) :
    WorkerSteps pool number worker (.receive number) (.received work) { pool with queue := rest }
  | expire (h : worker.stage = .waiting) (hkind : worker.kind = .burst)
      (hqueue : pool.queue = []) :
    WorkerSteps pool number worker (.expire number) .quitting pool
  | close (h : worker.stage = .waiting) (hclosed : pool.isOpen = false)
      (hqueue : pool.queue = []) :
    WorkerSteps pool number worker (.close number) .quitting pool
  | rouse {work : Nat} (h : worker.stage = .received work) :
    WorkerSteps pool number worker (.rouse number) (.holding work)
      { pool with idle := pool.idle - 1 }
  | quit (h : worker.stage = .quitting) :
    WorkerSteps pool number worker (.rouse number) .leaving { pool with idle := pool.idle - 1 }
  | begin {work : Nat} (h : worker.stage = .holding work) :
    WorkerSteps pool number worker (.begin number) (.running work)
      { pool with counters := pool.counters.begin }
  | finish {work : Nat} (h : worker.stage = .running work) (outcome : WorkOutcome) :
    WorkerSteps pool number worker (.finish number outcome) .starting
      { pool with counters := pool.counters.finish outcome }
  | leave (h : worker.stage = .leaving) :
    WorkerSteps pool number worker (.leave number) .gone { pool with live := pool.live - 1 }

/-- What a call can do: the event, the stage it comes to, and the rest of the pool then. -/
inductive CallSteps (pool : Pool) (number : Nat) (call : Call) : Event → CallStage → Pool → Prop
  | findClosed (h : call.stage = .checked) (hclosed : pool.isOpen = false) :
    CallSteps pool number call (.send number) (.refusing .shutDown) pool
  | findFull (h : call.stage = .checked) (hopen : pool.isOpen = true)
      (hfull : pool.config.maxQueueDepth ≤ pool.queue.length) :
    CallSteps pool number call (.send number) (.refusing .queueFull) pool
  | send (h : call.stage = .checked) (hopen : pool.isOpen = true)
      (hroom : pool.queue.length < pool.config.maxQueueDepth) :
    CallSteps pool number call (.send number) .sent { pool with queue := pool.queue ++ [call.work] }
  | countSent (h : call.stage = .sent) :
    CallSteps pool number call (.count number) .counted
      { pool with counters := pool.counters.accept }
  | countRefused {cause : EngineError} (h : call.stage = .refusing cause) :
    CallSteps pool number call (.count number) (.refused cause)
      { pool with counters := pool.counters.refuse }
  | findIdle (h : call.stage = .counted) (hidle : 0 < pool.idle) :
    CallSteps pool number call (.look number) .accepted pool
  | findBusy (h : call.stage = .counted) (hbusy : pool.idle = 0) :
    CallSteps pool number call (.look number) .reserving pool
  | reserve (h : call.stage = .reserving) (hroom : pool.live < pool.config.maxWorkers) :
    CallSteps pool number call (.reserve number) .accepted
      { pool with live := pool.live + 1, workers := pool.workers ++ [{ kind := .burst }] }
  | reserveNone (h : call.stage = .reserving) (hfull : pool.config.maxWorkers ≤ pool.live) :
    CallSteps pool number call (.reserve number) .accepted pool

/-- The stage of a call as it begins. -/
def firstStage (pool : Pool) : CallStage :=
  if pool.isShutDown then .refusing .shutDown else .checked

/-- The worker that an event is about. -/
def Event.worker? : Event → Option Nat
  | .await number | .receive number | .expire number | .close number | .rouse number
  | .begin number | .finish number _ | .leave number => some number
  | _ => none

/-- What can happen to a pool. -/
inductive Steps (pool : Pool) : Event → Pool → Prop
  | call (work : Nat) :
    Steps pool (.call work) { pool with calls := pool.calls ++ [⟨work, pool.firstStage⟩] }
  | ofCall {number : Nat} {call : Call} {event : Event} {after : CallStage} {changed : Pool}
      (hcall : pool.calls[number]? = some call)
      (hstep : pool.CallSteps number call event after changed) :
    Steps pool event (changed.setCall number after)
  | ofWorker {number : Nat} {worker : Worker} {event : Event} {after : WorkerStage}
      {changed : Pool} (hworker : pool.workers[number]? = some worker)
      (hstep : pool.WorkerSteps number worker event after changed) :
    Steps pool event (changed.setStage number after)
  | shutDown (h : pool.isShutDown = false) : Steps pool .shutDown { pool with isShutDown := true }
  | closeQueue (h : pool.isShutDown = true) (hopen : pool.isOpen = true) :
    Steps pool .closeQueue { pool with isOpen := false }

variable {pool next : Pool} {event : Event}

theorem steps_of_send {number : Nat} {call : Call} (hcall : pool.calls[number]? = some call)
    (h : pool.stepCall number call (.send number) = some next) :
    pool.Steps (.send number) next := by
  simp only [stepCall] at h
  split at h
  · next hstage =>
    split at h
    · next hclosed =>
      cases h
      exact .ofCall hcall (.findClosed hstage (by simpa using hclosed))
    · next hopen =>
      rw [Bool.not_eq_true, Bool.not_eq_false'] at hopen
      split at h
      · next hfull =>
        cases h
        exact .ofCall hcall (.findFull hstage hopen hfull)
      · next hroom =>
        cases h
        exact .ofCall hcall (.send hstage hopen (Nat.lt_of_not_le hroom))
  · cases h

theorem steps_of_count {number : Nat} {call : Call} (hcall : pool.calls[number]? = some call)
    (h : pool.stepCall number call (.count number) = some next) :
    pool.Steps (.count number) next := by
  simp only [stepCall] at h
  split at h
  · next hstage =>
    cases h
    exact .ofCall hcall (.countSent hstage)
  · next hstage =>
    cases h
    exact .ofCall hcall (.countRefused hstage)
  · cases h

theorem steps_of_look {number : Nat} {call : Call} (hcall : pool.calls[number]? = some call)
    (h : pool.stepCall number call (.look number) = some next) :
    pool.Steps (.look number) next := by
  obtain ⟨hstage, ⟨⟩⟩ := Option.ite_none_right_eq_some.mp h
  by_cases hidle : 0 < pool.idle
  · rw [if_pos hidle]
    exact .ofCall hcall (.findIdle hstage hidle)
  · rw [if_neg hidle]
    exact .ofCall hcall (.findBusy hstage (Nat.eq_zero_of_not_pos hidle))

theorem steps_of_reserve {number : Nat} {call : Call} (hcall : pool.calls[number]? = some call)
    (h : pool.stepCall number call (.reserve number) = some next) :
    pool.Steps (.reserve number) next := by
  obtain ⟨hstage, h⟩ := Option.ite_none_right_eq_some.mp h
  split at h
  · next hroom =>
    cases h
    exact .ofCall hcall (.reserve hstage hroom)
  · next hfull =>
    cases h
    exact .ofCall hcall (.reserveNone hstage (Nat.le_of_not_lt hfull))

/-- What a worker does is one of the steps of a worker. The event names the worker. -/
theorem steps_of_stepWorker {number : Nat} {worker : Worker}
    (hworker : pool.workers[number]? = some worker) (hevent : event.worker? = some number)
    (h : pool.stepWorker number worker event = some next) : pool.Steps event next := by
  cases event with
  | call | send | count | look | reserve | shutDown | closeQueue => cases hevent
  | await =>
    cases hevent
    obtain ⟨hstage, ⟨⟩⟩ := Option.ite_none_right_eq_some.mp h
    exact .ofWorker hworker (.await hstage)
  | receive =>
    cases hevent
    obtain ⟨hstage, h⟩ := Option.ite_none_right_eq_some.mp h
    split at h
    · cases h
    · next hqueue =>
      cases h
      exact .ofWorker hworker (.receive hstage hqueue)
  | expire =>
    cases hevent
    obtain ⟨⟨hstage, hkind, hqueue⟩, ⟨⟩⟩ := Option.ite_none_right_eq_some.mp h
    exact .ofWorker hworker (.expire hstage hkind hqueue)
  | close =>
    cases hevent
    obtain ⟨⟨hstage, hclosed, hqueue⟩, ⟨⟩⟩ := Option.ite_none_right_eq_some.mp h
    exact .ofWorker hworker (.close hstage hclosed hqueue)
  | rouse =>
    cases hevent
    simp only [stepWorker] at h
    split at h
    · next hstage =>
      cases h
      exact .ofWorker hworker (.rouse hstage)
    · next hstage =>
      cases h
      exact .ofWorker hworker (.quit hstage)
    · cases h
  | begin =>
    cases hevent
    simp only [stepWorker] at h
    split at h
    · next hstage =>
      cases h
      exact .ofWorker hworker (.begin hstage)
    · cases h
  | finish number outcome =>
    cases hevent
    simp only [stepWorker] at h
    split at h
    · next hstage =>
      cases h
      exact .ofWorker hworker (.finish hstage outcome)
    · cases h
  | leave =>
    cases hevent
    obtain ⟨hstage, ⟨⟩⟩ := Option.ite_none_right_eq_some.mp h
    exact .ofWorker hworker (.leave hstage)

theorem steps_of_step (h : pool.step event = some next) : pool.Steps event next := by
  cases event with
  | call work =>
    cases h
    exact .call work
  | send number =>
    obtain ⟨call, hcall, h⟩ := Option.bind_eq_some_iff.mp h
    exact steps_of_send hcall h
  | count number =>
    obtain ⟨call, hcall, h⟩ := Option.bind_eq_some_iff.mp h
    exact steps_of_count hcall h
  | look number =>
    obtain ⟨call, hcall, h⟩ := Option.bind_eq_some_iff.mp h
    exact steps_of_look hcall h
  | reserve number =>
    obtain ⟨call, hcall, h⟩ := Option.bind_eq_some_iff.mp h
    exact steps_of_reserve hcall h
  | await | receive | expire | close | rouse | begin | finish | leave =>
    obtain ⟨worker, hworker, h⟩ := Option.bind_eq_some_iff.mp h
    exact steps_of_stepWorker hworker rfl h
  | shutDown =>
    obtain ⟨hrunning, ⟨⟩⟩ := Option.ite_none_left_eq_some.mp h
    exact .shutDown (Bool.not_eq_true _ ▸ hrunning)
  | closeQueue =>
    obtain ⟨⟨hshut, hopen⟩, ⟨⟩⟩ := Option.ite_none_right_eq_some.mp h
    exact .closeQueue hshut hopen

/-! ### Numbers summed up over the workers -/

/-- Replacing one member leaves the others as they are. -/
theorem perm_modify {α : Type} {members : List α} {position : Nat} {member : α}
    (h : members[position]? = some member) (change : α → α) :
    ∃ others, members.Perm (member :: others) ∧
      (members.modify position change).Perm (change member :: others) := by
  induction members generalizing position with
  | nil => simp at h
  | cons first rest ih =>
    cases position with
    | zero =>
      obtain rfl : first = member := by simpa using h
      exact ⟨rest, .refl _, .refl _⟩
    | succ position =>
      rw [List.getElem?_cons_succ] at h
      obtain ⟨others, hbefore, hafter⟩ := ih h
      refine ⟨first :: others, ?_, ?_⟩
      · exact (hbefore.cons first).trans (.swap ..)
      · exact (hafter.cons first).trans (.swap ..)

/-- When one member is replaced, a sum changes by what that member contributes. -/
theorem sum_modify {α : Type} {members : List α} {position : Nat} {member : α}
    (h : members[position]? = some member) (change : α → α) (count : α → Nat) :
    ((members.modify position change).map count).sum + count member =
      (members.map count).sum + count (change member) := by
  obtain ⟨others, hbefore, hafter⟩ := perm_modify h change
  have hfirst := (hbefore.map count).sum_eq
  have hlast := (hafter.map count).sum_eq
  simp only [List.map_cons, List.sum_cons] at hfirst hlast
  omega

/-- A number summed up over the workers. -/
def total (count : Worker → Nat) (pool : Pool) : Nat := (pool.workers.map count).sum

theorem le_total {number : Nat} {worker : Worker} (count : Worker → Nat)
    (h : pool.workers[number]? = some worker) : count worker ≤ pool.total count :=
  List.single_le_sum (fun _ _ ↦ Nat.zero_le _) _ (List.mem_map_of_mem (List.mem_of_getElem? h))

theorem mem_setStage {number : Nat} {worker entry : Worker}
    (h : pool.workers[number]? = some worker) {after : WorkerStage}
    (hmem : entry ∈ (pool.setStage number after).workers) :
    entry ∈ pool.workers ∨ entry = { worker with stage := after } := by
  obtain ⟨others, hbefore, hafter⟩ :=
    perm_modify h fun entry ↦ { entry with stage := after }
  rcases List.mem_cons.mp (hafter.mem_iff.mp hmem) with hnew | hold
  · exact .inr hnew
  · exact .inl (hbefore.mem_iff.mpr (List.mem_cons_of_mem _ hold))

end Pool

/-! ### What a worker counts for -/

/-- A worker counts as alive until it is gone. -/
def WorkerStage.lives : WorkerStage → Nat
  | .gone => 0
  | _ => 1

/-- A worker counts as idle from when it begins to wait until it is roused. -/
def WorkerStage.idles : WorkerStage → Nat
  | .waiting | .received _ | .quitting => 1
  | _ => 0

/-- A worker counts as active while it runs work. -/
def WorkerStage.runs : WorkerStage → Nat
  | .running _ => 1
  | _ => 0

/-- A worker is on its way out, or gone. -/
def WorkerStage.isLeaving : WorkerStage → Bool
  | .quitting | .leaving | .gone => true
  | _ => false

/-- A worker counts as one of the core. -/
def WorkerKind.cores : WorkerKind → Nat
  | .core => 1
  | .burst => 0

@[simp] theorem Counters.active_finish (counters : Counters) (outcome : WorkOutcome) :
    (counters.finish outcome).active = counters.active - 1 := by
  cases outcome <;> rfl

namespace Pool

/-! ### The invariant -/

/-- The counters are the numbers of workers that they are meant to be, the bounds are kept, and core
workers leave only a queue that is closed and empty. -/
structure Staffed (pool : Pool) : Prop where
  valid : pool.config.fault? = none
  depth : pool.queue.length ≤ pool.config.maxQueueDepth
  live : pool.live = pool.total (·.stage.lives)
  live_le : pool.live ≤ pool.config.maxWorkers
  idle : pool.idle = pool.total (·.stage.idles)
  active : pool.counters.active = pool.total (·.stage.runs)
  core : pool.total (·.kind.cores) = pool.config.coreWorkers
  exits : ∀ worker ∈ pool.workers, worker.kind = .core → worker.stage.isLeaving = true →
    pool.isOpen = false ∧ pool.queue = []
  closed : pool.isOpen = false → pool.isShutDown = true

variable {pool next : Pool} {event : Event}

/-- On every machine the default configuration is valid. -/
theorem fault?_forProcessors (processors : Nat) :
    (PoolConfig.forProcessors processors).fault? = none := by
  have hcore : max processors 1 ≠ 0 := by omega
  have hmax : ¬max processors 1 * 2 < max processors 1 := by omega
  simp [PoolConfig.fault?, PoolConfig.forProcessors, hcore, hmax]

/-- A valid configuration asks for a core worker, and for no more than there may be workers. -/
theorem bounds_of_valid {config : PoolConfig} (h : config.fault? = none) :
    0 < config.coreWorkers ∧ config.coreWorkers ≤ config.maxWorkers := by
  unfold PoolConfig.fault? at h
  split at h
  · cases h
  · split at h
    · cases h
    · omega

namespace WorkerSteps

variable {number : Nat} {worker : Worker} {after : WorkerStage} {changed : Pool}

theorem workers_eq (h : pool.WorkerSteps number worker event after changed) :
    changed.workers = pool.workers := by
  cases h <;> rfl

theorem config_eq (h : pool.WorkerSteps number worker event after changed) :
    changed.config = pool.config := by
  cases h <;> rfl

theorem isOpen_eq (h : pool.WorkerSteps number worker event after changed) :
    changed.isOpen = pool.isOpen := by
  cases h <;> rfl

theorem isShutDown_eq (h : pool.WorkerSteps number worker event after changed) :
    changed.isShutDown = pool.isShutDown := by
  cases h <;> rfl

/-- A step of a worker changes a total by what that worker counts for. -/
theorem total_eq (h : pool.WorkerSteps number worker event after changed)
    (hworker : pool.workers[number]? = some worker) (count : Worker → Nat) :
    (changed.setStage number after).total count + count worker =
      pool.total count + count { worker with stage := after } := by
  rw [total, setStage, h.workers_eq]
  exact sum_modify hworker _ count

/-- The counter of the workers alive changes by what the worker counts for, and likewise the two
counters below. -/
theorem live_eq (h : pool.WorkerSteps number worker event after changed)
    (hle : worker.stage.lives ≤ pool.live) :
    changed.live + worker.stage.lives = pool.live + after.lives := by
  cases h with
  | await hstage | receive hstage | expire hstage | close hstage | rouse hstage | quit hstage
  | begin hstage | finish hstage => simp only [hstage, WorkerStage.lives]
  | leave hstage =>
    simp only [hstage, WorkerStage.lives] at hle ⊢
    omega

/-- No worker comes back to life. -/
theorem lives_le (h : pool.WorkerSteps number worker event after changed) :
    after.lives ≤ worker.stage.lives := by
  cases h with
  | await hstage | receive hstage | expire hstage | close hstage | rouse hstage | quit hstage
  | begin hstage | finish hstage =>
    rw [hstage]
    exact Nat.le_refl 1
  | leave => exact Nat.zero_le _

theorem idle_eq (h : pool.WorkerSteps number worker event after changed)
    (hle : worker.stage.idles ≤ pool.idle) :
    changed.idle + worker.stage.idles = pool.idle + after.idles := by
  cases h with
  | await hstage | receive hstage | expire hstage | close hstage | begin hstage | finish hstage
  | leave hstage => simp only [hstage, WorkerStage.idles]
  | rouse hstage | quit hstage =>
    simp only [hstage, WorkerStage.idles] at hle ⊢
    omega

theorem active_eq (h : pool.WorkerSteps number worker event after changed)
    (hle : worker.stage.runs ≤ pool.counters.active) :
    changed.counters.active + worker.stage.runs = pool.counters.active + after.runs := by
  cases h with
  | await hstage | receive hstage | expire hstage | close hstage | rouse hstage | quit hstage
  | begin hstage | leave hstage => simp only [hstage, WorkerStage.runs, Counters.begin]
  | finish hstage outcome =>
    simp only [hstage, WorkerStage.runs, Counters.active_finish] at hle ⊢
    omega

/-- Work is only taken from the queue. -/
theorem queue_suffix (h : pool.WorkerSteps number worker event after changed) :
    changed.queue <:+ pool.queue := by
  cases h with
  | receive _ hqueue =>
    rw [hqueue]
    exact List.suffix_cons ..
  | await | expire | close | rouse | quit | begin | finish | leave => exact List.suffix_rfl

/-- A core worker goes on its way out only from a queue that is closed and empty. -/
theorem leaving_core (h : pool.WorkerSteps number worker event after changed)
    (hkind : worker.kind = .core) (hafter : after.isLeaving = true) :
    worker.stage.isLeaving = true ∨ pool.isOpen = false ∧ pool.queue = [] := by
  cases h with
  | await | receive | rouse | begin | finish => cases hafter
  | expire _ hburst =>
    rw [hburst] at hkind
    cases hkind
  | close _ hclosed hqueue => exact .inr ⟨hclosed, hqueue⟩
  | quit hstage | leave hstage =>
    rw [hstage]
    exact .inl rfl

end WorkerSteps

namespace Staffed

theorem start {config : PoolConfig} (h : config.fault? = none) :
    Staffed
      { config
        live := config.coreWorkers
        workers := List.replicate config.coreWorkers { kind := .core } } where
  valid := h
  depth := Nat.zero_le _
  live := by simp [total, WorkerStage.lives]
  live_le := (bounds_of_valid h).2
  idle := by simp [total, WorkerStage.idles]
  active := by simp [total, WorkerStage.runs]
  core := by simp [total, WorkerKind.cores]
  exits := by
    intro worker hmem _ hleaving
    rw [List.eq_of_mem_replicate hmem] at hleaving
    cases hleaving
  closed := nofun

/-- A step of a worker keeps the invariant. -/
theorem ofWorker (h : pool.Staffed) {number : Nat} {worker : Worker} {after : WorkerStage}
    {changed : Pool} (hworker : pool.workers[number]? = some worker)
    (hstep : pool.WorkerSteps number worker event after changed) :
    (changed.setStage number after).Staffed := by
  have hconfig : (changed.setStage number after).config = pool.config := hstep.config_eq
  have hopen : (changed.setStage number after).isOpen = pool.isOpen := hstep.isOpen_eq
  have hqueue := hstep.queue_suffix
  have hlives := hstep.live_eq (h.live ▸ le_total (·.stage.lives) hworker)
  constructor
  case valid => rw [hconfig, h.valid]
  case depth =>
    rw [hconfig]
    exact Nat.le_trans hqueue.length_le h.depth
  case live =>
    have htotal := hstep.total_eq hworker (·.stage.lives)
    rw [← h.live, ← hlives] at htotal
    exact (Nat.add_right_cancel htotal).symm
  case live_le =>
    have hbefore := h.live_le
    have hle := hstep.lives_le
    rw [hconfig]
    change changed.live ≤ pool.config.maxWorkers
    omega
  case idle =>
    have htotal := hstep.total_eq hworker (·.stage.idles)
    rw [← h.idle, ← hstep.idle_eq (h.idle ▸ le_total (·.stage.idles) hworker)] at htotal
    exact (Nat.add_right_cancel htotal).symm
  case active =>
    have htotal := hstep.total_eq hworker (·.stage.runs)
    rw [← h.active, ← hstep.active_eq (h.active ▸ le_total (·.stage.runs) hworker)] at htotal
    exact (Nat.add_right_cancel htotal).symm
  case core =>
    have htotal := hstep.total_eq hworker (·.kind.cores)
    rw [hconfig, ← h.core]
    exact Nat.add_right_cancel htotal
  case exits =>
    intro entry hmem hkind hleaving
    have hworkers : changed.workers[number]? = some worker := hstep.workers_eq ▸ hworker
    have hgone : pool.isOpen = false ∧ pool.queue = [] := by
      rcases mem_setStage hworkers hmem with hold | rfl
      · exact h.exits entry (hstep.workers_eq ▸ hold) hkind hleaving
      · rcases hstep.leaving_core hkind hleaving with hbefore | hclosed
        · exact h.exits worker (List.mem_of_getElem? hworker) hkind hbefore
        · exact hclosed
    rw [hopen]
    refine ⟨hgone.1, List.suffix_nil.mp ?_⟩
    rw [← hgone.2]
    exact hqueue
  case closed =>
    rw [hopen]
    exact fun hclosed ↦ hstep.isShutDown_eq.trans (h.closed hclosed)

/-- The invariant is about neither the calls nor what they have counted. -/
theorem congr (h : pool.Staffed) (hconfig : next.config = pool.config)
    (hqueue : next.queue = pool.queue) (hopen : next.isOpen = pool.isOpen)
    (hshut : next.isShutDown = pool.isShutDown) (hlive : next.live = pool.live)
    (hidle : next.idle = pool.idle) (hactive : next.counters.active = pool.counters.active)
    (hworkers : next.workers = pool.workers) : next.Staffed := by
  have htotal : ∀ count, next.total count = pool.total count := fun count ↦ by
    rw [total, hworkers, total]
  constructor
  case valid => rw [hconfig, h.valid]
  case depth =>
    rw [hqueue, hconfig]
    exact h.depth
  case live => rw [hlive, htotal, h.live]
  case live_le =>
    rw [hlive, hconfig]
    exact h.live_le
  case idle => rw [hidle, htotal, h.idle]
  case active => rw [hactive, htotal, h.active]
  case core => rw [htotal, hconfig, h.core]
  case exits =>
    rw [hworkers, hopen, hqueue]
    exact h.exits
  case closed =>
    rw [hopen, hshut]
    exact h.closed

/-- Work comes into a queue that is open and has room. -/
theorem enqueue (h : pool.Staffed) (hopen : pool.isOpen = true)
    (hroom : pool.queue.length < pool.config.maxQueueDepth) (work : Nat) :
    Staffed { pool with queue := pool.queue ++ [work] } := by
  refine { h with depth := ?_, exits := ?_ }
  · rw [List.length_append, List.length_singleton]
    exact hroom
  · intro worker hmem hkind hleaving
    have hclosed := (h.exits worker hmem hkind hleaving).1
    rw [hopen] at hclosed
    cases hclosed

theorem total_hire (pool : Pool) (live : Nat) (count : Worker → Nat) (worker : Worker) :
    total count { pool with live, workers := pool.workers ++ [worker] } =
      pool.total count + count worker := by
  rw [total, List.map_append, List.sum_append, List.map_singleton, List.sum_singleton, total]

/-- A burst worker is started below the bound. -/
theorem hire (h : pool.Staffed) (hroom : pool.live < pool.config.maxWorkers) :
    Staffed
      { pool with live := pool.live + 1, workers := pool.workers ++ [{ kind := .burst }] } := by
  refine { h with live := ?_, live_le := hroom, idle := ?_, active := ?_, core := ?_, exits := ?_ }
  · rw [total_hire, ← h.live]
    rfl
  · rw [total_hire, ← h.idle]
    rfl
  · rw [total_hire, ← h.active]
    rfl
  · rw [total_hire, h.core]
    rfl
  · intro worker hmem hkind hleaving
    rcases List.mem_append.mp hmem with hold | hnew
    · exact h.exits worker hold hkind hleaving
    · rw [List.mem_singleton.mp hnew] at hkind
      cases hkind

/-- A step of a call keeps the invariant. -/
theorem ofCall (h : pool.Staffed) {number : Nat} {call : Call} {after : CallStage} {changed : Pool}
    (hstep : pool.CallSteps number call event after changed) :
    (changed.setCall number after).Staffed := by
  cases hstep with
  | send _ hopen hroom =>
    exact (h.enqueue hopen hroom call.work).congr rfl rfl rfl rfl rfl rfl rfl rfl
  | reserve _ hroom => exact (h.hire hroom).congr rfl rfl rfl rfl rfl rfl rfl rfl
  | findClosed | findFull | countSent | countRefused | findIdle | findBusy | reserveNone =>
    exact h.congr rfl rfl rfl rfl rfl rfl rfl rfl

theorem step (h : pool.Staffed) (hstep : pool.step event = some next) : next.Staffed := by
  cases steps_of_step hstep with
  | call => exact h.congr rfl rfl rfl rfl rfl rfl rfl rfl
  | ofCall _ hcallStep => exact h.ofCall hcallStep
  | ofWorker hworker hworkerStep => exact h.ofWorker hworker hworkerStep
  | shutDown => exact { h with closed := fun _ ↦ rfl }
  | closeQueue hshut =>
    refine { h with exits := ?_, closed := fun _ ↦ hshut }
    exact fun worker hmem hkind hleaving ↦ ⟨rfl, (h.exits worker hmem hkind hleaving).2⟩

/-- Before the pool is shut down no core worker is missing. -/
theorem core_le_live (h : pool.Staffed) (hrunning : pool.isShutDown = false) :
    pool.config.coreWorkers ≤ pool.live := by
  rw [← h.core, h.live]
  refine List.sum_le_sum fun worker hmem ↦ ?_
  cases hkind : worker.kind with
  | burst => exact Nat.zero_le _
  | core =>
    cases hstage : worker.stage with
    | gone =>
      have hclosed := (h.exits worker hmem hkind (hstage ▸ rfl)).1
      rw [h.closed hclosed] at hrunning
      cases hrunning
    | starting | waiting | received | quitting | holding | running | leaving => exact Nat.le_refl 1

end Staffed

end Pool

end Admission
