import Admission.Proofs.Runs
import Admission.Proofs.Workforce
import Mathlib.Data.List.Count
import Mathlib.Data.List.Perm.Basic

/-!
# Where submitted work goes

A `Journal` is a pool with a record of what has happened to the work so far: which calls were
accepted and which refused, which worker received which work, what was begun and what has ended. The
record is read off the pool before and after each event and decides nothing.

Work flows from the accepted calls through the queue and the hands of the workers to its end, and
nothing is lost or doubled on the way (`Traced`): the workers receive what was accepted in the order
of acceptance, the rest of it is the queue, and what was received is in a worker's hands, running or
ended. Every call stands where the record and the counters say (`Called`).
-/

set_option autoImplicit false
set_option relaxedAutoImplicit false

namespace Admission

namespace Pool

/-! ### The journal -/

/-- A call that found that its work cannot be taken, with what it saw of the pool. -/
structure Refusal where
  call : Nat
  cause : EngineError
  /-- How much work waited at the time. -/
  depth : Nat
  /-- Whether the pool was shut down at the time. -/
  isShutDown : Bool
deriving DecidableEq

/-- A pool with what has happened to the work. -/
structure Journal where
  pool : Pool
  /-- The calls whose work came into the queue, each with its work, in order of acceptance. -/
  accepted : List (Nat × Nat) := []
  /-- The calls that found that their work cannot be taken. -/
  refused : List Refusal := []
  /-- Which worker took which work from the queue, in order. -/
  received : List (Nat × Nat) := []
  /-- The work that workers began to run, in order. -/
  begun : List Nat := []
  /-- The work that has ended, with its outcome, in order. -/
  ended : List (Nat × WorkOutcome) := []

/-- The call whose work an event has put into the queue. -/
def acceptedBy (next : Pool) : Event → List (Nat × Nat)
  | .send number =>
    match next.calls[number]? with
    | some ⟨work, .sent⟩ => [(number, work)]
    | _ => []
  | _ => []

/-- The call of a number, if it is about to be refused now. -/
def refusalOf (pool next : Pool) (number : Nat) : List Refusal :=
  match next.calls[number]? with
  | some ⟨_, .refusing cause⟩ => [⟨number, cause, pool.queue.length, pool.isShutDown⟩]
  | _ => []

/-- The call that an event has found to be refused. -/
def refusedBy (pool next : Pool) : Event → List Refusal
  | .call _ => pool.refusalOf next pool.calls.length
  | .send number => pool.refusalOf next number
  | _ => []

/-- What a worker has received by an event. -/
def receivedBy (next : Pool) : Event → List (Nat × Nat)
  | .receive number =>
    match next.stageOf? number with
    | some (.received work) => [(number, work)]
    | _ => []
  | _ => []

/-- The work that an event has begun to run. -/
def begunBy (next : Pool) : Event → List Nat
  | .begin number =>
    match next.stageOf? number with
    | some (.running work) => [work]
    | _ => []
  | _ => []

/-- The work that has ended by an event. -/
def endedBy (pool : Pool) : Event → List (Nat × WorkOutcome)
  | .finish number outcome =>
    match pool.stageOf? number with
    | some (.running work) => [(work, outcome)]
    | _ => []
  | _ => []

namespace Journal

/-- The record with what an event has added. -/
def note (journal : Journal) (event : Event) (next : Pool) : Journal where
  pool := next
  accepted := journal.accepted ++ next.acceptedBy event
  refused := journal.refused ++ journal.pool.refusedBy next event
  received := journal.received ++ next.receivedBy event
  begun := journal.begun ++ next.begunBy event
  ended := journal.ended ++ journal.pool.endedBy event

/-- The journal after an event, if the event is possible. -/
def step (journal : Journal) (event : Event) : Option Journal :=
  (journal.pool.step event).map (journal.note event)

/-- The journal after several events, if they are possible. -/
def run (journal : Journal) (events : List Event) : Option Journal := events.foldlM step journal

variable {journal next last : Journal} {event : Event}

theorem run_cons (journal : Journal) (event : Event) (events : List Event) :
    journal.run (event :: events) = (journal.step event).bind (·.run events) :=
  rfl

/-- What every event keeps, every run keeps. -/
theorem run_induction {motive : Journal → Prop}
    (hstep : ∀ {journal next event}, journal.step event = some next →
      motive journal → motive next) {events : List Event} (hrun : journal.run events = some last)
    (h : motive journal) : motive last :=
  foldlM_keeps hstep hrun h

theorem step_eq_some_iff :
    journal.step event = some next ↔
      ∃ pool, journal.pool.step event = some pool ∧ journal.note event pool = next :=
  Option.map_eq_some_iff

end Journal

end Pool

/-! ### What the stages say -/

/-- The work that a worker has received and not begun. -/
def WorkerStage.held : WorkerStage → List Nat
  | .received work | .holding work => [work]
  | _ => []

/-- The work that a worker runs. -/
def WorkerStage.running? : WorkerStage → List Nat
  | .running work => [work]
  | _ => []

/-- A call's work has come into the queue. -/
def CallStage.enters : CallStage → Nat
  | .sent | .counted | .reserving | .accepted => 1
  | _ => 0

/-- A call's work has been counted as accepted. -/
def CallStage.counts : CallStage → Nat
  | .counted | .reserving | .accepted => 1
  | _ => 0

/-- A call has been counted as refused. -/
def CallStage.refusals : CallStage → Nat
  | .refused _ => 1
  | _ => 0

/-- Why a call is, or is about to be, refused. -/
def CallStage.cause? : CallStage → Option EngineError
  | .refusing cause | .refused cause => some cause
  | _ => none

theorem WorkerStage.length_running (stage : WorkerStage) :
    stage.running?.length = stage.runs := by
  cases stage <;> rfl

namespace Pool

/-- What the workers have in their hands, in their order. -/
def gather (part : WorkerStage → List Nat) (pool : Pool) : List Nat :=
  pool.workers.flatMap fun worker ↦ part worker.stage

theorem count_gather (part : WorkerStage → List Nat) (pool : Pool) (work : Nat) :
    (pool.gather part).count work = pool.total fun worker ↦ (part worker.stage).count work :=
  List.count_flatMap

theorem length_gather (part : WorkerStage → List Nat) (pool : Pool) :
    (pool.gather part).length = pool.total fun worker ↦ (part worker.stage).length :=
  List.length_flatMap

variable {pool changed next : Pool} {event : Event} {number : Nat}

namespace WorkerSteps

variable {worker : Worker} {after : WorkerStage}

theorem stageOf?_eq (h : pool.WorkerSteps number worker event after changed)
    (hworker : pool.workers[number]? = some worker) :
    (changed.setStage number after).stageOf? number = some after := by
  rw [stageOf?, setStage, h.workers_eq, List.getElem?_modify, hworker]
  simp

/-- What leaves the queue is what the worker receives. -/
theorem queue_eq (h : pool.WorkerSteps number worker event after changed)
    (hworker : pool.workers[number]? = some worker) :
    pool.queue = ((changed.setStage number after).receivedBy event).map (·.2) ++
      changed.queue := by
  have hstage := h.stageOf?_eq hworker
  cases h with
  | receive _ hqueue =>
    simp only [receivedBy, hstage]
    exact hqueue
  | await | expire | close | rouse | quit | begin | finish | leave => rfl

/-- What a worker has in its hands it has received, and it goes when it is begun. -/
theorem held_eq (h : pool.WorkerSteps number worker event after changed)
    (hworker : pool.workers[number]? = some worker) :
    worker.stage.held ++ ((changed.setStage number after).receivedBy event).map (·.2) =
      (changed.setStage number after).begunBy event ++ after.held := by
  have hafter := h.stageOf?_eq hworker
  cases h with
  | receive hstage =>
    simp only [receivedBy, hafter, begunBy, hstage]
    rfl
  | begin hstage =>
    simp only [receivedBy, hafter, begunBy, hstage]
    rfl
  | await hstage | expire hstage | close hstage | rouse hstage | quit hstage | finish hstage
  | leave hstage =>
    rw [hstage]
    rfl

/-- What a worker runs it has begun, and it goes when it has ended. -/
theorem running_eq (h : pool.WorkerSteps number worker event after changed)
    (hworker : pool.workers[number]? = some worker) :
    worker.stage.running? ++ (changed.setStage number after).begunBy event =
      (pool.endedBy event).map (·.1) ++ after.running? := by
  have hafter := h.stageOf?_eq hworker
  cases h with
  | begin hstage =>
    simp only [begunBy, hafter, hstage]
    rfl
  | @finish work hstage =>
    have hbefore : pool.stageOf? number = some (.running work) := by
      rw [stageOf?, hworker, Option.map_some, hstage]
    simp only [endedBy, hbefore, hstage]
    rfl
  | await hstage | receive hstage | expire hstage | close hstage | rouse hstage | quit hstage
  | leave hstage =>
    rw [hstage]
    rfl

/-- The counters of what has ended change by what the event has ended. -/
theorem ended_eq (h : pool.WorkerSteps number worker event after changed)
    (hworker : pool.workers[number]? = some worker) :
    changed.counters.completed =
        pool.counters.completed + (pool.endedBy event).countP (·.2 = .completed) ∧
      changed.counters.panicked =
        pool.counters.panicked + (pool.endedBy event).countP (·.2 ≠ .completed) := by
  cases h with
  | @finish work hstage outcome =>
    have hbefore : pool.stageOf? number = some (.running work) := by
      rw [stageOf?, hworker, Option.map_some, hstage]
    simp only [endedBy, hbefore]
    cases outcome <;> exact ⟨rfl, rfl⟩
  | await | receive | expire | close | rouse | quit | begin | leave => exact ⟨rfl, rfl⟩

/-- A step of a worker neither accepts nor refuses, and counts neither. -/
theorem noted (h : pool.WorkerSteps number worker event after changed) :
    (changed.setStage number after).acceptedBy event = [] ∧
      pool.refusedBy (changed.setStage number after) event = [] ∧
      changed.calls = pool.calls ∧
      changed.counters.submitted = pool.counters.submitted ∧
      changed.counters.rejected = pool.counters.rejected := by
  cases h with
  | finish _ outcome => cases outcome <;> exact ⟨rfl, rfl, rfl, rfl, rfl⟩
  | await | receive | expire | close | rouse | quit | begin | leave =>
    exact ⟨rfl, rfl, rfl, rfl, rfl⟩

end WorkerSteps

/-! ### The flow of work -/

/-- Work flows from acceptance through the queue and the hands of a worker to its end. -/
structure Traced (journal : Journal) : Prop where
  order : journal.accepted.map (·.2) = journal.received.map (·.2) ++ journal.pool.queue
  held : (journal.received.map (·.2)).Perm (journal.begun ++ journal.pool.gather (·.held))
  running : journal.begun.Perm (journal.ended.map (·.1) ++ journal.pool.gather (·.running?))
  completed : journal.pool.counters.completed = journal.ended.countP (·.2 = .completed)
  panicked : journal.pool.counters.panicked = journal.ended.countP (·.2 ≠ .completed)

/-- What the workers have in their hands changes by what one of them has. -/
theorem perm_gather {worker : Worker} {after : WorkerStage} (part : WorkerStage → List Nat)
    (h : pool.WorkerSteps number worker event after changed)
    (hworker : pool.workers[number]? = some worker) :
    ((changed.setStage number after).gather part ++ part worker.stage).Perm
      (pool.gather part ++ part after) := by
  refine List.perm_iff_count.mpr fun work ↦ ?_
  rw [List.count_append, List.count_append, count_gather, count_gather]
  exact h.total_eq hworker fun worker ↦ (part worker.stage).count work

/-- If what has come in is what has gone out with what is inside, it stays so when what comes in and
goes out makes the difference to what is inside. -/
theorem perm_flow {arrived inward gone outward inside inside' before after : List Nat}
    (h : arrived.Perm (gone ++ inside)) (hinside : (inside' ++ before).Perm (inside ++ after))
    (hmove : before ++ inward = outward ++ after) :
    (arrived ++ inward).Perm ((gone ++ outward) ++ inside') := by
  refine List.perm_iff_count.mpr fun work ↦ ?_
  have harrived := List.perm_iff_count.mp h work
  have hchange := List.perm_iff_count.mp hinside work
  have hmoved := congrArg (List.count work) hmove
  simp only [List.count_append] at harrived hchange hmoved ⊢
  omega

namespace Traced

variable {journal : Journal}

theorem start (config : PoolConfig) (live count : Nat) (kind : WorkerKind) :
    Traced ⟨{ config, live, workers := List.replicate count { kind } }, [], [], [], [], []⟩ where
  order := rfl
  held := by simp [gather, WorkerStage.held]
  running := by simp [gather, WorkerStage.running?]
  completed := rfl
  panicked := rfl

theorem ofWorker (h : Traced journal) {worker : Worker} {after : WorkerStage}
    (hworker : journal.pool.workers[number]? = some worker)
    (hstep : journal.pool.WorkerSteps number worker event after changed) :
    Traced (journal.note event (changed.setStage number after)) := by
  obtain ⟨haccepted, -⟩ := hstep.noted
  obtain ⟨hcompleted, hpanicked⟩ := hstep.ended_eq hworker
  constructor
  case order =>
    change (journal.accepted ++ (changed.setStage number after).acceptedBy event).map (·.2) =
      (journal.received ++ (changed.setStage number after).receivedBy event).map (·.2) ++
        changed.queue
    rw [haccepted, List.append_nil, List.map_append, List.append_assoc, ← hstep.queue_eq hworker,
      h.order]
  case held =>
    have hflow := perm_flow h.held (perm_gather (·.held) hstep hworker) (hstep.held_eq hworker)
    rw [← List.map_append] at hflow
    exact hflow
  case running =>
    have hflow := perm_flow h.running (perm_gather (·.running?) hstep hworker)
      (hstep.running_eq hworker)
    rw [← List.map_append] at hflow
    exact hflow
  case completed =>
    change changed.counters.completed =
      (journal.ended ++ journal.pool.endedBy event).countP (·.2 = .completed)
    rw [List.countP_append, hcompleted, h.completed]
  case panicked =>
    change changed.counters.panicked =
      (journal.ended ++ journal.pool.endedBy event).countP (·.2 ≠ .completed)
    rw [List.countP_append, hpanicked, h.panicked]

/-- What only puts work into the queue keeps the flow. -/
theorem enqueued (h : Traced journal)
    (hqueue : next.queue = journal.pool.queue ++ (next.acceptedBy event).map (·.2))
    (hreceived : next.receivedBy event = []) (hbegun : next.begunBy event = [])
    (hended : journal.pool.endedBy event = [])
    (hgather : ∀ part : WorkerStage → List Nat, part .starting = [] →
      next.gather part = journal.pool.gather part)
    (hcompleted : next.counters.completed = journal.pool.counters.completed)
    (hpanicked : next.counters.panicked = journal.pool.counters.panicked) :
    Traced (journal.note event next) := by
  constructor
  case order =>
    simp only [Journal.note, hreceived, hqueue, List.map_append, h.order, List.append_nil,
      List.append_assoc]
  case held =>
    simp only [Journal.note, hreceived, hbegun, List.append_nil]
    rw [hgather _ rfl]
    exact h.held
  case running =>
    simp only [Journal.note, hbegun, hended, List.append_nil]
    rw [hgather _ rfl]
    exact h.running
  case completed =>
    simp only [Journal.note, hended, List.append_nil]
    rw [hcompleted, h.completed]
  case panicked =>
    simp only [Journal.note, hended, List.append_nil]
    rw [hpanicked, h.panicked]

end Traced

namespace CallSteps

variable {call : Call} {after : CallStage}

theorem calls_eq (h : pool.CallSteps number call event after changed) :
    changed.calls = pool.calls := by
  cases h <;> rfl

theorem getElem?_calls (h : pool.CallSteps number call event after changed)
    (hcall : pool.calls[number]? = some call) (other : Nat) :
    (changed.setCall number after).calls[other]? =
      if number = other then some { call with stage := after } else pool.calls[other]? := by
  rw [setCall, h.calls_eq, List.getElem?_modify]
  by_cases hother : number = other
  · subst hother
    simp [hcall]
  · simp [hother]

/-- The work that comes into the queue is that of the call that the event accepts. -/
theorem acceptedBy_eq (h : pool.CallSteps number call event after changed)
    (hcall : pool.calls[number]? = some call) :
    (changed.setCall number after).acceptedBy event =
      if after = .sent then [(number, call.work)] else [] := by
  have hafter := (h.getElem?_calls hcall number).trans (if_pos rfl)
  cases h with
  | findClosed | findFull | send =>
    simp only [acceptedBy, hafter]
    rfl
  | countSent | countRefused | findIdle | findBusy | reserve | reserveNone => rfl

theorem queue_eq (h : pool.CallSteps number call event after changed)
    (hcall : pool.calls[number]? = some call) :
    changed.queue = pool.queue ++ ((changed.setCall number after).acceptedBy event).map (·.2) := by
  rw [h.acceptedBy_eq hcall]
  cases h with
  | send => rfl
  | findClosed | findFull | countSent | countRefused | findIdle | findBusy | reserve
  | reserveNone => exact (List.append_nil _).symm

theorem gather_eq (h : pool.CallSteps number call event after changed)
    {part : WorkerStage → List Nat} (hpart : part .starting = []) :
    changed.gather part = pool.gather part := by
  cases h with
  | reserve => simp [gather, hpart]
  | findClosed | findFull | send | countSent | countRefused | findIdle | findBusy | reserveNone =>
    rfl

/-- A step of a call has no part in what happens to work behind the queue. -/
theorem noted (h : pool.CallSteps number call event after changed) :
    (changed.setCall number after).receivedBy event = [] ∧
      (changed.setCall number after).begunBy event = [] ∧ pool.endedBy event = [] ∧
      changed.counters.completed = pool.counters.completed ∧
      changed.counters.panicked = pool.counters.panicked := by
  cases h <;> exact ⟨rfl, rfl, rfl, rfl, rfl⟩

/-- A call is accepted when its work comes into the queue, and only then. -/
theorem enters_eq (h : pool.CallSteps number call event after changed) :
    after.enters = call.stage.enters + if after = .sent then 1 else 0 := by
  cases h with
  | findClosed hstage | findFull hstage | send hstage | countSent hstage | countRefused hstage
  | findIdle hstage | findBusy hstage | reserve hstage | reserveNone hstage =>
    rw [hstage]
    rfl

/-- The counters of accepted and of refused calls change by what the call counts for. -/
theorem submitted_eq (h : pool.CallSteps number call event after changed) :
    changed.counters.submitted + call.stage.counts = pool.counters.submitted + after.counts := by
  cases h with
  | findClosed hstage | findFull hstage | send hstage | countSent hstage | countRefused hstage
  | findIdle hstage | findBusy hstage | reserve hstage | reserveNone hstage =>
    rw [hstage]
    rfl

theorem rejected_eq (h : pool.CallSteps number call event after changed) :
    changed.counters.rejected + call.stage.refusals = pool.counters.rejected + after.refusals := by
  cases h with
  | findClosed hstage | findFull hstage | send hstage | countSent hstage | countRefused hstage
  | findIdle hstage | findBusy hstage | reserve hstage | reserveNone hstage =>
    rw [hstage]
    rfl

/-- What the event finds to be refused is the call, and for the cause that it goes on with. -/
theorem refusedBy_eq (h : pool.CallSteps number call event after changed)
    (hcall : pool.calls[number]? = some call) :
    pool.refusedBy (changed.setCall number after) event =
      match after with
      | .refusing cause => [⟨number, cause, pool.queue.length, pool.isShutDown⟩]
      | _ => [] := by
  have hafter := (h.getElem?_calls hcall number).trans (if_pos rfl)
  cases h with
  | findClosed | findFull | send => simp only [refusedBy, refusalOf, hafter]
  | countSent | countRefused | findIdle | findBusy | reserve | reserveNone => rfl

theorem config_eq (h : pool.CallSteps number call event after changed) :
    changed.config = pool.config := by
  cases h <;> rfl

/-- A call that is, or is about to be, refused has found it so now or before. -/
theorem cause_cases (h : pool.CallSteps number call event after changed) {cause : EngineError}
    (hcause : after.cause? = some cause) :
    after = .refusing cause ∨ call.stage.cause? = some cause := by
  cases h with
  | findClosed | findFull =>
    obtain rfl := Option.some.inj hcause
    exact .inl rfl
  | countRefused hstage =>
    rw [hstage]
    exact .inr hcause
  | send | countSent | findIdle | findBusy | reserve | reserveNone => cases hcause

end CallSteps

/-! ### The calls -/

/-- A number summed up over the calls. -/
def totalCalls (count : CallStage → Nat) (pool : Pool) : Nat :=
  (pool.calls.map fun call ↦ count call.stage).sum

theorem totalCalls_setCall {call : Call} {after : CallStage}
    (h : pool.CallSteps number call event after changed)
    (hcall : pool.calls[number]? = some call) (count : CallStage → Nat) :
    (changed.setCall number after).totalCalls count + count call.stage =
      pool.totalCalls count + count after := by
  rw [totalCalls, setCall, h.calls_eq]
  exact sum_modify hcall _ fun call ↦ count call.stage

theorem totalCalls_concat (pool : Pool) (call : Call) (count : CallStage → Nat) :
    totalCalls count { pool with calls := pool.calls ++ [call] } =
      pool.totalCalls count + count call.stage := by
  simp only [totalCalls, List.map_append, List.map_singleton, List.sum_append, List.sum_singleton]

/-- A call is refused for a full queue only if the queue was full at the time, and for a shutdown
only if the pool was shut down. -/
def Refusal.Justified (refusal : Refusal) (config : PoolConfig) : Prop :=
  refusal.cause = .queueFull ∧ refusal.depth = config.maxQueueDepth ∨
    refusal.cause = .shutDown ∧ refusal.isShutDown = true

theorem CallSteps.justified {call : Call} {after : CallStage}
    (h : pool.CallSteps number call event after changed) (hstaffed : pool.Staffed)
    (hcall : pool.calls[number]? = some call) :
    ∀ refusal ∈ pool.refusedBy (changed.setCall number after) event,
      refusal.Justified pool.config := by
  rw [h.refusedBy_eq hcall]
  cases h with
  | findClosed _ hclosed =>
    intro refusal hmem
    obtain rfl := List.mem_singleton.mp hmem
    exact .inr ⟨rfl, hstaffed.closed hclosed⟩
  | findFull _ _ hfull =>
    intro refusal hmem
    obtain rfl := List.mem_singleton.mp hmem
    exact .inl ⟨rfl, Nat.le_antisymm hstaffed.depth hfull⟩
  | send | countSent | countRefused | findIdle | findBusy | reserve | reserveNone => nofun

/-- Every call stands where the record and the counters say. -/
structure Called (journal : Journal) : Prop where
  submitted : journal.pool.counters.submitted = journal.pool.totalCalls (·.counts)
  rejected : journal.pool.counters.rejected = journal.pool.totalCalls (·.refusals)
  length_accepted : journal.accepted.length = journal.pool.totalCalls (·.enters)
  mem_accepted : ∀ number work, (number, work) ∈ journal.accepted ↔
    ∃ call, journal.pool.calls[number]? = some call ∧ call.work = work ∧ call.stage.enters = 1
  nodup : (journal.accepted.map (·.1)).Nodup
  justified : ∀ refusal ∈ journal.refused, refusal.Justified journal.pool.config
  refused : ∀ (number : Nat) (call : Call) (cause : EngineError),
    journal.pool.calls[number]? = some call → call.stage.cause? = some cause →
      ∃ refusal ∈ journal.refused, refusal.call = number ∧ refusal.cause = cause

theorem getElem?_calls_concat {calls : List Call} {call found : Call} :
    (calls ++ [call])[number]? = some found ↔
      calls[number]? = some found ∨ number = calls.length ∧ call = found := by
  rcases Nat.lt_trichotomy number calls.length with hlt | rfl | hgt
  · simp [List.getElem?_append_left hlt, Nat.ne_of_lt hlt]
  · simp
  · have hnone : calls[number]? = none := List.getElem?_eq_none (Nat.le_of_lt hgt)
    have hlast : (calls ++ [call])[number]? = none :=
      List.getElem?_eq_none (by simpa using Nat.succ_le_of_lt hgt)
    simp [hnone, hlast, Nat.ne_of_gt hgt]

/-- A call that begins after the shutdown is about to be refused. -/
theorem refusedBy_call (pool : Pool) (work : Nat) :
    pool.refusedBy { pool with calls := pool.calls ++ [⟨work, pool.firstStage⟩] } (.call work) =
      if pool.isShutDown then
        [⟨pool.calls.length, .shutDown, pool.queue.length, pool.isShutDown⟩]
      else [] := by
  have hnew : (pool.calls ++ [⟨work, pool.firstStage⟩])[pool.calls.length]? =
      some ⟨work, pool.firstStage⟩ :=
    getElem?_calls_concat.mpr (.inr ⟨rfl, rfl⟩)
  simp only [refusedBy, refusalOf, hnew]
  by_cases hshut : pool.isShutDown = true
  · rw [firstStage, if_pos hshut, if_pos hshut]
  · rw [firstStage, if_neg hshut, if_neg hshut]

namespace Called

variable {journal : Journal}

theorem start (pool : Pool) (hcalls : pool.calls = []) (hcounters : pool.counters = {}) :
    Called ⟨pool, [], [], [], [], []⟩ where
  submitted := by simp [totalCalls, hcalls, hcounters]
  rejected := by simp [totalCalls, hcalls, hcounters]
  length_accepted := by simp [totalCalls, hcalls]
  mem_accepted := by simp [hcalls]
  nodup := .nil
  justified := nofun
  refused := by simp [hcalls]

/-- What has no part in the calls keeps what is said about them. -/
theorem congr (h : Called journal) (haccepted : next.acceptedBy event = [])
    (hrefused : journal.pool.refusedBy next event = [])
    (hconfig : next.config = journal.pool.config) (hcalls : next.calls = journal.pool.calls)
    (hsubmitted : next.counters.submitted = journal.pool.counters.submitted)
    (hrejected : next.counters.rejected = journal.pool.counters.rejected) :
    Called (journal.note event next) := by
  have htotal : ∀ count, next.totalCalls count = journal.pool.totalCalls count := fun count ↦ by
    rw [totalCalls, hcalls, totalCalls]
  constructor
  case submitted => exact hsubmitted.trans (h.submitted.trans (htotal _).symm)
  case rejected => exact hrejected.trans (h.rejected.trans (htotal _).symm)
  case length_accepted =>
    simp only [Journal.note, haccepted, List.append_nil]
    exact h.length_accepted.trans (htotal _).symm
  case mem_accepted =>
    simp only [Journal.note, haccepted, List.append_nil, hcalls]
    exact h.mem_accepted
  case nodup =>
    simp only [Journal.note, haccepted, List.append_nil]
    exact h.nodup
  case justified =>
    simp only [Journal.note, hrefused, List.append_nil, hconfig]
    exact h.justified
  case refused =>
    simp only [Journal.note, hrefused, List.append_nil, hcalls]
    exact h.refused

/-- A call whose work is about to come into the queue is not among the accepted ones yet. -/
theorem not_mem_accepted (h : Called journal) {call : Call} {work : Nat}
    (hcall : journal.pool.calls[number]? = some call) (henters : call.stage.enters = 0) :
    (number, work) ∉ journal.accepted := by
  intro hmem
  obtain ⟨found, hfound, -, hentered⟩ := (h.mem_accepted number work).mp hmem
  obtain rfl := Option.some.inj (hcall.symm.trans hfound)
  rw [henters] at hentered
  cases hentered

/-- A step of a call keeps what is said about the calls. -/
theorem ofCall (h : Called journal) (hstaffed : journal.pool.Staffed) {call : Call}
    {after : CallStage} (hcall : journal.pool.calls[number]? = some call)
    (hstep : journal.pool.CallSteps number call event after changed) :
    Called (journal.note event (changed.setCall number after)) := by
  have hcalls := hstep.getElem?_calls hcall
  have haccepted := hstep.acceptedBy_eq hcall
  have henters := hstep.enters_eq
  have htotal := totalCalls_setCall hstep hcall
  constructor
  case submitted =>
    have hchange := htotal (·.counts)
    rw [← h.submitted, ← hstep.submitted_eq] at hchange
    exact (Nat.add_right_cancel hchange).symm
  case rejected =>
    have hchange := htotal (·.refusals)
    rw [← h.rejected, ← hstep.rejected_eq] at hchange
    exact (Nat.add_right_cancel hchange).symm
  case length_accepted =>
    have hchange := htotal (·.enters)
    have hlength : ((changed.setCall number after).acceptedBy event).length =
        if after = .sent then 1 else 0 := by
      rw [haccepted]
      split <;> rfl
    change (journal.accepted ++ (changed.setCall number after).acceptedBy event).length =
      (changed.setCall number after).totalCalls (·.enters)
    rw [List.length_append, hlength, h.length_accepted]
    omega
  case mem_accepted =>
    intro other work
    change (other, work) ∈ journal.accepted ++ (changed.setCall number after).acceptedBy event ↔
      ∃ found, (changed.setCall number after).calls[other]? = some found ∧
        found.work = work ∧ found.stage.enters = 1
    rw [List.mem_append, h.mem_accepted, hcalls, haccepted]
    by_cases hother : number = other
    · subst hother
      by_cases hsent : after = .sent
      · have hentered : CallStage.sent.enters = 1 := rfl
        simp only [hcall, hsent, hentered, if_true, Option.some.injEq, exists_eq_left', and_true,
          List.mem_singleton, Prod.mk.injEq, true_and, eq_comm (a := work)]
        exact or_iff_right_of_imp And.left
      · rw [if_neg hsent, Nat.add_zero] at henters
        simp [hcall, hsent, henters]
    · have hnew : (other, work) ∉ if after = .sent then [(number, call.work)] else [] := by
        split <;> simp [Ne.symm hother]
      simp only [if_neg hother, hnew, or_false]
  case nodup =>
    change ((journal.accepted ++ (changed.setCall number after).acceptedBy event).map
      (·.1)).Nodup
    rw [haccepted]
    by_cases hsent : after = .sent
    · have hzero : call.stage.enters = 0 := by
        rw [if_pos hsent, hsent] at henters
        exact Nat.add_right_cancel (henters.symm.trans (Nat.zero_add 1).symm)
      rw [if_pos hsent, List.map_append, List.nodup_append]
      refine ⟨h.nodup, by simp, ?_⟩
      rintro _ hold _ hnew rfl
      obtain ⟨⟨other, work⟩, hmem, rfl⟩ := List.mem_map.mp hold
      obtain rfl : other = number := List.mem_singleton.mp hnew
      exact h.not_mem_accepted hcall hzero hmem
    · rw [if_neg hsent, List.append_nil]
      exact h.nodup
  case justified =>
    intro refusal hmem
    change refusal.Justified changed.config
    rw [hstep.config_eq]
    rcases List.mem_append.mp hmem with hold | hnew
    · exact h.justified refusal hold
    · exact hstep.justified hstaffed hcall refusal hnew
  case refused =>
    intro other found cause hfound hcause
    change (changed.setCall number after).calls[other]? = some found at hfound
    rw [hcalls] at hfound
    have hold : ∀ refusal ∈ journal.refused,
        refusal ∈ (journal.note event (changed.setCall number after)).refused :=
      fun refusal hmem ↦ List.mem_append_left _ hmem
    by_cases hother : number = other
    · subst hother
      rw [if_pos rfl] at hfound
      obtain rfl := Option.some.inj hfound
      rcases hstep.cause_cases hcause with rfl | hbefore
      · refine ⟨⟨number, cause, journal.pool.queue.length, journal.pool.isShutDown⟩, ?_, rfl, rfl⟩
        refine List.mem_append_right _ ?_
        rw [hstep.refusedBy_eq hcall]
        exact List.mem_singleton_self _
      · obtain ⟨refusal, hmem, hrefusal⟩ := h.refused number call cause hcall hbefore
        exact ⟨refusal, hold refusal hmem, hrefusal⟩
    · rw [if_neg hother] at hfound
      obtain ⟨refusal, hmem, hrefusal⟩ := h.refused other found cause hfound hcause
      exact ⟨refusal, hold refusal hmem, hrefusal⟩

/-- A call begins after all the others, and it is refused at once if the pool is shut down. -/
theorem call (h : Called journal) (work : Nat) :
    Called (journal.note (.call work) { journal.pool with
      calls := journal.pool.calls ++ [⟨work, journal.pool.firstStage⟩] }) := by
  have hidle : journal.pool.firstStage.enters = 0 ∧ journal.pool.firstStage.counts = 0 ∧
      journal.pool.firstStage.refusals = 0 := by
    unfold firstStage
    split <;> exact ⟨rfl, rfl, rfl⟩
  have htotal : ∀ count : CallStage → Nat, count journal.pool.firstStage = 0 →
      totalCalls count { journal.pool with
        calls := journal.pool.calls ++ [⟨work, journal.pool.firstStage⟩] } =
          journal.pool.totalCalls count := by
    intro count hcount
    rw [totalCalls_concat, hcount, Nat.add_zero]
  have hrefused := refusedBy_call journal.pool work
  constructor
  case submitted => exact h.submitted.trans (htotal _ hidle.2.1).symm
  case rejected => exact h.rejected.trans (htotal _ hidle.2.2).symm
  case length_accepted =>
    simp only [Journal.note, acceptedBy, List.append_nil]
    exact h.length_accepted.trans (htotal _ hidle.1).symm
  case mem_accepted =>
    intro number other
    simp only [Journal.note, acceptedBy, List.append_nil, h.mem_accepted, getElem?_calls_concat]
    constructor
    · rintro ⟨found, hfound, hrest⟩
      exact ⟨found, .inl hfound, hrest⟩
    · rintro ⟨found, hfound | ⟨-, rfl⟩, hrest⟩
      · exact ⟨found, hfound, hrest⟩
      · rw [hidle.1] at hrest
        cases hrest.2
  case nodup =>
    simp only [Journal.note, acceptedBy, List.append_nil]
    exact h.nodup
  case justified =>
    intro refusal hmem
    rcases List.mem_append.mp hmem with hold | hnew
    · exact h.justified refusal hold
    · rw [hrefused] at hnew
      split at hnew
      · next hshut =>
        obtain rfl := List.mem_singleton.mp hnew
        exact .inr ⟨rfl, hshut⟩
      · cases hnew
  case refused =>
    intro number found cause hfound hcause
    rcases getElem?_calls_concat.mp hfound with hold | ⟨rfl, rfl⟩
    · obtain ⟨refusal, hmem, hrefusal⟩ := h.refused number found cause hold hcause
      exact ⟨refusal, List.mem_append_left _ hmem, hrefusal⟩
    · unfold firstStage at hcause
      split at hcause
      · next hshut =>
        obtain rfl := Option.some.inj hcause
        refine ⟨⟨journal.pool.calls.length, .shutDown, journal.pool.queue.length,
          journal.pool.isShutDown⟩, List.mem_append_right _ ?_, rfl, rfl⟩
        rw [hrefused, if_pos hshut]
        exact List.mem_singleton_self _
      · cases hcause

end Called

/-! ### Every event and every run -/

/-- The workforce, the flow of work and the calls are in order. -/
structure Journal.Sound (journal : Journal) : Prop where
  staffed : journal.pool.Staffed
  traced : Traced journal
  called : Called journal

namespace Journal

variable {journal last : Journal}

/-- A journal that begins with a pool. -/
def start (pool : Pool) : Journal where
  pool := pool

theorem Sound.start {config : PoolConfig} (h : config.fault? = none) :
    (start
      { config
        live := config.coreWorkers
        workers := List.replicate config.coreWorkers { kind := .core } }).Sound where
  staffed := .start h
  traced := .start ..
  called := .start _ rfl rfl

theorem Sound.step {next : Journal} (h : journal.Sound)
    (hstep : journal.step event = some next) : next.Sound := by
  obtain ⟨pool, hpool, rfl⟩ := step_eq_some_iff.mp hstep
  refine ⟨h.staffed.step hpool, ?_, ?_⟩
  · cases steps_of_step hpool with
    | ofCall hcall hcallStep =>
      obtain ⟨hreceived, hbegun, hended, hcompleted, hpanicked⟩ := hcallStep.noted
      exact h.traced.enqueued (hcallStep.queue_eq hcall) hreceived hbegun hended
        (fun _ hpart ↦ hcallStep.gather_eq hpart) hcompleted hpanicked
    | ofWorker hworker hworkerStep => exact h.traced.ofWorker hworker hworkerStep
    | call | shutDown | closeQueue =>
      exact h.traced.enqueued (List.append_nil _).symm rfl rfl rfl (fun _ _ ↦ rfl) rfl rfl
  · cases steps_of_step hpool with
    | call work => exact h.called.call work
    | ofCall hcall hcallStep => exact h.called.ofCall h.staffed hcall hcallStep
    | ofWorker _ hworkerStep =>
      obtain ⟨haccepted, hrefused, hcalls, hsubmitted, hrejected⟩ := hworkerStep.noted
      exact h.called.congr haccepted hrefused hworkerStep.config_eq hcalls hsubmitted hrejected
    | shutDown | closeQueue => exact h.called.congr rfl rfl rfl rfl rfl rfl

theorem Sound.run (h : journal.Sound) {events : List Event}
    (hrun : journal.run events = some last) : last.Sound :=
  run_induction (fun hstep h ↦ h.step hstep) hrun h

/-- Nothing is accepted once the queue is closed, and it stays closed. -/
theorem closed_step {next : Journal} (hclosed : journal.pool.isOpen = false)
    (hstep : journal.step event = some next) :
    next.pool.isOpen = false ∧ next.accepted = journal.accepted := by
  obtain ⟨pool, hpool, rfl⟩ := step_eq_some_iff.mp hstep
  have hnone : ∀ {pool : Pool}, pool.acceptedBy event = [] →
      (journal.note event pool).accepted = journal.accepted := fun h ↦ by
    rw [note, h, List.append_nil]
  cases steps_of_step hpool with
  | call | shutDown => exact ⟨hclosed, hnone rfl⟩
  | closeQueue => exact ⟨rfl, hnone rfl⟩
  | ofWorker _ hworkerStep =>
    exact ⟨hworkerStep.isOpen_eq.trans hclosed, hnone hworkerStep.noted.1⟩
  | ofCall hcall hcallStep =>
    have haccepted := hcallStep.acceptedBy_eq hcall
    cases hcallStep with
    | send _ hopen =>
      rw [hclosed] at hopen
      cases hopen
    | findClosed | findFull | countSent | countRefused | findIdle | findBusy | reserve
    | reserveNone => exact ⟨hclosed, hnone haccepted⟩

theorem closed_run (hclosed : journal.pool.isOpen = false) {events : List Event}
    (hrun : journal.run events = some last) :
    last.pool.isOpen = false ∧ last.accepted = journal.accepted :=
  run_induction
    (motive := fun later ↦ later.pool.isOpen = false ∧ later.accepted = journal.accepted)
    (fun hstep h ↦ ⟨(closed_step h.1 hstep).1, (closed_step h.1 hstep).2.trans h.2⟩) hrun
    ⟨hclosed, rfl⟩

end Journal

end Pool

end Admission
