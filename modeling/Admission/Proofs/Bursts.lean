import Admission.Proofs.Conservation

/-!
# When a burst worker is started

A call of submit starts a burst worker if it finds nobody idle and fewer workers than there may be.
A worker counts as idle until it has woken up, so a call can be misled: it counts on a worker that
is about to take other work, or it finds the pool full of workers one of whom is about to leave. Its
work then waits behind work that runs, though there is room for another worker
(`waits_behind_running`).

Nothing else keeps work waiting. Work in the queue has a worker that comes for it, a call that may
yet start one, or a misled call since the queue was last empty, unless there are as many workers as
there may be. This is so at the start, and every event keeps it (`Covered`, `Watched.Sound.step`).
So when no call is midway and every worker runs work or waits at an empty queue, there are as many
workers as there may be, or no more work waits than calls were misled (`waits_only_misled`).
-/

set_option autoImplicit false
set_option relaxedAutoImplicit false

namespace Admission

/-- A worker that waits for work, or is about to, comes for the next work. -/
def WorkerStage.comes : WorkerStage → Nat
  | .starting | .waiting => 1
  | _ => 0

/-- A worker that is not on its way out takes up room. -/
def WorkerStage.stays : WorkerStage → Nat
  | .quitting | .leaving | .gone => 0
  | _ => 1

/-- A call whose work is in the queue may start a worker until it is over. -/
def CallStage.mayHire : CallStage → Nat
  | .sent | .counted | .reserving => 1
  | _ => 0

namespace Pool

/-! ### Calls that are misled -/

/-- More work waits than there are workers to come for it and calls that may yet start one, and
there is room for another worker. -/
def Short (pool : Pool) : Prop :=
  pool.total (·.stage.comes) + pool.totalCalls (·.mayHire) < pool.queue.length ∧
    pool.total (·.stage.stays) < pool.config.maxWorkers

instance (pool : Pool) : Decidable pool.Short := inferInstanceAs (Decidable (_ ∧ _))

/-- An event ends a call whose work is in the queue, and no worker is started. -/
def passes (pool next : Pool) : Event → Bool
  | .look number => (next.calls[number]?).any (·.stage = .accepted)
  | .reserve _ => next.workers.length = pool.workers.length
  | _ => false

/-- An event ends a call that starts no worker and leaves the pool short of workers. -/
def misledBy (pool next : Pool) (event : Event) : Nat :=
  if pool.passes next event ∧ next.Short then 1 else 0

/-- What misleads a call. A worker counts as idle that is spoken for: it has taken other work, it
has given up waiting, or it waits and there is earlier work for it, as more work waits than workers
come for. Or the pool is full of workers that count as alive, and a burst worker among them is about
to leave. -/
inductive Misleads (pool : Pool) : Event → Prop
  | idle {number : Nat} {worker : Worker} (hidle : 0 < pool.idle) (hworker : worker ∈ pool.workers)
      (hstage : (∃ work, worker.stage = .received work) ∨ worker.stage = .quitting ∨
        worker.stage = .waiting)
      (hqueue : pool.total (·.stage.comes) < pool.queue.length) :
    Misleads pool (.look number)
  | live {number : Nat} {worker : Worker} (hfull : pool.live = pool.config.maxWorkers)
      (hworker : worker ∈ pool.workers) (hkind : worker.kind = .burst)
      (hstage : worker.stage = .quitting ∨ worker.stage = .leaving) :
    Misleads pool (.reserve number)

/-- A pool with the number of calls that have been misled since its queue was last empty. -/
structure Watched where
  pool : Pool
  misled : Nat := 0

namespace Watched

/-- The pool after an event, with the calls misled. -/
def note (watched : Watched) (event : Event) (next : Pool) : Watched where
  pool := next
  misled := if next.queue = [] then 0 else watched.misled + watched.pool.misledBy next event

/-- The pool after an event, if the event is possible. -/
def step (watched : Watched) (event : Event) : Option Watched :=
  (watched.pool.step event).map (watched.note event)

/-- The pool after several events, if they are possible. -/
def run (watched : Watched) (events : List Event) : Option Watched := events.foldlM step watched

variable {watched next last : Watched} {event : Event}

theorem run_append (watched : Watched) (first second : List Event) :
    watched.run (first ++ second) = (watched.run first).bind (·.run second) :=
  List.foldlM_append

theorem step_eq_some_iff :
    watched.step event = some next ↔
      ∃ pool, watched.pool.step event = some pool ∧ watched.note event pool = next :=
  Option.map_eq_some_iff

end Watched

variable {pool next changed : Pool} {event : Event} {number misled : Nat}

theorem passes_of_misled (h : 0 < pool.misledBy next event) :
    pool.passes next event = true ∧ next.Short := by
  by_contra hnot
  rw [misledBy, if_neg hnot] at h
  cases h

/-- If fewer workers stay than count as alive, one of them is about to leave. -/
theorem exists_leaving (h : pool.total (·.stage.stays) < pool.total (·.stage.lives)) :
    ∃ worker ∈ pool.workers, worker.stage = .quitting ∨ worker.stage = .leaving := by
  by_contra hnone
  push Not at hnone
  refine absurd h (Nat.not_lt.mpr (List.sum_le_sum fun worker hmem ↦ ?_))
  obtain ⟨hquitting, hleaving⟩ := hnone worker hmem
  cases hstage : worker.stage with
  | quitting => exact absurd hstage hquitting
  | leaving => exact absurd hstage hleaving
  | starting | waiting | received | holding | running | gone => exact Nat.le_refl _

/-- If anybody counts as idle, it is a worker that waits or has not yet woken up from waiting. -/
theorem Staffed.exists_idle (h : pool.Staffed) (hidle : 0 < pool.idle) :
    ∃ worker ∈ pool.workers, (∃ work, worker.stage = .received work) ∨
      worker.stage = .quitting ∨ worker.stage = .waiting := by
  rw [h.idle] at hidle
  obtain ⟨count, hcount, hpos⟩ := List.sum_pos_iff_exists_pos_nat.mp hidle
  obtain ⟨worker, hworker, rfl⟩ := List.mem_map.mp hcount
  refine ⟨worker, hworker, ?_⟩
  cases hstage : worker.stage with
  | received work => exact .inl ⟨work, rfl⟩
  | quitting => exact .inr (.inl rfl)
  | waiting => exact .inr (.inr rfl)
  | starting | holding | running | leaving | gone =>
    rw [hstage] at hpos
    cases hpos

/-- A core worker does not leave work that waits. -/
theorem Staffed.burst_of_leaving (h : pool.Staffed) (hqueue : pool.queue ≠ []) {worker : Worker}
    (hworker : worker ∈ pool.workers) (hleaving : worker.stage.isLeaving = true) :
    worker.kind = .burst := by
  cases hkind : worker.kind with
  | burst => rfl
  | core => exact absurd (h.exits worker hworker hkind hleaving).2 hqueue

/-- A call that is misled has been misled by a worker. -/
theorem Staffed.misleads (h : pool.Staffed) (hstep : pool.step event = some next)
    (hmisled : 0 < pool.misledBy next event) : pool.Misleads event := by
  obtain ⟨hpasses, hqueue, hroom⟩ := passes_of_misled hmisled
  cases steps_of_step hstep with
  | call | shutDown | closeQueue => cases hpasses
  | ofWorker _ hworkerStep => cases hworkerStep <;> cases hpasses
  | @ofCall number call _ after changed hcall hcallStep =>
    have hafter := (hcallStep.getElem?_calls hcall number).trans (if_pos rfl)
    cases hcallStep with
    | findClosed | findFull | send | countSent | countRefused => cases hpasses
    | findIdle _ hidle =>
      obtain ⟨worker, hworker, hstage⟩ := h.exists_idle hidle
      exact .idle hidle hworker hstage ((Nat.le_add_right ..).trans_lt hqueue)
    | findBusy =>
      rw [passes, hafter] at hpasses
      cases hpasses
    | reserve => simp [passes, setCall] at hpasses
    | reserveNone _ hfull =>
      have hlive := Nat.le_antisymm h.live_le hfull
      have hless : pool.total (·.stage.stays) < pool.total (·.stage.lives) := by
        rw [← h.live, hlive]
        exact hroom
      obtain ⟨worker, hworker, hstage⟩ := exists_leaving hless
      refine .live hlive hworker (h.burst_of_leaving ?_ hworker ?_) hstage
      · exact List.ne_nil_of_length_pos ((Nat.zero_le _).trans_lt hqueue)
      · rcases hstage with hstage | hstage <;> rw [hstage] <;> rfl

/-! ### What becomes of work that waits -/

/-- For all the work that waits there are workers to come, calls that may yet start one and a number
of misled calls, or there are as many workers as there may be. -/
def Covered (misled : Nat) (pool : Pool) : Prop :=
  pool.queue.length ≤ pool.total (·.stage.comes) + pool.totalCalls (·.mayHire) + misled ∨
    pool.config.maxWorkers ≤ pool.total (·.stage.stays)

theorem Covered.mono (h : pool.Covered misled) {more : Nat} (hle : misled ≤ more) :
    pool.Covered more :=
  h.imp_left fun hqueue ↦ hqueue.trans (Nat.add_le_add_left hle _)

theorem covered_of_queue_eq_nil (h : pool.queue = []) (misled : Nat) : pool.Covered misled := by
  rw [Covered, h]
  exact .inl (Nat.zero_le _)

/-- A pool that is not short of workers needs no call to have been misled. -/
theorem covered_of_not_short (h : ¬pool.Short) (misled : Nat) : pool.Covered misled := by
  rw [Short, not_and_or, Nat.not_lt, Nat.not_lt] at h
  exact h.imp_left fun hqueue ↦ hqueue.trans (Nat.le_add_right ..)

/-- A call that ends without starting a worker leaves its work without cover only if it is
misled. -/
theorem covered_of_passes (hpasses : pool.passes next event = true)
    (h : next.Covered (misled + 1)) : next.Covered (misled + pool.misledBy next event) := by
  by_cases hshort : next.Short
  · rw [misledBy, if_pos ⟨hpasses, hshort⟩]
    exact h
  · exact covered_of_not_short hshort _

namespace WorkerSteps

variable {worker : Worker} {after : WorkerStage}

/-- A worker goes away from work that waits only when it takes some of it. -/
theorem comes_le (h : pool.WorkerSteps number worker event after changed) :
    changed.queue = [] ∨
      changed.queue.length + worker.stage.comes ≤ pool.queue.length + after.comes ∧
        after.stays = worker.stage.stays := by
  cases h with
  | receive hstage hqueue =>
    rw [hstage, hqueue]
    exact .inr ⟨Nat.le_refl _, rfl⟩
  | expire _ _ hqueue | close _ _ hqueue => exact .inl hqueue
  | await hstage | rouse hstage | quit hstage | begin hstage | leave hstage =>
    rw [hstage]
    exact .inr ⟨Nat.le_refl _, rfl⟩
  | finish hstage =>
    rw [hstage]
    exact .inr ⟨Nat.le_add_right _ 1, rfl⟩

theorem covered (h : pool.WorkerSteps number worker event after changed)
    (hworker : pool.workers[number]? = some worker) (hcovered : pool.Covered misled) :
    (changed.setStage number after).Covered misled := by
  have hcomes : (changed.setStage number after).total (·.stage.comes) + worker.stage.comes =
      pool.total (·.stage.comes) + after.comes :=
    h.total_eq hworker (·.stage.comes)
  have hstays : (changed.setStage number after).total (·.stage.stays) + worker.stage.stays =
      pool.total (·.stage.stays) + after.stays :=
    h.total_eq hworker (·.stage.stays)
  have hcalls : (changed.setStage number after).totalCalls (·.mayHire) =
      pool.totalCalls (·.mayHire) :=
    congrArg (fun calls ↦ (calls.map fun call : Call ↦ call.stage.mayHire).sum) h.noted.2.2.1
  have hconfig : (changed.setStage number after).config = pool.config := h.config_eq
  rcases h.comes_le with hqueue | ⟨hqueue, hkept⟩
  · have hempty : (changed.setStage number after).queue = [] := hqueue
    exact covered_of_queue_eq_nil hempty misled
  · change changed.queue.length ≤ _ ∨ _
    rw [Covered] at hcovered
    rw [hcalls, hconfig]
    omega

end WorkerSteps

namespace CallSteps

variable {call : Call} {after : CallStage}

/-- A worker that has just been started comes for work. -/
theorem comes_eq (h : pool.CallSteps number call event after changed) :
    (changed.setCall number after).total (·.stage.comes) + pool.workers.length =
      pool.total (·.stage.comes) + changed.workers.length := by
  cases h with
  | reserve =>
    change total (·.stage.comes) { pool with
      live := pool.live + 1, workers := pool.workers ++ [{ kind := .burst }] } + _ = _
    rw [Staffed.total_hire, List.length_append, Nat.add_right_comm, Nat.add_assoc]
    rfl
  | findClosed | findFull | send | countSent | countRefused | findIdle | findBusy | reserveNone =>
    rfl

theorem stays_le (h : pool.CallSteps number call event after changed) :
    pool.total (·.stage.stays) ≤ (changed.setCall number after).total (·.stage.stays) := by
  cases h with
  | reserve =>
    change _ ≤ total (·.stage.stays) { pool with
      live := pool.live + 1, workers := pool.workers ++ [{ kind := .burst }] }
    rw [Staffed.total_hire]
    exact Nat.le_add_right ..
  | findClosed | findFull | send | countSent | countRefused | findIdle | findBusy | reserveNone =>
    exact Nat.le_refl _

/-- A call may start a worker from when its work is in the queue. It does so in the end, or passes
by. -/
theorem mayHire_le (h : pool.CallSteps number call event after changed)
    (hcall : pool.calls[number]? = some call) :
    changed.queue.length + call.stage.mayHire + pool.workers.length ≤
        pool.queue.length + after.mayHire + changed.workers.length ∨
      pool.passes (changed.setCall number after) event = true ∧
        changed.queue.length + call.stage.mayHire + pool.workers.length ≤
          pool.queue.length + after.mayHire + changed.workers.length + 1 := by
  have hafter := (h.getElem?_calls hcall number).trans (if_pos rfl)
  cases h with
  | findClosed hstage | findFull hstage | countSent hstage | countRefused hstage
  | findBusy hstage =>
    rw [hstage]
    exact .inl (Nat.le_refl _)
  | send hstage =>
    rw [hstage, List.length_append]
    exact .inl (Nat.le_refl _)
  | reserve hstage =>
    rw [hstage, List.length_append]
    refine .inl ?_
    simp only [CallStage.mayHire, List.length_singleton]
    omega
  | findIdle hstage =>
    rw [hstage, passes, hafter]
    refine .inr ⟨rfl, ?_⟩
    simp only [CallStage.mayHire]
    omega
  | reserveNone hstage =>
    rw [hstage, passes]
    refine .inr ⟨decide_eq_true rfl, ?_⟩
    simp only [CallStage.mayHire]
    omega

/-- A call that passes by may have been misled. -/
theorem covered (h : pool.CallSteps number call event after changed)
    (hcall : pool.calls[number]? = some call) (hcovered : pool.Covered misled) :
    (changed.setCall number after).Covered
      (misled + pool.misledBy (changed.setCall number after) event) := by
  have hcalls : (changed.setCall number after).totalCalls (·.mayHire) + call.stage.mayHire =
      pool.totalCalls (·.mayHire) + after.mayHire :=
    totalCalls_setCall h hcall (·.mayHire)
  have hcomes := h.comes_eq
  have hstays := h.stays_le
  have hconfig : (changed.setCall number after).config = pool.config := h.config_eq
  rw [Covered] at hcovered
  rcases h.mayHire_le hcall with hqueue | ⟨hpasses, hqueue⟩
  · refine Covered.mono ?_ (Nat.le_add_right misled _)
    change changed.queue.length ≤ _ ∨ _
    rw [hconfig]
    omega
  · refine covered_of_passes hpasses ?_
    change changed.queue.length ≤ _ ∨ _
    rw [hconfig]
    omega

end CallSteps

/-! ### Every event and every run -/

namespace Watched

variable {watched next last : Watched} {config : PoolConfig}

/-- A pool that begins with no call misled. -/
def start (pool : Pool) : Watched where
  pool := pool

/-- The workforce is in order, and the misled calls account for the work that waits uncovered. -/
structure Sound (config : PoolConfig) (watched : Watched) : Prop where
  config_eq : watched.pool.config = config
  staffed : watched.pool.Staffed
  covered : watched.pool.Covered watched.misled

namespace Sound

theorem start (h : config.fault? = none) :
    (start
      { config
        live := config.coreWorkers
        workers := List.replicate config.coreWorkers { kind := .core } }).Sound config where
  config_eq := rfl
  staffed := .start h
  covered := covered_of_queue_eq_nil rfl 0

theorem step (h : watched.Sound config) (hstep : watched.step event = some next) :
    next.Sound config := by
  obtain ⟨pool, hpool, rfl⟩ := step_eq_some_iff.mp hstep
  refine ⟨(calls_step hpool).2.trans h.config_eq, h.staffed.step hpool, ?_⟩
  -- An empty queue needs no cover, so there the count of misled calls may begin again.
  by_cases hempty : pool.queue = []
  · exact covered_of_queue_eq_nil hempty _
  · change pool.Covered (if pool.queue = [] then 0 else _)
    rw [if_neg hempty]
    cases steps_of_step hpool with
    | ofCall hcall hcallStep => exact hcallStep.covered hcall h.covered
    | ofWorker hworker hworkerStep =>
      exact (hworkerStep.covered hworker h.covered).mono (Nat.le_add_right ..)
    | call work =>
      refine Covered.mono ?_ (Nat.le_add_right ..)
      rw [Covered, totalCalls_concat]
      exact h.covered.imp_left fun hqueue ↦
        hqueue.trans (Nat.add_le_add_right (Nat.add_le_add_left (Nat.le_add_right ..) _) _)
    | shutDown | closeQueue => exact h.covered.mono (Nat.le_add_right ..)

theorem run (h : watched.Sound config) {events : List Event}
    (hrun : watched.run events = some last) : last.Sound config :=
  foldlM_keeps (fun hstep h ↦ h.step hstep) hrun h

end Sound

end Watched

/-! ### When nobody is about to do anything -/

/-- No call is midway, and every worker runs work, waits at an empty queue or is gone. -/
structure Quiet (pool : Pool) : Prop extends pool.Settled where
  waits : ∀ worker ∈ pool.workers, worker.stage = .waiting → pool.queue = []

theorem Settled.mayHire_eq_zero (h : pool.Settled) : pool.totalCalls (·.mayHire) = 0 := by
  refine List.sum_eq_zero fun count hcount ↦ ?_
  obtain ⟨call, hmem, rfl⟩ := List.mem_map.mp hcount
  rcases h.calls call hmem with hstage | ⟨cause, hstage⟩ <;> rw [hstage] <;> rfl

/-- When nobody is on the way out, the workers that stay are those that count as alive. -/
theorem Settled.stays_eq (h : pool.Settled) :
    pool.total (·.stage.stays) = pool.total (·.stage.lives) := by
  refine congrArg List.sum (List.map_congr_left fun worker hmem ↦ ?_)
  rcases h.workers worker hmem with hstage | hstage | ⟨work, hstage⟩ <;> rw [hstage] <;> rfl

theorem Quiet.comes_eq_zero (h : pool.Quiet) (hqueue : pool.queue ≠ []) :
    pool.total (·.stage.comes) = 0 := by
  refine List.sum_eq_zero fun count hcount ↦ ?_
  obtain ⟨worker, hmem, rfl⟩ := List.mem_map.mp hcount
  rcases h.workers worker hmem with hstage | hstage | ⟨work, hstage⟩
  · exact absurd (h.waits worker hmem hstage) hqueue
  · rw [hstage]
    rfl
  · rw [hstage]
    rfl

/-- In a quiet pool nobody comes for the work that waits, and no call may start a worker for it. -/
theorem Watched.Sound.full_or_misled {watched : Watched} {config : PoolConfig}
    (h : watched.Sound config) (hquiet : watched.pool.Quiet) (hqueue : watched.pool.queue ≠ []) :
    watched.pool.live = config.maxWorkers ∨ watched.pool.queue.length ≤ watched.misled := by
  have hcovered := h.covered
  rw [Covered, hquiet.comes_eq_zero hqueue, hquiet.mayHire_eq_zero, hquiet.stays_eq,
    ← h.staffed.live, h.config_eq] at hcovered
  rcases hcovered with hmisled | hfull
  · simp only [Nat.zero_add] at hmisled
    exact .inr hmisled
  · exact .inl (Nat.le_antisymm (h.config_eq ▸ h.staffed.live_le) hfull)

/-- A valid configuration makes a pool, and whatever submitters, workers and the owner do to it, in
any order: when no call is midway and every worker runs work or waits at an empty queue, work waits
only if there are as many workers as there may be, or else no more of it than calls have been misled
since the queue was last empty. Each of these has been misled by a worker that counts as idle or as
alive. -/
theorem waits_only_misled {config : PoolConfig} (hvalid : config.fault? = none) :
    ∃ pool, create config = .ok pool ∧ ∀ (events : List Event) (watched : Watched),
      (Watched.start pool).run events = some watched →
        (watched.pool.Quiet → watched.pool.queue ≠ [] →
          watched.pool.live = config.maxWorkers ∨
            watched.pool.queue.length ≤ watched.misled) ∧
        ∀ event next, watched.pool.step event = some next →
          0 < watched.pool.misledBy next event → watched.pool.Misleads event := by
  refine ⟨_, by rw [create, hvalid], fun events watched hrun ↦ ?_⟩
  have hsound := (Watched.Sound.start hvalid).run hrun
  exact ⟨hsound.full_or_misled, fun event next ↦ hsound.staffed.misleads⟩

/-- Such a pool, with one core worker and one more for a burst. The core worker runs the first work,
and the burst worker started for it finds nothing to do. The second work comes when the burst worker
has given up and is still counted, which misleads its call, and then waits although there is room
for another worker. -/
theorem waits_only_misled_retiring :
    ∃ (config : PoolConfig) (events : List Event) (pool : Pool) (before watched : Watched),
      config.fault? = none ∧ create config = .ok pool ∧
      (Watched.start pool).run events = some before ∧ before.pool.Misleads (.reserve 1) ∧
      before.run [.reserve 1, .leave 1] = some watched ∧ watched.pool.Quiet ∧
      watched.pool.queue = [8] ∧ watched.misled = 1 ∧ watched.pool.live < config.maxWorkers ∧
      (watched.pool.live = config.maxWorkers ∨
        watched.pool.queue.length ≤ watched.misled) := by
  let config : PoolConfig := { coreWorkers := 1, maxWorkers := 2, maxQueueDepth := 1 }
  let events : List Event :=
    [.await 0, .call 7, .send 0, .count 0, .receive 0, .rouse 0, .look 0, .reserve 0, .begin 0,
      .await 1, .expire 1, .rouse 1, .call 8, .send 1, .count 1, .look 1]
  have hvalid : config.fault? = none := by decide
  let pool : Pool := { config, live := 1, workers := [{ kind := .core }] }
  obtain ⟨created, hcreated, hruns⟩ := waits_only_misled hvalid
  obtain rfl : pool = created := Except.ok.inj hcreated
  have hbefore : ((Watched.start pool).run events).map (fun before ↦
      (before.pool.step (.reserve 1)).map (before.pool.misledBy · (.reserve 1))) =
        some (some 1) := by
    decide +kernel
  have hreached : ((Watched.start pool).run (events ++ [.reserve 1, .leave 1])).map
      (fun watched ↦ (watched.pool.calls, watched.pool.workers, watched.pool.queue,
        watched.misled, watched.pool.live)) =
          some ([⟨7, .accepted⟩, ⟨8, .accepted⟩], [⟨.core, .running 7⟩, ⟨.burst, .gone⟩], [8], 1,
            1) := by
    decide +kernel
  obtain ⟨before, hrun, hbefore⟩ := Option.map_eq_some_iff.mp hbefore
  obtain ⟨next, hnext, hmisledBy⟩ := Option.map_eq_some_iff.mp hbefore
  obtain ⟨watched, hend, hreached⟩ := Option.map_eq_some_iff.mp hreached
  simp only [Prod.mk.injEq] at hreached
  obtain ⟨hcalls, hworkers, hqueue, hmisled, hlive⟩ := hreached
  have hlast : before.run [.reserve 1, .leave 1] = some watched := by
    rw [← hend, Watched.run_append, hrun, Option.bind_some]
  have hquiet : watched.pool.Quiet :=
    { calls := by simp [hcalls], workers := by simp [hworkers], waits := by simp [hworkers] }
  refine ⟨config, events, pool, before, watched, hvalid, hcreated, hrun, ?_, hlast, hquiet, hqueue,
    hmisled, ?_, ?_⟩
  · exact (hruns events before hrun).2 (.reserve 1) next hnext (hmisledBy ▸ Nat.one_pos)
  · rw [hlive]
    decide
  · exact (hruns _ watched hend).1 hquiet (hqueue ▸ List.cons_ne_nil _ _)

/-- Work may wait behind work that runs, before any shutdown, though another worker may be started.
When two calls in a row find the one worker idle, neither starts another; the worker runs the work
of the first, and that of the second waits. -/
theorem waits_behind_running :
    ¬∀ (config : PoolConfig) (pool : Pool) (events : List Event) (watched : Watched),
      config.fault? = none → create config = .ok pool →
        (Watched.start pool).run events = some watched → watched.pool.isShutDown = false →
          watched.pool.Quiet → watched.pool.queue ≠ [] →
            watched.pool.live = config.maxWorkers := by
  intro hclaim
  let config : PoolConfig := { coreWorkers := 1, maxWorkers := 2, maxQueueDepth := 2 }
  let pool : Pool := { config, live := 1, workers := [{ kind := .core }] }
  let events : List Event :=
    [.await 0, .call 7, .send 0, .count 0, .look 0, .call 8, .send 1, .count 1, .look 1,
      .receive 0, .rouse 0, .begin 0]
  have hreached : ((Watched.start pool).run events).map (fun watched ↦
      (watched.pool.calls, watched.pool.workers, watched.pool.queue, watched.pool.isShutDown,
        watched.pool.live)) =
        some ([⟨7, .accepted⟩, ⟨8, .accepted⟩], [⟨.core, .running 7⟩], [8], false, 1) := by
    decide +kernel
  obtain ⟨watched, hrun, hreached⟩ := Option.map_eq_some_iff.mp hreached
  simp only [Prod.mk.injEq] at hreached
  obtain ⟨hcalls, hworkers, hqueue, hshut, hlive⟩ := hreached
  have hquiet : watched.pool.Quiet :=
    { calls := by simp [hcalls], workers := by simp [hworkers], waits := by simp [hworkers] }
  have hfull := hclaim config pool events watched (by decide) rfl hrun hshut hquiet
    (hqueue ▸ List.cons_ne_nil _ _)
  rw [hlive] at hfull
  cases hfull

end Pool

end Admission
