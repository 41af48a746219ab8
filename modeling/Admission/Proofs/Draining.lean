import Admission.Proofs.Dispatch

/-!
# All accepted work is run

The workers cannot go on forever by themselves: every step of a worker brings it closer to waiting
or to leaving, or takes work out of the queue, so each lowers a number (`Pool.effort`) that a step
of anybody else raises by five at most. When no worker can make a step, but for one that may grow
tired of waiting, the queue is empty and nobody has work in hand (`Journal.Sound.drained`): a core
worker that waits would take the work, and core workers leave only an empty queue. So whatever was
accepted has been run, and run once, whether the pool was shut down meanwhile or not.
-/

set_option autoImplicit false
set_option relaxedAutoImplicit false

namespace Admission

/-- More steps than a worker can make before it waits for work or is gone; one that waits may still
leave. -/
def WorkerStage.effort : WorkerStage → Nat
  | .gone => 0
  | .leaving => 1
  | .quitting => 2
  | .waiting => 3
  | .starting => 4
  | .running _ => 5
  | .holding _ => 6
  | .received _ => 7

namespace Pool

/-- An event is a step of a worker. -/
def Event.ofWorker : Event → Bool
  | .await _ | .receive _ | .expire _ | .close _ | .rouse _ | .begin _ | .finish _ _
  | .leave _ => true
  | _ => false

/-- An event is a burst worker growing tired of waiting. -/
def Event.expires : Event → Bool
  | .expire _ => true
  | _ => false

/-- More steps than the workers can make by themselves. Work in the queue is good for five steps of
a worker that waits: it is received, held, run and ended, and the worker waits again. -/
def effort (pool : Pool) : Nat := 5 * pool.queue.length + pool.total (·.stage.effort)

/-- No worker can make a step, but for one that may grow tired of waiting. -/
def Resting (pool : Pool) : Prop :=
  ∀ event : Event, event.ofWorker = true → event.expires = false → pool.step event = none

variable {pool next changed : Pool} {event : Event} {number : Nat}

/-! ### The workers come to rest -/

namespace WorkerSteps

variable {worker : Worker} {after : WorkerStage}

theorem ofWorker (h : pool.WorkerSteps number worker event after changed) :
    event.ofWorker = true := by
  cases h <;> rfl

theorem effort_lt (h : pool.WorkerSteps number worker event after changed)
    (hworker : pool.workers[number]? = some worker) :
    (changed.setStage number after).effort < pool.effort := by
  have htotal : (changed.setStage number after).total (·.stage.effort) + worker.stage.effort =
      pool.total (·.stage.effort) + after.effort :=
    h.total_eq hworker (·.stage.effort)
  have hmove : 5 * changed.queue.length + after.effort <
      5 * pool.queue.length + worker.stage.effort := by
    cases h with
    | receive hstage hqueue =>
      rw [hstage, hqueue, List.length_cons]
      simp only [WorkerStage.effort]
      omega
    | await hstage | expire hstage | close hstage | rouse hstage | quit hstage | begin hstage
    | finish hstage | leave hstage =>
      rw [hstage]
      exact Nat.add_lt_add_left (by simp only [WorkerStage.effort, Nat.reduceLT]) _
  change 5 * changed.queue.length + (changed.setStage number after).total (·.stage.effort) <
    5 * pool.queue.length + pool.total (·.stage.effort)
  omega

end WorkerSteps

theorem CallSteps.not_ofWorker {call : Call} {after : CallStage}
    (h : pool.CallSteps number call event after changed) : event.ofWorker = false := by
  cases h <;> rfl

theorem CallSteps.effort_le {call : Call} {after : CallStage}
    (h : pool.CallSteps number call event after changed) :
    (changed.setCall number after).effort ≤ pool.effort + 5 := by
  cases h with
  | send =>
    have hlength : (pool.queue ++ [call.work]).length = pool.queue.length + 1 :=
      List.length_append
    change 5 * (pool.queue ++ [call.work]).length + pool.total (·.stage.effort) ≤ pool.effort + 5
    rw [hlength, effort]
    omega
  | reserve =>
    change 5 * pool.queue.length + total (·.stage.effort) { pool with
      live := pool.live + 1, workers := pool.workers ++ [{ kind := .burst }] } ≤ pool.effort + 5
    rw [Staffed.total_hire, effort]
    simp only [WorkerStage.effort]
    omega
  | findClosed | findFull | countSent | countRefused | findIdle | findBusy | reserveNone =>
    exact Nat.le_add_right ..

/-- A step of a worker lowers the effort, and any other raises it by five at most. -/
theorem effort_step (hstep : pool.step event = some next) :
    if event.ofWorker then next.effort < pool.effort else next.effort ≤ pool.effort + 5 := by
  cases steps_of_step hstep with
  | ofWorker hworker h =>
    rw [if_pos h.ofWorker]
    exact h.effort_lt hworker
  | ofCall _ h =>
    rw [if_neg (Bool.not_eq_true _ ▸ h.not_ofWorker)]
    exact h.effort_le
  | call | shutDown | closeQueue => exact Nat.le_add_right ..

/-- The steps of the workers in a run are bounded by the effort and the other steps. -/
theorem Journal.effort_run {journal last : Journal} {events : List Event}
    (hrun : journal.run events = some last) :
    last.pool.effort + events.countP (·.ofWorker) ≤
      journal.pool.effort + 5 * events.countP (!·.ofWorker) := by
  induction events generalizing journal with
  | nil =>
    cases hrun
    exact Nat.le_refl _
  | cons event events ih =>
    rw [run_cons] at hrun
    obtain ⟨middle, hmiddle, hrest⟩ := Option.bind_eq_some_iff.mp hrun
    obtain ⟨pool, hpool, rfl⟩ := step_eq_some_iff.mp hmiddle
    have hlater := ih hrest
    have hfirst := effort_step hpool
    change last.pool.effort + events.countP (·.ofWorker) ≤
      pool.effort + 5 * events.countP (!·.ofWorker) at hlater
    rw [List.countP_cons, List.countP_cons]
    cases hworker : event.ofWorker with
    | true =>
      simp only [hworker, if_true, Bool.not_true, Bool.false_eq_true, if_false] at hfirst ⊢
      omega
    | false =>
      simp only [hworker, if_true, Bool.not_false, Bool.false_eq_true, if_false] at hfirst ⊢
      omega

/-! ### Workers at rest -/

namespace Resting

/-- A worker at rest is gone, or waits for work that does not come. -/
theorem stage_cases (h : pool.Resting) {worker : Worker} (hmem : worker ∈ pool.workers) :
    worker.stage = .gone ∨
      worker.stage = .waiting ∧ pool.queue = [] ∧ pool.isOpen = true := by
  obtain ⟨number, hworker⟩ := List.getElem?_of_mem hmem
  have hstuck : ∀ event : Event, event.ofWorker = true → event.expires = false →
      pool.step event = (pool.workers[number]?).bind
        (fun worker ↦ pool.stepWorker number worker event) →
      pool.stepWorker number worker event = none := by
    intro event hevent hexpire hstep
    rw [hworker, Option.bind_some] at hstep
    exact hstep.symm.trans (h event hevent hexpire)
  cases hstage : worker.stage with
  | gone => exact .inl rfl
  | waiting =>
    have hreceive := hstuck (.receive number) rfl rfl rfl
    have hclose := hstuck (.close number) rfl rfl rfl
    have hqueue : pool.queue = [] := by
      cases hqueue : pool.queue with
      | nil => rfl
      | cons work rest => simp [stepWorker, hstage, hqueue] at hreceive
    have hopen : pool.isOpen = true := by
      by_contra hclosed
      simp [stepWorker, hstage, hqueue, Bool.eq_false_iff.mpr hclosed] at hclose
    exact .inr ⟨rfl, hqueue, hopen⟩
  | starting =>
    have hawait := hstuck (.await number) rfl rfl rfl
    simp [stepWorker, hstage] at hawait
  | received | quitting =>
    have hrouse := hstuck (.rouse number) rfl rfl rfl
    simp [stepWorker, hstage] at hrouse
  | holding =>
    have hbegin := hstuck (.begin number) rfl rfl rfl
    simp [stepWorker, hstage] at hbegin
  | running =>
    have hfinish := hstuck (.finish number .completed) rfl rfl rfl
    simp [stepWorker, hstage] at hfinish
  | leaving =>
    have hleave := hstuck (.leave number) rfl rfl rfl
    simp [stepWorker, hstage] at hleave

theorem gather_eq_nil (h : pool.Resting) {part : WorkerStage → List Nat}
    (hgone : part .gone = []) (hwaiting : part .waiting = []) : pool.gather part = [] := by
  refine List.flatMap_eq_nil_iff.mpr fun worker hmem ↦ ?_
  rcases h.stage_cases hmem with hstage | ⟨hstage, -⟩
  · rw [hstage, hgone]
  · rw [hstage, hwaiting]

/-- When the workers are at rest no work waits: there is a core worker, and if it waits it would
take the work, and if it is gone it has left an empty queue. -/
theorem queue_eq_nil (h : pool.Resting) (hstaffed : pool.Staffed) : pool.queue = [] := by
  have hcore : 0 < pool.total (·.kind.cores) := by
    rw [hstaffed.core]
    exact (bounds_of_valid hstaffed.valid).1
  obtain ⟨worker, hmem, hkind⟩ : ∃ worker ∈ pool.workers, worker.kind = .core := by
    by_contra hnone
    refine Nat.ne_of_gt hcore (List.sum_eq_zero fun count hcount ↦ ?_)
    obtain ⟨worker, hmem, rfl⟩ := List.mem_map.mp hcount
    cases hkind : worker.kind with
    | core => exact absurd ⟨worker, hmem, hkind⟩ hnone
    | burst => rfl
  rcases h.stage_cases hmem with hgone | ⟨-, hqueue, -⟩
  · exact (hstaffed.exits worker hmem hkind (by rw [hgone]; rfl)).2
  · exact hqueue

/-- After the queue is closed, workers at rest are gone. -/
theorem gone_of_closed (h : pool.Resting) (hclosed : pool.isOpen = false) {worker : Worker}
    (hmem : worker ∈ pool.workers) : worker.stage = .gone := by
  rcases h.stage_cases hmem with hgone | ⟨-, -, hopen⟩
  · exact hgone
  · rw [hclosed] at hopen
    cases hopen

end Resting

namespace Journal

variable {journal last : Journal} {events : List Event}

/-- When the workers are at rest, what was accepted has been run to its end. -/
theorem Sound.drained (h : journal.Sound) (hresting : journal.pool.Resting) :
    (journal.accepted.map (·.2)).Perm (journal.ended.map (·.1)) := by
  have hheld := h.traced.held
  have hrunning := h.traced.running
  rw [hresting.gather_eq_nil rfl rfl, List.append_nil] at hheld hrunning
  rw [h.traced.order, hresting.queue_eq_nil h.staffed, List.append_nil]
  exact hheld.trans hrunning

/-- Workers accept nothing. -/
theorem accepted_run (hworkers : ∀ event ∈ events, event.ofWorker = true)
    (hrun : journal.run events = some last) : last.accepted = journal.accepted := by
  induction events generalizing journal with
  | nil =>
    cases hrun
    rfl
  | cons event events ih =>
    rw [run_cons] at hrun
    obtain ⟨middle, hmiddle, hrest⟩ := Option.bind_eq_some_iff.mp hrun
    obtain ⟨pool, hpool, rfl⟩ := step_eq_some_iff.mp hmiddle
    obtain ⟨hworker, hlater⟩ := List.forall_mem_cons.mp hworkers
    have hnone : pool.acceptedBy event = [] := by
      cases event with
      | send => cases hworker
      | call | count | look | reserve | await | receive | expire | close | rouse | begin | finish
      | leave | shutDown | closeQueue => rfl
    rw [ih hlater hrest, note, hnone, List.append_nil]

/-- Left to themselves, the workers come to rest. -/
theorem exists_resting (journal : Journal) :
    ∃ events last, (∀ event ∈ events, Event.ofWorker event = true) ∧
      journal.run events = some last ∧ last.pool.Resting := by
  induction heffort : journal.pool.effort using Nat.strong_induction_on generalizing journal with
  | h effort ih =>
    by_cases hresting : journal.pool.Resting
    · exact ⟨[], journal, nofun, rfl, hresting⟩
    · simp only [Resting, not_forall] at hresting
      obtain ⟨event, hworker, -, hstep⟩ := hresting
      obtain ⟨pool, hpool⟩ := Option.ne_none_iff_exists'.mp hstep
      have hlower := effort_step hpool
      rw [if_pos hworker, heffort] at hlower
      obtain ⟨events, last, hworkers, hrun, hrested⟩ :=
        ih pool.effort hlower (journal.note event pool) rfl
      refine ⟨event :: events, last, List.forall_mem_cons.mpr ⟨hworker, hworkers⟩, ?_, hrested⟩
      have hmiddle : journal.step event = some (journal.note event pool) :=
        step_eq_some_iff.mpr ⟨pool, hpool, rfl⟩
      rw [run_cons, hmiddle, Option.bind_some, hrun]

end Journal

end Pool

end Admission
