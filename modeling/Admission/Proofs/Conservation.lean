import Admission.Proofs.Draining
import Mathlib.Data.List.Nodup

/-!
# A pool loses no work

`Pool.Conserved` says what submitters and the owner of a pool can rely on after any events, in any
order: how much work may wait and how many workers there may be, that accepted work is received in
the order of acceptance and run once, that refused work is handed back and not run, what a shutdown
changes, and what the statistics add up to when nobody is in the middle of anything (`Settled`).
`Pool.Drains` says what can happen from there on: a closed queue takes nothing, the workers come to
rest by themselves, and then everything accepted has been run.

`conserves_work` proves both of every pool that a valid configuration makes.
-/

set_option autoImplicit false
set_option relaxedAutoImplicit false

namespace Admission

namespace Pool

/-- The work that an event hands to the pool. -/
def Event.submitted? : Event → Option Nat
  | .call work => some work
  | _ => none

/-- No call is under way, and every worker waits for work, runs work or is gone. -/
structure Settled (pool : Pool) : Prop where
  calls : ∀ call ∈ pool.calls, call.stage = .accepted ∨ ∃ cause, call.stage = .refused cause
  workers : ∀ worker ∈ pool.workers,
    worker.stage = .waiting ∨ worker.stage = .gone ∨ ∃ work, worker.stage = .running work

/-- What can be relied on when a pool of a configuration has gone through some events. -/
structure Conserved (config : PoolConfig) (events : List Event) (journal : Journal) : Prop where
  config_eq : journal.pool.config = config
  queue_le : journal.pool.stats.queueDepth ≤ config.maxQueueDepth
  live_le : journal.pool.stats.liveWorkers ≤ config.maxWorkers
  core_le : journal.pool.isShutDown = false → config.coreWorkers ≤ journal.pool.stats.liveWorkers
  live_eq : journal.pool.stats.liveWorkers =
    journal.pool.workers.countP fun worker ↦ worker.stage ≠ .gone
  calls : journal.pool.calls.map (·.work) = events.filterMap (·.submitted?)
  /-- A call is among the accepted ones once, or, when it is or will be refused, not at all. -/
  accepted : ∀ number work, (number, work) ∈ journal.accepted ↔
    ∃ call, journal.pool.calls[number]? = some call ∧ call.work = work ∧ call.stage.enters = 1
  accepted_once : (journal.accepted.map (·.1)).Nodup
  /-- Workers receive what was accepted, in order, and the rest waits. -/
  received : journal.accepted.map (·.2) = journal.received.map (·.2) ++ journal.pool.queue
  /-- What a worker has received is run, except what it is about to run. -/
  begun : (journal.received.map (·.2)).Perm (journal.begun ++ journal.pool.gather (·.held))
  /-- What is run comes to its end, except what is run now. -/
  ended : journal.begun.Perm (journal.ended.map (·.1) ++ journal.pool.gather (·.running?))
  /-- Work that is submitted once is received once and run once. -/
  run_once : (events.filterMap (·.submitted?)).Nodup →
    (journal.received.map (·.2)).Nodup ∧ journal.begun.Nodup ∧ (journal.ended.map (·.1)).Nodup
  /-- Nobody receives or runs work that has been handed back. -/
  handed_back : (events.filterMap (·.submitted?)).Nodup →
    ∀ call ∈ journal.pool.calls, ∀ cause, call.stage = .refused cause →
      call.work ∉ journal.received.map (·.2) ∧ call.work ∉ journal.begun
  /-- A call is refused only because it saw a full queue or a pool that was being shut down. -/
  refused : ∀ (number : Nat) (call : Call) (cause : EngineError),
    journal.pool.calls[number]? = some call → call.stage = .refused cause →
      ∃ refusal ∈ journal.refused, refusal.call = number ∧ refusal.cause = cause ∧
        refusal.Justified config
  closed : journal.pool.isOpen = false → journal.pool.isShutDown = true
  /-- A core worker leaves only when the queue is closed and empty. -/
  exits : ∀ worker ∈ journal.pool.workers, worker.kind = .core → worker.stage.isLeaving = true →
    journal.pool.isOpen = false ∧ journal.pool.queue = []
  calls_add_up : journal.pool.Settled →
    journal.pool.stats.submitted + journal.pool.stats.rejected = journal.pool.calls.length
  work_adds_up : journal.pool.Settled →
    journal.pool.stats.submitted = journal.pool.stats.completed + journal.pool.stats.panicked +
      journal.pool.stats.activeWorkers + journal.pool.stats.queueDepth

/-- What can come after: a closed queue takes no more, and the workers come to rest by themselves,
whatever they do, with everything run that was accepted. -/
structure Drains (journal : Journal) : Prop where
  closed : journal.pool.isOpen = false → ∀ later last, journal.run later = some last →
    last.accepted = journal.accepted
  bounded : ∀ later last, journal.run later = some last →
    (∀ event ∈ later, Event.ofWorker event = true) → later.length ≤ journal.pool.effort
  rests : ∃ later last, (∀ event ∈ later, Event.ofWorker event = true) ∧
    journal.run later = some last ∧ last.pool.Resting
  drained : ∀ later last, journal.run later = some last →
    (∀ event ∈ later, Event.ofWorker event = true) → last.pool.Resting →
      last.pool.queue = [] ∧ (journal.accepted.map (·.2)).Perm (last.ended.map (·.1)) ∧
        (journal.pool.isOpen = false → ∀ worker ∈ last.pool.workers, worker.stage = .gone)

variable {pool next : Pool} {event : Event} {events : List Event} {journal last : Journal}

/-! ### The calls of a run -/

theorem works_setCall (pool : Pool) (number : Nat) (after : CallStage) :
    (pool.setCall number after).calls.map (·.work) = pool.calls.map (·.work) := by
  ext1 position
  rw [setCall, List.getElem?_map, List.getElem?_map, List.getElem?_modify, Option.map_eq_map,
    Option.map_map]
  congr 1
  ext1 call
  rw [Function.comp_apply]
  by_cases hnumber : number = position
  · rw [if_pos hnumber]
  · rw [if_neg hnumber]

/-- An event begins the call that it hands work to the pool by, and a step of the pool keeps its
configuration. -/
theorem calls_step (hstep : pool.step event = some next) :
    next.calls.map (·.work) = pool.calls.map (·.work) ++ event.submitted?.toList ∧
      next.config = pool.config := by
  cases steps_of_step hstep with
  | call => exact ⟨List.map_append, rfl⟩
  | ofCall _ h =>
    refine ⟨?_, h.config_eq⟩
    have hnone : event.submitted? = none := by cases h <;> rfl
    rw [works_setCall, h.calls_eq, hnone, Option.toList_none, List.append_nil]
  | ofWorker _ h =>
    refine ⟨?_, h.config_eq⟩
    have hnone : event.submitted? = none := by cases h <;> rfl
    have hcalls := h.noted.2.2.1
    rw [setStage, hcalls, hnone, Option.toList_none, List.append_nil]
  | shutDown | closeQueue => exact ⟨(List.append_nil _).symm, rfl⟩

theorem calls_run (hrun : journal.run events = some last) :
    last.pool.calls.map (·.work) =
        journal.pool.calls.map (·.work) ++ events.filterMap (·.submitted?) ∧
      last.pool.config = journal.pool.config := by
  induction events generalizing journal with
  | nil =>
    cases hrun
    exact ⟨(List.append_nil _).symm, rfl⟩
  | cons event events ih =>
    rw [Journal.run_cons] at hrun
    obtain ⟨middle, hmiddle, hrest⟩ := Option.bind_eq_some_iff.mp hrun
    obtain ⟨pool, hpool, rfl⟩ := Journal.step_eq_some_iff.mp hmiddle
    obtain ⟨hcalls, hconfig⟩ := calls_step hpool
    obtain ⟨hlater, hkept⟩ := ih hrest
    refine ⟨?_, hkept.trans hconfig⟩
    have hhead : (event :: events).filterMap (·.submitted?) =
        event.submitted?.toList ++ events.filterMap (·.submitted?) := by
      rw [List.filterMap_cons]
      cases event.submitted? <;> rfl
    rw [hlater, hhead, ← List.append_assoc, ← hcalls]
    rfl

/-! ### Work that is submitted once -/

namespace Called

/-- If no two calls hand in the same work, the accepted work does not repeat. -/
theorem nodup_works (h : Called journal) (hworks : (journal.pool.calls.map (·.work)).Nodup) :
    (journal.accepted.map (·.2)).Nodup := by
  refine (List.Nodup.of_map _ h.nodup).map_on ?_
  rintro ⟨number, work⟩ hmem ⟨other, _⟩ hother rfl
  obtain ⟨call, hcall, hwork, -⟩ := (h.mem_accepted number work).mp hmem
  obtain ⟨found, hfound, hsame, -⟩ := (h.mem_accepted other work).mp hother
  have hlt : number < (journal.pool.calls.map (·.work)).length := by
    rw [List.length_map]
    exact (List.getElem?_eq_some_iff.mp hcall).1
  have hequal : number = other := by
    refine (List.getElem?_inj hlt hworks).mp ?_
    rw [List.getElem?_map, List.getElem?_map, hcall, hfound, Option.map_some, Option.map_some,
      hwork, hsame]
  rw [hequal]

/-- The work of a call that has not been accepted is not among the accepted. -/
theorem not_mem_works (h : Called journal) (hworks : (journal.pool.calls.map (·.work)).Nodup)
    {call : Call} (hmem : call ∈ journal.pool.calls) (henters : call.stage.enters = 0) :
    call.work ∉ journal.accepted.map (·.2) := by
  intro haccepted
  obtain ⟨⟨number, work⟩, hpair, hwork⟩ := List.mem_map.mp haccepted
  obtain ⟨found, hfound, hsame, hentered⟩ := (h.mem_accepted number work).mp hpair
  have hequal : found = call :=
    List.inj_on_of_nodup_map hworks (List.mem_of_getElem? hfound) hmem (hsame.trans hwork)
  rw [hequal, henters] at hentered
  cases hentered

end Called

/-! ### What the statistics add up to -/

/-- The workers that count as alive are those that are not gone. -/
theorem total_lives (pool : Pool) :
    pool.total (·.stage.lives) = pool.workers.countP fun worker ↦ worker.stage ≠ .gone := by
  rw [total]
  induction pool.workers with
  | nil => rfl
  | cons worker workers ih =>
    rw [List.map_cons, List.sum_cons, ih, List.countP_cons, Nat.add_comm]
    cases worker.stage <;> rfl

namespace Settled

/-- Every call has been counted, as accepted if its work came into the queue and as refused if it
did not. -/
theorem totalCalls_eq (h : pool.Settled) :
    pool.totalCalls (·.counts) + pool.totalCalls (·.refusals) = pool.calls.length ∧
      pool.totalCalls (·.counts) = pool.totalCalls (·.enters) := by
  constructor
  · have hone : ∀ call ∈ pool.calls, call.stage.counts + call.stage.refusals = 1 := by
      intro call hmem
      rcases h.calls call hmem with hstage | ⟨cause, hstage⟩ <;> rw [hstage] <;> rfl
    rw [totalCalls, totalCalls, ← List.sum_map_add, List.map_congr_left hone, List.map_const',
      List.sum_replicate_nat, Nat.mul_one]
  · refine congrArg List.sum (List.map_congr_left fun call hmem ↦ ?_)
    rcases h.calls call hmem with hstage | ⟨cause, hstage⟩ <;> rw [hstage] <;> rfl

theorem held_eq_nil (h : pool.Settled) : pool.gather (·.held) = [] := by
  refine List.flatMap_eq_nil_iff.mpr fun worker hmem ↦ ?_
  rcases h.workers worker hmem with hstage | hstage | ⟨work, hstage⟩ <;> rw [hstage] <;> rfl

end Settled

namespace Journal

/-- The work that runs is as much as the pool counts as active. -/
theorem Sound.length_running (h : journal.Sound) :
    (journal.pool.gather (·.running?)).length = journal.pool.counters.active := by
  rw [length_gather, h.staffed.active]
  refine congrArg List.sum (List.map_congr_left fun worker _ ↦ ?_)
  exact worker.stage.length_running

/-- What has ended has completed or panicked. -/
theorem Sound.length_ended (h : journal.Sound) :
    journal.ended.length = journal.pool.counters.completed + journal.pool.counters.panicked := by
  rw [h.traced.completed, h.traced.panicked, List.length_eq_countP_add_countP (·.2 = .completed)]
  simp only [decide_not, ne_eq, decide_eq_true_eq]

/-- When every worker waits, runs work or is gone, and no call is midway, the work that has been
counted as accepted has ended, runs or waits. -/
theorem Sound.work_adds_up (h : journal.Sound) (hsettled : journal.pool.Settled) :
    journal.pool.counters.submitted = journal.pool.counters.completed +
      journal.pool.counters.panicked + journal.pool.counters.active +
        journal.pool.queue.length := by
  have hheld := h.traced.held.length_eq
  rw [hsettled.held_eq_nil, List.append_nil, List.length_map] at hheld
  have hrunning := h.traced.running.length_eq
  rw [List.length_append, List.length_map, h.length_running, h.length_ended] at hrunning
  calc journal.pool.counters.submitted
    _ = journal.accepted.length := by
      rw [h.called.submitted, hsettled.totalCalls_eq.2, h.called.length_accepted]
    _ = journal.received.length + journal.pool.queue.length := by
      rw [← List.length_map (·.2), h.traced.order, List.length_append, List.length_map]
    _ = _ := by rw [hheld, hrunning]

/-- What the invariants say about a pool that has begun with no calls. -/
theorem Sound.conserved (h : journal.Sound) {start : Journal}
    (hrun : start.run events = some journal) (hcalls : start.pool.calls = []) :
    Conserved start.pool.config events journal := by
  obtain ⟨hworks, hconfig⟩ := calls_run hrun
  rw [hcalls, List.map_nil, List.nil_append] at hworks
  have haccepted : (events.filterMap (·.submitted?)).Nodup →
      (journal.accepted.map (·.2)).Nodup := fun hnodup ↦ h.called.nodup_works (hworks ▸ hnodup)
  constructor
  case config_eq => exact hconfig
  case queue_le => exact hconfig ▸ h.staffed.depth
  case live_le => exact hconfig ▸ h.staffed.live_le
  case core_le => exact fun hrunning ↦ hconfig ▸ h.staffed.core_le_live hrunning
  case live_eq => exact h.staffed.live.trans journal.pool.total_lives
  case calls => exact hworks
  case accepted => exact h.called.mem_accepted
  case accepted_once => exact h.called.nodup
  case received => exact h.traced.order
  case begun => exact h.traced.held
  case ended => exact h.traced.running
  case run_once =>
    intro hnodup
    have hreceived : (journal.received.map (·.2)).Nodup := by
      have hsplit := haccepted hnodup
      rw [h.traced.order] at hsplit
      exact hsplit.of_append_left
    have hbegun : journal.begun.Nodup := (h.traced.held.nodup hreceived).of_append_left
    exact ⟨hreceived, hbegun, (h.traced.running.nodup hbegun).of_append_left⟩
  case handed_back =>
    intro hnodup call hmem cause hstage
    have hout := h.called.not_mem_works (hworks ▸ hnodup) hmem (by rw [hstage]; rfl)
    rw [h.traced.order] at hout
    have hreceived : call.work ∉ journal.received.map (·.2) :=
      fun hin ↦ hout (List.mem_append_left _ hin)
    exact ⟨hreceived, fun hin ↦ hreceived (h.traced.held.mem_iff.mpr (List.mem_append_left _ hin))⟩
  case refused =>
    intro number call cause hcall hstage
    obtain ⟨refusal, hmem, hnumber, hcause⟩ :=
      h.called.refused number call cause hcall (by rw [hstage]; rfl)
    exact ⟨refusal, hmem, hnumber, hcause, hconfig ▸ h.called.justified refusal hmem⟩
  case closed => exact h.staffed.closed
  case exits => exact h.staffed.exits
  case calls_add_up =>
    intro hsettled
    change journal.pool.counters.submitted + journal.pool.counters.rejected = _
    rw [h.called.submitted, h.called.rejected, hsettled.totalCalls_eq.1]
  case work_adds_up => exact h.work_adds_up

theorem Sound.drains (h : journal.Sound) : Drains journal where
  closed := fun hclosed later last hrun ↦ (closed_run hclosed hrun).2
  bounded := by
    intro later last hrun hworkers
    have heffort := effort_run hrun
    have hall : later.countP (·.ofWorker) = later.length := List.countP_eq_length.mpr hworkers
    have hnone : later.countP (!·.ofWorker) = 0 :=
      List.countP_eq_zero.mpr fun event hmem ↦ by simp [hworkers event hmem]
    omega
  rests := journal.exists_resting
  drained := by
    intro later last hrun hworkers hresting
    have hlast := h.run hrun
    refine ⟨hresting.queue_eq_nil hlast.staffed, ?_, fun hclosed worker hmem ↦ ?_⟩
    · rw [← accepted_run hworkers hrun]
      exact hlast.drained hresting
    · exact hresting.gone_of_closed (closed_run hclosed hrun).1 hmem

end Journal

/-- A valid configuration makes a pool, and whatever submitters, workers and the owner do to it, in
any order, it keeps within its bounds, loses and repeats no work, and is drained by its workers. -/
theorem conserves_work {config : PoolConfig} (hvalid : config.fault? = none) :
    ∃ pool, create config = .ok pool ∧ ∀ (events : List Event) (journal : Journal),
      (Journal.start pool).run events = some journal →
        Conserved config events journal ∧ Drains journal := by
  refine ⟨_, by rw [create, hvalid], fun events journal hrun ↦ ?_⟩
  have hsound := (Journal.Sound.start hvalid).run hrun
  exact ⟨hsound.conserved hrun rfl, hsound.drains⟩

/-- Such a pool, with one core worker, one more for a burst and room for one work to wait. While the
core worker runs the first work and the burst worker waits, the second work is in the queue, the
third has been refused for want of room, and the fourth because the pool is being shut down. All
that has been accepted is run in the end. -/
theorem conserves_work_burst :
    ∃ (config : PoolConfig) (events : List Event) (pool : Pool) (journal : Journal),
      config.fault? = none ∧ create config = .ok pool ∧
      (Journal.start pool).run events = some journal ∧
      journal.accepted = [(0, 7), (1, 8)] ∧ journal.received = [(0, 7)] ∧
      journal.pool.queue = [8] ∧ journal.pool.isOpen = false ∧
      journal.refused = [⟨2, .queueFull, 1, false⟩, ⟨3, .shutDown, 1, true⟩] ∧
      journal.pool.Settled ∧ Conserved config events journal ∧
      ∃ later last, journal.run later = some last ∧ last.pool.Resting ∧
        [7, 8].Perm (last.ended.map (·.1)) := by
  let config : PoolConfig := { coreWorkers := 1, maxWorkers := 2, maxQueueDepth := 1 }
  let events : List Event :=
    [.call 7, .send 0, .count 0, .look 0, .reserve 0, .await 0, .receive 0, .rouse 0, .begin 0,
      .call 8, .send 1, .count 1, .call 9, .send 2, .count 2, .await 1, .look 1, .shutDown,
      .call 6, .count 3, .closeQueue]
  have hvalid : config.fault? = none := by decide
  let pool : Pool := { config, live := 1, workers := [{ kind := .core }] }
  obtain ⟨created, hcreated, hruns⟩ := conserves_work hvalid
  obtain rfl : pool = created := Except.ok.inj hcreated
  let reached := (Journal.start pool).run events
  have hwork : reached.map (fun journal ↦
      (journal.accepted, journal.received, journal.pool.queue, journal.pool.isOpen)) =
        some ([(0, 7), (1, 8)], [(0, 7)], [8], false) := by
    decide +kernel
  have hstages : reached.map (fun journal ↦
      (journal.refused, journal.pool.calls, journal.pool.workers)) =
        some ([⟨2, .queueFull, 1, false⟩, ⟨3, .shutDown, 1, true⟩],
          [⟨7, .accepted⟩, ⟨8, .accepted⟩, ⟨9, .refused .queueFull⟩, ⟨6, .refused .shutDown⟩],
          [⟨.core, .running 7⟩, ⟨.burst, .waiting⟩]) := by
    decide +kernel
  obtain ⟨journal, hrun, hwork⟩ := Option.map_eq_some_iff.mp hwork
  rw [hrun, Option.map_some, Option.some.injEq] at hstages
  simp only [Prod.mk.injEq] at hwork hstages
  obtain ⟨haccepted, hreceived, hqueue, hopen⟩ := hwork
  obtain ⟨hrefused, hcalls, hworkers⟩ := hstages
  have hsettled : journal.pool.Settled := by
    constructor
    · rw [hcalls]
      simp
    · rw [hworkers]
      simp
  obtain ⟨hconserved, hdrains⟩ := hruns events journal hrun
  obtain ⟨later, last, hlater, hlast, hresting⟩ := hdrains.rests
  have hended := (hdrains.drained later last hlast hlater hresting).2.1
  rw [haccepted] at hended
  exact ⟨config, events, pool, journal, hvalid, hcreated, hrun, haccepted, hreceived, hqueue, hopen,
    hrefused, hsettled, hconserved, later, last, hlast, hresting, hended⟩

end Pool

end Admission
