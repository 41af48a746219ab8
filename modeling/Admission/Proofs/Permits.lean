import Admission.Engine.InFlight
import Admission.Proofs.Dispatch
import Admission.Proofs.Runs

/-!
# Permits are held and given back

A call of an engine with a bound takes a permit or is refused, and the task that it starts holds the
permit until it is over. `InFlight.Steps` lists what can happen, and a number summed up over the
tasks (`InFlight.total`) changes by what the one that moves contributes. `Sound` says what the
numbers of the engine are: the permits left and those held are all there are, each counter counts
the tasks it is meant to count, and each task has been begun, ended and let go as often as its stage
says.

`InFlight.Kept` is what can be relied on after any events, and `InFlight.Lands` what can come after:
a call that was refused stays refused and one that was accepted stays accepted, a closed engine
accepts nothing, and the tasks under way come to their ends by themselves, with every accepted work
run once and every permit back. `keeps_within_permits` proves both of every engine.
-/

set_option autoImplicit false
set_option relaxedAutoImplicit false

namespace Admission

/-! ### What the stages say -/

/-- What happens to a task whose work is accepted. -/
inductive Milestone where
  /-- The work begins. -/
  | begun
  /-- The work returns or panics. -/
  | ended
  /-- The permit is given back. -/
  | freed
deriving DecidableEq, Inhabited

namespace FlightStage

/-- Accepted work is unfinished as long as its permit is held. -/
def holds : FlightStage → Nat
  | .permitted | .spawned | .running | .ended => 1
  | _ => 0

/-- The work has been counted as accepted. -/
def counts : FlightStage → Nat
  | .spawned | .running | .ended | .over => 1
  | _ => 0

/-- The work has been counted as refused. -/
def refusals : FlightStage → Nat
  | .refused _ => 1
  | _ => 0

/-- The work runs. -/
def runs : FlightStage → Nat
  | .running => 1
  | _ => 0

/-- How often the task has reached a milestone. -/
def reached : Milestone → FlightStage → Nat
  | .begun, .running | .begun, .ended | .begun, .over => 1
  | .ended, .ended | .ended, .over => 1
  | .freed, .over => 1
  | _, _ => 0

/-- Why the call is, or is about to be, refused. -/
def cause? : FlightStage → Option EngineError
  | .refusing cause | .refused cause => some cause
  | _ => none

/-- The number of steps to the end. -/
def effort : FlightStage → Nat
  | .permitted => 4
  | .spawned => 3
  | .running => 2
  | .ended | .refusing _ => 1
  | .over | .refused _ => 0

/-- Nothing is under way between two steps that belong together: the call has counted what it was
answered, and the task holds its permit unless its work has been counted as ended. -/
def isSettled : FlightStage → Bool
  | .spawned | .running | .over | .refused _ => true
  | _ => false

theorem counts_add_refusals {stage : FlightStage} (h : stage.isSettled = true) :
    stage.counts + stage.refusals = 1 := by
  cases stage <;> first | rfl | cases h

theorem ends_add_holds {stage : FlightStage} (h : stage.isSettled = true) :
    stage.reached .ended + stage.holds = stage.counts := by
  cases stage <;> first | rfl | cases h

theorem holds_of_effort {stage : FlightStage} (h : stage.effort = 0) : stage.holds = 0 := by
  cases stage <;> first | rfl | cases h

theorem reached_of_effort {stage : FlightStage} (h : stage.effort = 0)
    (hcause : stage.cause? = none) (milestone : Milestone) : stage.reached milestone = 1 := by
  cases stage with
  | permitted | spawned | running | ended | refusing cause => cases h
  | refused cause => cases hcause
  | _ => cases milestone <;> rfl

end FlightStage

namespace InFlight

/-! ### Events -/

namespace Event

/-- The work that an event hands to the engine. -/
def submitted? : Event → Option Nat
  | .execute work => some work
  | _ => none

/-- An event brings a task to a milestone. -/
def reaches (milestone : Milestone) (number : Nat) : Event → Bool
  | .begin other => milestone = .begun ∧ other = number
  | .finish other _ => milestone = .ended ∧ other = number
  | .free other => milestone = .freed ∧ other = number
  | _ => false

/-- An event is the end of work that has not panicked. -/
def completes : Event → Bool
  | .finish _ .completed => true
  | _ => false

/-- An event is the end of work that has panicked. -/
def panics : Event → Bool
  | .finish _ (.failed _) => true
  | _ => false

/-- The call or task under way that takes a step. -/
def task? : Event → Option Nat
  | .count number | .begin number | .finish number _ | .free number => some number
  | _ => none

end Event

/-- The engine after several events, if they are possible. -/
def run (engine : InFlight) (events : List Event) : Option InFlight := events.foldlM step engine

variable {engine next last changed : InFlight} {event : Event} {number : Nat}

/-! ### What a step does -/

/-- What a call or task can do: the event, the stage it comes to, and the rest of the engine. -/
inductive FlightSteps (engine : InFlight) (number : Nat) (flight : Flight) :
    Event → FlightStage → InFlight → Prop
  | accept (h : flight.stage = .permitted) :
    FlightSteps engine number flight (.count number) .spawned
      { engine with counters := engine.counters.accept }
  | refuse {cause : EngineError} (h : flight.stage = .refusing cause) :
    FlightSteps engine number flight (.count number) (.refused cause)
      { engine with counters := engine.counters.refuse }
  | begin (h : flight.stage = .spawned) :
    FlightSteps engine number flight (.begin number) .running
      { engine with counters := engine.counters.begin }
  | finish (h : flight.stage = .running) (outcome : WorkOutcome) :
    FlightSteps engine number flight (.finish number outcome) .ended
      { engine with counters := engine.counters.finish outcome }
  | free (h : flight.stage = .ended) :
    FlightSteps engine number flight (.free number) .over
      { engine with available := engine.available + 1 }

/-- How a call of the engine begins. -/
def firstStage (engine : InFlight) : FlightStage :=
  if engine.isClosed then .refusing .shutDown
  else if engine.available = 0 then .refusing .queueFull
  else .permitted

/-- What can happen to an engine. -/
inductive Steps (engine : InFlight) : Event → InFlight → Prop
  | execute (work : Nat) :
    Steps engine (.execute work)
      ({ engine with available := engine.available - engine.firstStage.holds }.enter work
        engine.firstStage)
  | ofFlight {flight : Flight} {event : Event} {after : FlightStage} {changed : InFlight}
      (number : Nat) (hflight : engine.flights[number]? = some flight)
      (hstep : engine.FlightSteps number flight event after changed) :
    Steps engine event (changed.setStage number after)
  | close : Steps engine .close { engine with isClosed := true }

theorem step_execute (engine : InFlight) (work : Nat) :
    engine.step (.execute work) =
      some ({ engine with available := engine.available - engine.firstStage.holds }.enter work
        engine.firstStage) := by
  unfold firstStage step
  by_cases hclosed : engine.isClosed = true
  · simp only [if_pos hclosed]
    rfl
  · simp only [if_neg hclosed]
    by_cases hnone : engine.available = 0
    · simp only [if_pos hnone]
      rfl
    · simp only [if_neg hnone]
      rfl

theorem steps_of_stepFlight {flight : Flight} (hflight : engine.flights[number]? = some flight)
    (hevent : event = .count number ∨ event = .begin number ∨ (∃ outcome,
      event = .finish number outcome) ∨ event = .free number)
    (h : engine.stepFlight number flight event = some next) : engine.Steps event next := by
  rcases hevent with rfl | rfl | ⟨outcome, rfl⟩ | rfl
  · simp only [stepFlight] at h
    split at h
    · next hstage =>
      cases h
      exact .ofFlight number hflight (.accept hstage)
    · next hstage =>
      cases h
      exact .ofFlight number hflight (.refuse hstage)
    · cases h
  · obtain ⟨hstage, ⟨⟩⟩ := Option.ite_none_right_eq_some.mp h
    exact .ofFlight number hflight (.begin hstage)
  · obtain ⟨hstage, ⟨⟩⟩ := Option.ite_none_right_eq_some.mp h
    exact .ofFlight number hflight (.finish hstage outcome)
  · obtain ⟨hstage, ⟨⟩⟩ := Option.ite_none_right_eq_some.mp h
    exact .ofFlight number hflight (.free hstage)

theorem steps_of_step (h : engine.step event = some next) : engine.Steps event next := by
  cases event with
  | execute work =>
    rw [step_execute] at h
    cases h
    exact .execute work
  | count number | begin number | finish number outcome | free number =>
    obtain ⟨flight, hflight, h⟩ := Option.bind_eq_some_iff.mp h
    exact steps_of_stepFlight hflight (by simp) h
  | close =>
    cases h
    exact .close

/-! ### Numbers summed up over the tasks -/

/-- A number summed up over the calls and tasks. -/
def total (part : FlightStage → Nat) (engine : InFlight) : Nat :=
  (engine.flights.map fun flight ↦ part flight.stage).sum

/-- What a call or task contributes, if there is one of that number. -/
def tally (part : FlightStage → Nat) (engine : InFlight) (number : Nat) : Nat :=
  (engine.flights[number]?).elim 0 fun flight ↦ part flight.stage

/-- The works whose permits are held. -/
def unfinished (engine : InFlight) : Nat := engine.total (·.holds)

theorem total_enter (part : FlightStage → Nat) (engine : InFlight) (work : Nat)
    (stage : FlightStage) :
    (engine.enter work stage).total part = engine.total part + part stage := by
  simp only [total, enter, List.map_append, List.map_singleton, List.sum_append, List.sum_singleton]

theorem total_add (part part' : FlightStage → Nat) (engine : InFlight) :
    engine.total (fun stage ↦ part stage + part' stage) = engine.total part + engine.total part' :=
  List.sum_map_add

theorem total_congr {part part' : FlightStage → Nat}
    (h : ∀ flight ∈ engine.flights, part flight.stage = part' flight.stage) :
    engine.total part = engine.total part' :=
  congrArg List.sum (List.map_congr_left h)

theorem total_const {part : FlightStage → Nat} {count : Nat}
    (h : ∀ flight ∈ engine.flights, part flight.stage = count) :
    engine.total part = engine.flights.length * count := by
  rw [total, List.map_congr_left h, List.map_const', List.sum_replicate_nat]

namespace FlightSteps

variable {flight : Flight} {after : FlightStage}

theorem flights_eq (h : engine.FlightSteps number flight event after changed) :
    changed.flights = engine.flights := by
  cases h <;> rfl

theorem maxInFlight_eq (h : engine.FlightSteps number flight event after changed) :
    changed.maxInFlight = engine.maxInFlight := by
  cases h <;> rfl

theorem isClosed_eq (h : engine.FlightSteps number flight event after changed) :
    changed.isClosed = engine.isClosed := by
  cases h <;> rfl

theorem task?_eq (h : engine.FlightSteps number flight event after changed) :
    event.task? = some number := by
  cases h <;> rfl

theorem submitted?_eq (h : engine.FlightSteps number flight event after changed) :
    event.submitted? = none := by
  cases h <;> rfl

/-- A call does not change its mind. -/
theorem cause?_eq (h : engine.FlightSteps number flight event after changed) :
    after.cause? = flight.stage.cause? := by
  cases h with
  | accept h | refuse h | begin h | finish h | free h =>
    rw [h]
    rfl

theorem effort_eq (h : engine.FlightSteps number flight event after changed) :
    flight.stage.effort = after.effort + 1 := by
  cases h with
  | accept h | refuse h | begin h | finish h | free h =>
    rw [h]
    rfl

theorem total_eq (h : engine.FlightSteps number flight event after changed)
    (hflight : engine.flights[number]? = some flight) (part : FlightStage → Nat) :
    (changed.setStage number after).total part + part flight.stage =
      engine.total part + part after := by
  rw [total, setStage, h.flights_eq]
  exact Pool.sum_modify hflight _ fun flight ↦ part flight.stage

theorem getElem?_eq (h : engine.FlightSteps number flight event after changed)
    (hflight : engine.flights[number]? = some flight) (other : Nat) :
    (changed.setStage number after).flights[other]? =
      if number = other then some { flight with stage := after } else engine.flights[other]? := by
  rw [setStage, h.flights_eq, List.getElem?_modify]
  by_cases hother : number = other
  · subst hother
    simp [hflight]
  · simp [hother]

end FlightSteps

/-! ### The invariant -/

/-- The permits left and held are all there are, every counter counts what it is meant to count, and
what has happened to a call or task is what its stage says. -/
structure Sound (permits : Nat) (events : List Event) (engine : InFlight) : Prop where
  maxInFlight : engine.maxInFlight = permits
  available : engine.available + engine.unfinished = permits
  isClosed : engine.isClosed = true ↔ .close ∈ events
  submitted : engine.counters.submitted = engine.total (·.counts)
  rejected : engine.counters.rejected = engine.total (·.refusals)
  active : engine.counters.active = engine.total (·.runs)
  ended : engine.counters.completed + engine.counters.panicked = engine.total (·.reached .ended)
  completed : engine.counters.completed = events.countP (·.completes)
  panicked : engine.counters.panicked = events.countP (·.panics)
  works : engine.flights.map (·.work) = events.filterMap (·.submitted?)
  reached : ∀ milestone number,
    events.countP (·.reaches milestone number) = engine.tally (·.reached milestone) number

/-- A new call contributes nothing to what has happened to tasks. -/
theorem tally_enter {part : FlightStage → Nat} (engine : InFlight) (work : Nat)
    {stage : FlightStage} (hpart : part stage = 0) (number : Nat) :
    (engine.enter work stage).tally part number = engine.tally part number := by
  simp only [tally, enter]
  rcases Nat.lt_trichotomy number engine.flights.length with hlt | rfl | hgt
  · rw [List.getElem?_append_left hlt]
  · simp [hpart]
  · have hnone : engine.flights[number]? = none := List.getElem?_eq_none (Nat.le_of_lt hgt)
    have hlast : (engine.flights ++ [⟨work, stage⟩])[number]? = none :=
      List.getElem?_eq_none (by simpa using Nat.succ_le_of_lt hgt)
    rw [hnone, hlast]

namespace FlightSteps

variable {flight : Flight} {after : FlightStage}

/-- A task reaches a milestone by the event that brings it there. -/
theorem reached_eq (h : engine.FlightSteps number flight event after changed)
    (milestone : Milestone) :
    after.reached milestone =
      flight.stage.reached milestone + if event.reaches milestone number then 1 else 0 := by
  cases h with
  | accept h | refuse h | begin h | finish h | free h =>
    rw [h]
    cases milestone <;> simp [FlightStage.reached, Event.reaches]

/-- An event brings no other task to a milestone. -/
theorem reaches_eq_false (h : engine.FlightSteps number flight event after changed)
    (milestone : Milestone) {other : Nat} (hother : number ≠ other) :
    event.reaches milestone other = false := by
  cases h <;> simp [Event.reaches, hother]

theorem tally_eq (h : engine.FlightSteps number flight event after changed)
    (hflight : engine.flights[number]? = some flight) (milestone : Milestone) (other : Nat) :
    (changed.setStage number after).tally (·.reached milestone) other =
      engine.tally (·.reached milestone) other +
        if event.reaches milestone other then 1 else 0 := by
  rw [tally, tally, h.getElem?_eq hflight]
  by_cases hnumber : number = other
  · subst hnumber
    rw [if_pos rfl, hflight]
    exact h.reached_eq milestone
  · rw [if_neg hnumber, h.reaches_eq_false milestone hnumber]
    rfl

/-- A counter that changes by what the task contributes is what all of them contribute. -/
theorem counts_eq (h : engine.FlightSteps number flight event after changed)
    (hflight : engine.flights[number]? = some flight) {part : FlightStage → Nat}
    {count count' : Nat} (hcount : count = engine.total part)
    (hchange : count' + part flight.stage = count + part after) :
    count' = (changed.setStage number after).total part := by
  have htotal := h.total_eq hflight part
  omega

end FlightSteps

namespace Sound

variable {permits : Nat} {events : List Event}

/-- An event that is not the close tells nothing of one. -/
theorem close_mem_concat (hevent : event ≠ .close) :
    .close ∈ events ++ [event] ↔ .close ∈ events := by
  simp [hevent.symm]

theorem start (maxInFlight : Nat) : Sound (max maxInFlight 1) [] (create maxInFlight) where
  maxInFlight := rfl
  available := Nat.add_zero _
  isClosed := ⟨nofun, nofun⟩
  submitted := rfl
  rejected := rfl
  active := rfl
  ended := rfl
  completed := rfl
  panicked := rfl
  works := rfl
  reached _ _ := rfl

/-- A call is answered: it takes a permit that is left, or none. -/
theorem execute (h : Sound permits events engine) (work : Nat) :
    Sound permits (events ++ [.execute work])
      ({ engine with available := engine.available - engine.firstStage.holds }.enter work
        engine.firstStage) := by
  have hfirst : engine.firstStage.holds ≤ engine.available ∧ engine.firstStage.counts = 0 ∧
      engine.firstStage.refusals = 0 ∧ engine.firstStage.runs = 0 ∧
      ∀ milestone, engine.firstStage.reached milestone = 0 := by
    unfold firstStage
    split_ifs with hclosed hnone
    · exact ⟨Nat.zero_le _, rfl, rfl, rfl, fun milestone ↦ by cases milestone <;> rfl⟩
    · exact ⟨Nat.zero_le _, rfl, rfl, rfl, fun milestone ↦ by cases milestone <;> rfl⟩
    · exact ⟨Nat.pos_of_ne_zero hnone, rfl, rfl, rfl, fun milestone ↦ by cases milestone <;> rfl⟩
  obtain ⟨hholds, hcounts, hrefusals, hruns, hreached⟩ := hfirst
  have htotal : ∀ part : FlightStage → Nat, part engine.firstStage = 0 →
      ({ engine with available := engine.available - engine.firstStage.holds }.enter work
        engine.firstStage).total part = engine.total part := by
    intro part hpart
    rw [total_enter, hpart]
    rfl
  constructor
  case maxInFlight => exact h.maxInFlight
  case available =>
    have hleft := h.available
    rw [unfinished, total_enter]
    change engine.available - engine.firstStage.holds +
      (engine.unfinished + engine.firstStage.holds) = permits
    omega
  case isClosed =>
    have hevent : Event.execute work ≠ .close := nofun
    exact h.isClosed.trans (close_mem_concat hevent).symm
  case submitted => exact h.submitted.trans (htotal _ hcounts).symm
  case rejected => exact h.rejected.trans (htotal _ hrefusals).symm
  case active => exact h.active.trans (htotal _ hruns).symm
  case ended => exact h.ended.trans (htotal _ (hreached .ended)).symm
  case completed => exact h.completed.trans (countP_concat_of_not events rfl).symm
  case panicked => exact h.panicked.trans (countP_concat_of_not events rfl).symm
  case works =>
    rw [List.filterMap_append, ← h.works]
    exact List.map_append
  case reached =>
    intro milestone number
    rw [countP_concat_of_not events rfl, h.reached]
    exact (tally_enter _ work (hreached milestone) number).symm

/-- A step of a call or task. -/
theorem ofFlight (h : Sound permits events engine) {flight : Flight} {after : FlightStage}
    (hflight : engine.flights[number]? = some flight)
    (hstep : engine.FlightSteps number flight event after changed) :
    Sound permits (events ++ [event]) (changed.setStage number after) := by
  have hle : flight.stage.runs ≤ engine.counters.active := by
    rw [h.active]
    exact List.single_le_sum (fun _ _ ↦ Nat.zero_le _) _
      (List.mem_map_of_mem (f := fun flight : Flight ↦ flight.stage.runs)
        (List.mem_of_getElem? hflight))
  constructor
  case maxInFlight => exact hstep.maxInFlight_eq.trans h.maxInFlight
  case available =>
    have htotal := hstep.total_eq hflight (·.holds)
    have hmove : changed.available + after.holds = engine.available + flight.stage.holds := by
      cases hstep with
      | accept hstage | refuse hstage | begin hstage | finish hstage | free hstage =>
        rw [hstage]
        rfl
    have hleft := h.available
    rw [unfinished] at hleft ⊢
    change changed.available + (changed.setStage number after).total (·.holds) = permits
    omega
  case isClosed =>
    have hevent : event ≠ .close := by
      rintro rfl
      cases hstep.task?_eq
    rw [close_mem_concat hevent, ← h.isClosed, ← hstep.isClosed_eq]
    rfl
  case submitted =>
    refine hstep.counts_eq hflight h.submitted ?_
    cases hstep with
    | finish hstage outcome => cases outcome <;> rw [hstage] <;> rfl
    | accept hstage | refuse hstage | begin hstage | free hstage =>
      rw [hstage]
      rfl
  case rejected =>
    refine hstep.counts_eq hflight h.rejected ?_
    cases hstep with
    | finish hstage outcome => cases outcome <;> rw [hstage] <;> rfl
    | accept hstage | refuse hstage | begin hstage | free hstage =>
      rw [hstage]
      rfl
  case active =>
    refine hstep.counts_eq hflight h.active ?_
    cases hstep with
    | finish hstage outcome =>
      rw [hstage] at hle ⊢
      change (engine.counters.finish outcome).active + 1 = engine.counters.active
      rw [Counters.active_finish]
      exact Nat.sub_add_cancel hle
    | accept hstage | refuse hstage | begin hstage | free hstage =>
      rw [hstage]
      rfl
  case ended =>
    refine hstep.counts_eq hflight h.ended ?_
    cases hstep with
    | finish hstage outcome =>
      rw [hstage]
      cases outcome
      · exact Nat.add_right_comm engine.counters.completed 1 engine.counters.panicked
      · rfl
    | accept hstage | refuse hstage | begin hstage | free hstage =>
      rw [hstage]
      rfl
  case completed =>
    rw [countP_concat, ← h.completed]
    cases hstep with
    | finish hstage outcome => cases outcome <;> rfl
    | accept hstage | refuse hstage | begin hstage | free hstage => rfl
  case panicked =>
    rw [countP_concat, ← h.panicked]
    cases hstep with
    | finish hstage outcome => cases outcome <;> rfl
    | accept hstage | refuse hstage | begin hstage | free hstage => rfl
  case works =>
    rw [List.filterMap_append, List.filterMap_cons, hstep.submitted?_eq, List.filterMap_nil,
      List.append_nil, ← h.works]
    ext1 position
    rw [List.getElem?_map, List.getElem?_map, hstep.getElem?_eq hflight]
    by_cases hnumber : number = position
    · subst hnumber
      rw [if_pos rfl, hflight]
      rfl
    · rw [if_neg hnumber]
  case reached =>
    intro milestone other
    rw [countP_concat, h.reached]
    exact (hstep.tally_eq hflight milestone other).symm

theorem step (h : Sound permits events engine) (hstep : engine.step event = some next) :
    Sound permits (events ++ [event]) next := by
  cases steps_of_step hstep with
  | execute work => exact h.execute work
  | ofFlight number hflight hmove => exact h.ofFlight hflight hmove
  | close =>
    exact
      { h with
        isClosed := iff_of_true rfl (List.mem_concat_self ..)
        completed := h.completed.trans (countP_concat_of_not events rfl).symm
        panicked := h.panicked.trans (countP_concat_of_not events rfl).symm
        works := by
          rw [List.filterMap_append]
          exact h.works.trans (List.append_nil _).symm
        reached := fun milestone number ↦
          (countP_concat_of_not events rfl).trans (h.reached milestone number) }

theorem run {maxInFlight : Nat} (hrun : (create maxInFlight).run events = some engine) :
    Sound (max maxInFlight 1) events engine :=
  foldlM_induction (motive := fun events engine ↦ Sound (max maxInFlight 1) events engine)
    (start maxInFlight) (fun hstep h ↦ h.step hstep) hrun

end Sound

/-! ### What can be relied on -/

/-- What is known of an engine with the given number of permits after the given events. -/
structure Kept (permits : Nat) (events : List Event) (engine : InFlight) : Prop where
  /-- Accepted works are bounded. -/
  unfinished_le : engine.unfinished ≤ permits
  /-- Every call is there, with its work. -/
  works : engine.flights.map (·.work) = events.filterMap (·.submitted?)
  /-- The engine is closed once somebody has closed it. -/
  isClosed : engine.isClosed = true ↔ .close ∈ events
  /-- A further call is accepted exactly if the engine is open and not full. -/
  answer : ∀ work, ∃ next, engine.step (.execute work) = some next ∧
    next.flights = engine.flights ++ [⟨work,
      if engine.isClosed then .refusing .shutDown
      else if engine.unfinished < permits then .permitted
      else .refusing .queueFull⟩]
  /-- The work of a call has begun and ended, and its permit come back, as often as its stage says:
  never if it was refused, and never twice. -/
  reached : ∀ {number : Nat} {flight : Flight}, engine.flights[number]? = some flight →
    ∀ milestone, events.countP (·.reaches milestone number) = flight.stage.reached milestone
  /-- The engine counts the ends of works by their outcomes, and the works that run. -/
  counted : engine.stats.completed = events.countP (·.completes) ∧
    engine.stats.panicked = events.countP (·.panics) ∧
    engine.stats.activeWorkers = engine.total (·.runs)
  /-- There are never more permits left than there are. -/
  available_le : engine.available ≤ engine.maxInFlight
  liveWorkers : engine.stats.liveWorkers = engine.unfinished
  capacity : engine.stats.queueCapacity = permits ∧ engine.stats.maxWorkers = permits
  /-- When no call or task is midway, the numbers add up. -/
  settled : (∀ flight ∈ engine.flights, flight.stage.isSettled = true) →
    engine.stats.submitted + engine.stats.rejected = (events.filterMap (·.submitted?)).length ∧
      engine.stats.submitted =
        engine.stats.completed + engine.stats.panicked + engine.unfinished
  /-- When every call and task has come to its end, every accepted work has been begun, ended and
  let go once, and every permit is back. -/
  landed : (∀ flight ∈ engine.flights, flight.stage.effort = 0) →
    engine.available = permits ∧
      ∀ {number : Nat} {flight : Flight}, engine.flights[number]? = some flight →
        flight.stage.cause? = none →
        ∀ milestone, events.countP (·.reaches milestone number) = 1

/-- What is known of what comes after. -/
structure Lands (engine : InFlight) : Prop where
  /-- A call and its task keep their work and what the call was answered, and each of their steps
  brings them nearer to their end, whatever happens besides. -/
  lasting : ∀ {later : List Event} {last : InFlight}, engine.run later = some last →
    ∀ {number : Nat} {flight : Flight}, engine.flights[number]? = some flight →
      ∃ after, last.flights[number]? = some after ∧ after.work = flight.work ∧
        after.stage.cause? = flight.stage.cause? ∧
        later.countP (fun event ↦ event.task? = some number) + after.stage.effort =
          flight.stage.effort
  /-- A call or task that is not at its end can take a step. -/
  moves : ∀ {number : Nat} {flight : Flight}, engine.flights[number]? = some flight →
    flight.stage.effort ≠ 0 →
      ∃ event next, event.task? = some number ∧ engine.step event = some next
  /-- Calls and tasks come to their ends by themselves. -/
  rests : ∃ later last, engine.run later = some last ∧
    (∀ event ∈ later, event.task?.isSome = true) ∧ ∀ flight ∈ last.flights, flight.stage.effort = 0
  /-- A closed engine stays closed and accepts nothing more. -/
  closed : engine.isClosed = true →
    ∀ {later : List Event} {last : InFlight}, engine.run later = some last →
      last.isClosed = true ∧
        ∀ {number : Nat} {flight : Flight}, engine.flights.length ≤ number →
          last.flights[number]? = some flight → flight.stage.cause? = some .shutDown

theorem Sound.liveWorkers {permits : Nat} {events : List Event} (h : Sound permits events engine) :
    engine.stats.liveWorkers = engine.unfinished := by
  have hmax := h.maxInFlight
  have hleft := h.available
  change engine.maxInFlight - min engine.available engine.maxInFlight = engine.unfinished
  omega

theorem Sound.settled {permits : Nat} {events : List Event} (h : Sound permits events engine)
    (hsettled : ∀ flight ∈ engine.flights, flight.stage.isSettled = true) :
    engine.counters.submitted + engine.counters.rejected = engine.flights.length ∧
      engine.counters.submitted =
        engine.counters.completed + engine.counters.panicked + engine.unfinished := by
  constructor
  · rw [h.submitted, h.rejected, ← total_add,
      total_const fun flight hflight ↦ FlightStage.counts_add_refusals (hsettled flight hflight)]
    exact Nat.mul_one _
  · rw [h.submitted, h.ended, unfinished, ← total_add]
    exact (total_congr fun flight hflight ↦
      FlightStage.ends_add_holds (hsettled flight hflight)).symm

theorem Sound.kept {permits : Nat} {events : List Event} (h : Sound permits events engine) :
    Kept permits events engine := by
  have hreached : ∀ {number : Nat} {flight : Flight}, engine.flights[number]? = some flight →
      ∀ milestone, events.countP (·.reaches milestone number) = flight.stage.reached milestone := by
    intro number flight hflight milestone
    rw [h.reached, tally, hflight]
    rfl
  constructor
  case unfinished_le => exact Nat.le.intro ((Nat.add_comm ..).trans h.available)
  case works => exact h.works
  case isClosed => exact h.isClosed
  case answer =>
    intro work
    refine ⟨_, step_execute engine work, ?_⟩
    have hfull : engine.available = 0 ↔ ¬ engine.unfinished < permits := by
      have hleft := h.available
      omega
    simp only [enter, firstStage, hfull, ite_not]
  case reached => exact hreached
  case counted => exact ⟨h.completed, h.panicked, h.active⟩
  case available_le =>
    rw [h.maxInFlight]
    exact Nat.le.intro h.available
  case liveWorkers => exact h.liveWorkers
  case capacity => exact ⟨h.maxInFlight, h.maxInFlight⟩
  case settled =>
    intro hsettled
    have hnumbers := h.settled hsettled
    rw [← h.works, List.length_map]
    exact hnumbers
  case landed =>
    intro hrest
    constructor
    · have hnone : engine.unfinished = 0 :=
        List.sum_eq_zero (by
          intro held hheld
          obtain ⟨flight, hflight, rfl⟩ := List.mem_map.mp hheld
          exact FlightStage.holds_of_effort (hrest flight hflight))
      have hleft := h.available
      omega
    · intro number flight hflight hcause milestone
      rw [hreached hflight]
      exact FlightStage.reached_of_effort (hrest flight (List.mem_of_getElem? hflight)) hcause
        milestone

/-! ### What comes after -/

theorem getElem?_execute {work position : Nat} {stage : FlightStage}
    (hnew : engine.flights.length ≤ position) {flight : Flight}
    (hflight : (engine.flights ++ [⟨work, stage⟩])[position]? = some flight) :
    flight.stage = stage := by
  rw [List.getElem?_append_right hnew, List.getElem?_singleton] at hflight
  obtain ⟨-, ⟨⟩⟩ := Option.ite_none_right_eq_some.mp hflight
  rfl

/-- A step leaves a call or task where it is, or is its own and brings it one step nearer to its
end. -/
theorem Steps.flight (h : engine.Steps event next) {flight : Flight}
    (hflight : engine.flights[number]? = some flight) :
    ∃ after, next.flights[number]? = some after ∧ after.work = flight.work ∧
      after.stage.cause? = flight.stage.cause? ∧
      (if event.task? = some number then 1 else 0) + after.stage.effort = flight.stage.effort := by
  cases h with
  | execute work =>
    refine ⟨flight, ?_, rfl, rfl, Nat.zero_add _⟩
    exact (List.getElem?_append_left (List.getElem?_eq_some_iff.mp hflight).1).trans hflight
  | ofFlight moved hmoved hstep =>
    rw [hstep.getElem?_eq hmoved, hstep.task?_eq]
    by_cases hnumber : moved = number
    · subst hnumber
      obtain rfl : _ = flight := Option.some.inj (hmoved.symm.trans hflight)
      refine ⟨_, if_pos rfl, rfl, hstep.cause?_eq, ?_⟩
      rw [if_pos rfl, hstep.effort_eq]
      exact Nat.add_comm ..
    · refine ⟨flight, (if_neg hnumber).trans hflight, rfl, rfl, ?_⟩
      rw [if_neg fun heq ↦ hnumber (Option.some.inj heq)]
      exact Nat.zero_add _
  | close => exact ⟨flight, hflight, rfl, rfl, Nat.zero_add _⟩

theorem run_flight {later : List Event} (hrun : engine.run later = some last) {flight : Flight}
    (hflight : engine.flights[number]? = some flight) :
    ∃ after, last.flights[number]? = some after ∧ after.work = flight.work ∧
      after.stage.cause? = flight.stage.cause? ∧
      later.countP (fun event ↦ event.task? = some number) + after.stage.effort =
        flight.stage.effort := by
  refine foldlM_induction (motive := fun later last ↦ ∃ after, last.flights[number]? = some after ∧
    after.work = flight.work ∧ after.stage.cause? = flight.stage.cause? ∧
    later.countP (fun event ↦ event.task? = some number) + after.stage.effort = flight.stage.effort)
    ⟨flight, hflight, rfl, rfl, Nat.zero_add _⟩ ?_ hrun
  rintro later state next event hstep ⟨after, hafter, hwork, hcause, heffort⟩
  obtain ⟨after', hafter', hwork', hcause', heffort'⟩ := (steps_of_step hstep).flight hafter
  refine ⟨after', hafter', hwork'.trans hwork, hcause'.trans hcause, ?_⟩
  rw [countP_concat]
  simp only [decide_eq_true_eq]
  omega

/-- A call or task that is not at its end can take a step. -/
theorem exists_step {flight : Flight} (hflight : engine.flights[number]? = some flight)
    (heffort : flight.stage.effort ≠ 0) :
    ∃ event next, event.task? = some number ∧ engine.step event = some next := by
  have hstep : ∀ event : Event, (∃ outcome, event = .count number ∨ event = .begin number ∨
      event = .finish number outcome ∨ event = .free number) →
      engine.step event = engine.stepFlight number flight event := by
    rintro event ⟨outcome, rfl | rfl | rfl | rfl⟩ <;> simp only [step, hflight, Option.bind_some]
  cases hstage : flight.stage with
  | permitted | refusing cause =>
    exact ⟨.count number, _, rfl,
      (hstep _ ⟨.completed, by simp⟩).trans (by rw [stepFlight, hstage])⟩
  | spawned =>
    exact ⟨.begin number, _, rfl,
      (hstep _ ⟨.completed, by simp⟩).trans (by rw [stepFlight, if_pos hstage])⟩
  | running =>
    exact ⟨.finish number .completed, _, rfl,
      (hstep _ ⟨.completed, by simp⟩).trans (by rw [stepFlight, if_pos hstage])⟩
  | ended =>
    exact ⟨.free number, _, rfl,
      (hstep _ ⟨.completed, by simp⟩).trans (by rw [stepFlight, if_pos hstage])⟩
  | _ =>
    rw [hstage] at heffort
    exact absurd rfl heffort

/-- The steps that calls and tasks under way take until they are at their ends. -/
theorem total_effort (h : engine.Steps event next) (htask : event.task?.isSome = true) :
    next.total (·.effort) + 1 = engine.total (·.effort) := by
  cases h with
  | execute work => cases htask
  | ofFlight number hflight hstep =>
    have htotal := hstep.total_eq hflight (·.effort)
    have heffort := hstep.effort_eq
    omega
  | close => cases htask

theorem exists_run_to_rest (engine : InFlight) :
    ∃ later last, engine.run later = some last ∧ (∀ event ∈ later, event.task?.isSome = true) ∧
      ∀ flight ∈ last.flights, flight.stage.effort = 0 := by
  induction hleft : engine.total (·.effort) generalizing engine with
  | zero =>
    refine ⟨[], engine, rfl, fun _ hevent ↦ absurd hevent List.not_mem_nil, ?_⟩
    intro flight hflight
    exact List.sum_eq_zero_iff.mp hleft _ (List.mem_map_of_mem hflight)
  | succ left ih =>
    obtain ⟨flight, hflight, heffort⟩ : ∃ flight ∈ engine.flights, flight.stage.effort ≠ 0 := by
      by_contra hnone
      push Not at hnone
      have hzero : engine.total (·.effort) = 0 := total_const hnone
      omega
    obtain ⟨number, hnumber⟩ := List.getElem?_of_mem hflight
    obtain ⟨event, next, htask, hstep⟩ := exists_step hnumber heffort
    have hsome : event.task?.isSome = true := by rw [htask]; rfl
    have htotal := total_effort (steps_of_step hstep) hsome
    obtain ⟨later, last, hrun, hown, hrest⟩ := ih next (by omega)
    refine ⟨event :: later, last, ?_, List.forall_mem_cons.mpr ⟨hsome, hown⟩, hrest⟩
    exact Option.bind_eq_some_iff.mpr ⟨next, hstep, hrun⟩

/-- A closed engine stays closed, and the calls that come to it are refused. -/
theorem run_closed {later : List Event} (hrun : engine.run later = some last)
    (hclosed : engine.isClosed = true) :
    last.isClosed = true ∧ ∀ {number : Nat} {flight : Flight}, engine.flights.length ≤ number →
      last.flights[number]? = some flight → flight.stage.cause? = some .shutDown := by
  refine foldlM_keeps (motive := fun last ↦ last.isClosed = true ∧
    ∀ {number : Nat} {flight : Flight}, engine.flights.length ≤ number →
      last.flights[number]? = some flight →
      flight.stage.cause? = some .shutDown) ?_ hrun ⟨hclosed, ?_⟩
  · rintro state next event hstep ⟨hclosed, hrefused⟩
    cases steps_of_step hstep with
    | execute work =>
      refine ⟨hclosed, fun {number flight} hnew hflight ↦ ?_⟩
      rcases Nat.lt_or_ge number state.flights.length with hlt | hge
      · exact hrefused hnew ((List.getElem?_append_left hlt).symm.trans hflight)
      · have hstage := getElem?_execute hge hflight
        rw [hstage, firstStage, if_pos hclosed]
        rfl
    | ofFlight moved hmoved hmove =>
      refine ⟨hmove.isClosed_eq.trans hclosed, fun {number flight} hnew hflight ↦ ?_⟩
      rw [hmove.getElem?_eq hmoved] at hflight
      by_cases hnumber : moved = number
      · subst hnumber
        rw [if_pos rfl] at hflight
        cases hflight
        exact hmove.cause?_eq.trans (hrefused hnew hmoved)
      · rw [if_neg hnumber] at hflight
        exact hrefused hnew hflight
    | close => exact ⟨rfl, hrefused⟩
  · intro number flight hnew hflight
    rw [List.getElem?_eq_none hnew] at hflight
    cases hflight

theorem lands (engine : InFlight) : engine.Lands where
  lasting hrun _ _ hflight := run_flight hrun hflight
  moves hflight heffort := exists_step hflight heffort
  rests := exists_run_to_rest engine
  closed hclosed _ _ hrun := run_closed hrun hclosed

/-- An engine never has more unfinished works than permits, it accepts a call exactly if it is open
and a permit is left, and what it has accepted is run once and gives its permit back, whatever
happens and when. -/
theorem keeps_within_permits (maxInFlight : Nat) (events : List Event) (engine : InFlight)
    (hrun : (create maxInFlight).run events = some engine) :
    Kept (max maxInFlight 1) events engine ∧ engine.Lands :=
  ⟨(Sound.run hrun).kept, engine.lands⟩

/-- With a single permit: a call comes while the first work has it, another after the engine is
closed, and the first work panics after that. -/
theorem keeps_within_permits_single :
    let events : List Event :=
      [.execute 7, .execute 8, .count 1, .count 0, .begin 0, .close, .execute 9,
        .finish 0 (.failed (.panicked "work")), .count 2, .free 0]
    ∃ engine : InFlight, (create 0).run events = some engine ∧
      (Kept 1 events engine ∧ engine.Lands) ∧
      engine.flights = [⟨7, .over⟩, ⟨8, .refused .queueFull⟩, ⟨9, .refused .shutDown⟩] ∧
      engine.stats.submitted = 1 ∧ engine.stats.rejected = 2 ∧ engine.stats.panicked = 1 := by
  intro events
  refine ⟨((create 0).run events).get (by decide +kernel), (Option.some_get _).symm,
    keeps_within_permits 0 events _ (Option.some_get _).symm, ?_⟩
  decide +kernel

end InFlight

end Admission
