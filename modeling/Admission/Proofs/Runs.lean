import Mathlib.Data.List.Induction

/-!
# Runs of events

A system that many parties act on is given by a function that says what one event makes of a state,
if the event is possible in it, and a run is a fold of that function over the events. A run ends
with its last event (`foldlM_concat_eq_some_iff`), so whatever holds of a run by the events so far
holds by induction on that event (`foldlM_induction`), and what every event keeps, every run keeps
(`foldlM_keeps`). The number of events of a kind grows with the last event if it is of that kind
(`countP_concat`).
-/

set_option autoImplicit false
set_option relaxedAutoImplicit false

namespace Admission

variable {State Event : Type*} {step : State → Event → Option State} {start last : State}
  {events : List Event}

/-- A run of some events and a last one. -/
theorem foldlM_concat_eq_some_iff {event : Event} :
    (events ++ [event]).foldlM step start = some last ↔
      ∃ state, events.foldlM step start = some state ∧ step state event = some last := by
  rw [List.foldlM_append, Option.bind_eq_bind, Option.bind_eq_some_iff]
  simp only [List.foldlM_cons, List.foldlM_nil, bind_pure]

/-- A property of a state and the events that have led to it holds of every run if it holds at the
start and each event hands it on. -/
theorem foldlM_induction {motive : List Event → State → Prop} (hstart : motive [] start)
    (hstep : ∀ {events : List Event} {state next : State} {event : Event},
      step state event = some next → motive events state → motive (events ++ [event]) next)
    (hrun : events.foldlM step start = some last) : motive events last := by
  induction events using List.reverseRecOn generalizing last with
  | nil =>
    cases hrun
    exact hstart
  | append_singleton events event ih =>
    obtain ⟨state, hstate, hlast⟩ := foldlM_concat_eq_some_iff.mp hrun
    exact hstep hlast (ih hstate)

/-- What every event keeps, every run keeps. -/
theorem foldlM_keeps {motive : State → Prop}
    (hstep : ∀ {state next : State} {event : Event},
      step state event = some next → motive state → motive next)
    (hrun : events.foldlM step start = some last) (h : motive start) : motive last :=
  foldlM_induction (motive := fun _ ↦ motive) h hstep hrun

/-- A run of some events and then others. -/
theorem foldlM_append_eq_some_iff {later : List Event} :
    (events ++ later).foldlM step start = some last ↔
      ∃ middle, events.foldlM step start = some middle ∧ later.foldlM step middle = some last := by
  rw [List.foldlM_append]
  exact Option.bind_eq_some_iff

/-! ### Events of a kind -/

theorem countP_concat (p : Event → Bool) (events : List Event) (event : Event) :
    (events ++ [event]).countP p = events.countP p + if p event then 1 else 0 := by
  rw [List.countP_append, List.countP_singleton]

theorem countP_concat_of_not {p : Event → Bool} (events : List Event) {event : Event}
    (hevent : p event = false) : (events ++ [event]).countP p = events.countP p := by
  rw [countP_concat, hevent]
  exact Nat.add_zero _

end Admission
