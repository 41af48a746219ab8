import Admission.Proofs.Speed

/-!
# What becomes of a category

Whatever is going on at a controller, one event does one thing to one category at most: the category
is created, a submission for it is counted, a request for it is answered, or a lease of it is
settled, as released or as lost. `Activity.Dealing.Leaves` says which, and with which values, of the
category at a position, and `Activity.leaves_step` says so of every event.

The `Activity.passages` of a run are its events one after another, each with the activity before and
after it.
-/

set_option autoImplicit false
set_option relaxedAutoImplicit false

namespace Admission

variable {R : Type} [Scalar R]

namespace Controller

/-- A look-up finds the category at its position or adds it there, with the weight that the source
serves for it. -/
theorem cases_getCategory {controller : Controller R} {source : Source} {now position : Nat}
    {name : String} {after : Category R}
    (hafter : (controller.getCategory source now name).1.categories[position]? = some after) :
    controller.categories[position]? = some after ∨
      controller.position? name = none ∧ controller.categories[position]? = none ∧
        after = .fresh name
          ((controller.refreshSettings source now).baseWeight source name) now := by
  unfold getCategory at hafter
  split at hafter
  · exact .inl hafter
  · next hnew =>
    have hcategories : (controller.createCategory source now name).1.categories =
        controller.categories.push (.fresh name
          ((controller.refreshSettings source now).baseWeight source name) now) := by
      rw [createCategory, hnew, ← categories_refreshSettings controller source now]
      rfl
    rw [hcategories, Array.getElem?_push] at hafter
    split at hafter
    · next hlast =>
      refine .inr ⟨hnew, ?_, (Option.some.inj hafter).symm⟩
      rw [hlast, Array.getElem?_eq_none le_rfl]
    · exact .inl hafter

end Controller

namespace Activity

variable {activity next : Activity R} {position : Nat}

/-! ### Categories -/

/-- What a dealing leaves of the category at a position. -/
inductive Dealing.Leaves (controller : Controller R) (position : Nat) (after : Category R) :
    Dealing → Prop
  | created {source : Source} {now : Nat} {name : String}
    (hnew : controller.position? name = none)
    (hnone : controller.categories[position]? = none)
    (hafter : after = .fresh name
      ((controller.refreshSettings source now).baseWeight source name) now) :
    Leaves controller position after (.lookUp source now name)
  | counted {now : Nat} {before : Category R}
    (hbefore : controller.categories[position]? = some before)
    (hafter : after = (before.recordSubmission controller.totals now
      controller.timings.popularityWindow).1) :
    Leaves controller position after (.count now position)
  | answered {source : Source} {settings : ControllerSettings} {now : Nat} {before : Category R}
    (hbefore : controller.categories[position]? = some before)
    (hafter : after = controller.answered source settings now before) :
    Leaves controller position after (.answer source settings now position)
  | finished {settings : ControllerSettings} {now : Nat} {lease : Lease} {before : Category R}
    (hlease : lease.category = position)
    (hbefore : controller.categories[position]? = some before)
    (hafter : after = (before.finish controller.totals lease.grantedAt now settings).1) :
    Leaves controller position after (.finish settings now lease)
  | lost {settings : ControllerSettings} {now : Nat} {reclaimed : Ledger.Reclaimed}
    {before : Category R} (hlease : reclaimed.lease.category = position)
    (hbefore : controller.categories[position]? = some before)
    (hafter : after =
      (before.abandon controller.totals reclaimed.lease.grantedAt now settings).1) :
    Leaves controller position after (.lose settings now reclaimed)
  | kept {dealing : Dealing} (hbefore : controller.categories[position]? = some after)
    (hidle : dealing.weighs? position = none) : Leaves controller position after dealing

theorem leaves_act {controller : Controller R} {dealing : Dealing} {after : Category R}
    (hafter : (dealing.act controller).categories[position]? = some after) :
    dealing.Leaves controller position after := by
  cases dealing with
  | nothing => exact .kept hafter rfl
  | lookUp source now name =>
    rcases Controller.cases_getCategory hafter with hbefore | ⟨hnew, hnone, hfresh⟩
    · exact .kept hbefore rfl
    · exact .created hnew hnone hfresh
  | count now place =>
    rcases Controller.cases_updateCategory hafter with ⟨before, rfl, hbefore, hcounted⟩ | ⟨-, hkept⟩
    · exact .counted hbefore hcounted
    · exact .kept hkept rfl
  | answer source settings now place =>
    rcases Controller.cases_answerAt hafter with ⟨before, rfl, hbefore, hanswered⟩ |
      ⟨hother, hkept⟩
    · exact .answered hbefore hanswered
    · exact .kept hkept (if_neg hother)
  | finish settings now lease =>
    rcases Controller.cases_updateCategory hafter with
      ⟨before, hlease, hbefore, hfinished⟩ | ⟨hother, hkept⟩
    · exact .finished hlease hbefore hfinished
    · exact .kept hkept (if_neg hother)
  | lose settings now reclaimed =>
    rcases Controller.cases_updateCategory hafter with ⟨before, hlease, hbefore, hlost⟩ |
      ⟨hother, hkept⟩
    · exact .lost hlease hbefore hlost
    · exact .kept hkept (if_neg hother)

theorem leaves_step {event : Event} (hstep : activity.step event = some next)
    {after : Category R} (hafter : next.controller.categories[position]? = some after) :
    (activity.dealing event).Leaves activity.controller position after := by
  rw [(dealt_step hstep).categories] at hafter
  exact leaves_act hafter

/-! ### Events one after another -/

/-- One event of a run, with the activity before and after it. -/
structure Passage (R : Type) where
  before : Activity R
  event : Event
  after : Activity R

/-- The events of a run as long as they can happen. -/
def passages (activity : Activity R) : List Event → List (Passage R)
  | [] => []
  | event :: events =>
    match activity.step event with
    | none => []
    | some next => ⟨activity, event, next⟩ :: next.passages events

theorem passages_concat {last : Activity R} {events : List Event} {event : Event}
    (hrun : activity.run events = some last) (hstep : last.step event = some next) :
    activity.passages (events ++ [event]) = activity.passages events ++ [⟨last, event, next⟩] := by
  induction events generalizing activity with
  | nil =>
    cases hrun
    simp [passages, hstep]
  | cons first rest ih =>
    rw [run_cons] at hrun
    obtain ⟨middle, hmiddle, hrest⟩ := Option.bind_eq_some_iff.mp hrun
    simp [passages, hmiddle, ih hrest]

end Activity

end Admission
