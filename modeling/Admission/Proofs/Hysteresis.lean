import Admission.Proofs.Course
import Mathlib.Data.Nat.Cast.Order.Field
import Mathlib.Data.Rat.Floor

/-!
# Changes of overload

A category enters overload above the warning band of its limit and leaves it below the release
band, and as long as the bands do not overlap no use of a limit calls for both
(`OverloadState.not_entered_and_cleared`).

The changes of one category make a `Chain`: they alternate, and each begins when the one before it
ended. Only a request for the category makes such a change, so in every course of a controller what
is told of a category is the chain of its changes (`Course.chain`). Each of them names the use and
the limit that called for it (`Course.exists_calledBy`).
-/

set_option autoImplicit false
set_option relaxedAutoImplicit false

namespace Admission

variable {R : Type}

/-! ### Entering and leaving -/

namespace OverloadState

variable {state : OverloadState} {active limit : Nat} {settings : ControllerSettings}

/-- A category enters overload above the warning band. -/
theorem transition?_eq_entered [Scalar R] :
    state.transition? R active limit settings = some .entered ↔
      state.overloaded = false ∧
        (band limit settings.warningPercent : R) < Scalar.ofNat active := by
  unfold transition?
  split
  · next henter => exact ⟨fun _ ↦ henter, fun _ ↦ rfl⟩
  · next hstay => split <;> simp [hstay]

/-- A category leaves overload below the release band. -/
theorem transition?_eq_cleared [Scalar R] :
    state.transition? R active limit settings = some .cleared ↔
      state.overloaded = true ∧ (Scalar.ofNat active : R) < band limit settings.releasePercent := by
  unfold transition?
  split
  · next henter => simp [henter.1]
  · split
    · next hclear => exact ⟨fun _ ↦ hclear, fun _ ↦ rfl⟩
    · next hstay => simp [hstay]

/-- A change is one of the state that there is. -/
theorem entered_iff_of_transition? [Scalar R] {transition : Transition}
    (h : state.transition? R active limit settings = some transition) :
    transition = .entered ↔ state.overloaded = false := by
  cases transition with
  | entered => simp [(transition?_eq_entered.mp h).1]
  | cleared => simp [(transition?_eq_cleared.mp h).1]

theorem band_eq (limit percent : Nat) :
    (band limit percent : Rat) = ((limit * percent : Nat) : Rat) / 100 := by
  rw [Nat.cast_mul]
  rfl

theorem band_lt_iff {percent : Nat} :
    (band limit percent : Rat) < Scalar.ofNat active ↔ limit * percent < active * 100 := by
  have hlt : (band limit percent : Rat) < (active : Rat) ↔ limit * percent < active * 100 := by
    rw [band_eq, div_lt_iff₀ (by norm_num)]
    exact_mod_cast Iff.rfl
  exact hlt

theorem lt_band_iff {percent : Nat} :
    (Scalar.ofNat active : Rat) < band limit percent ↔ active * 100 < limit * percent := by
  have hlt : (active : Rat) < band limit percent ↔ active * 100 < limit * percent := by
    rw [band_eq, lt_div_iff₀ (by norm_num)]
    exact_mod_cast Iff.rfl
  exact hlt

/-- As long as the release band is not above the warning band, no use of a limit calls both for
entering and for leaving. -/
theorem not_entered_and_cleared (h : settings.releasePercent ≤ settings.warningPercent)
    {other : OverloadState} :
    ¬(state.transition? Rat active limit settings = some .entered ∧
      other.transition? Rat active limit settings = some .cleared) := by
  rw [transition?_eq_entered, transition?_eq_cleared, band_lt_iff, lt_band_iff]
  rintro ⟨⟨-, henter⟩, -, hclear⟩
  have hbands : limit * settings.releasePercent ≤ limit * settings.warningPercent :=
    Nat.mul_le_mul_left limit h
  omega

/-- After a change the same use of the same limit calls for none. -/
theorem transition?_apply (h : settings.releasePercent ≤ settings.warningPercent) {now : Nat}
    {transition : Transition}
    (hchange : state.transition? Rat active limit settings = some transition) :
    (state.apply now (some transition)).transition? Rat active limit settings = none := by
  rcases hagain : (state.apply now (some transition)).transition? Rat active limit settings with
    _ | again
  · rfl
  · have hturn := entered_iff_of_transition? hagain
    cases transition with
    | entered =>
      cases again with
      | entered => simp [apply] at hturn
      | cleared => exact absurd ⟨hchange, hagain⟩ (not_entered_and_cleared h)
    | cleared =>
      cases again with
      | entered => exact absurd ⟨hagain, hchange⟩ (not_entered_and_cleared h)
      | cleared => simp [apply] at hturn

end OverloadState

/-! ### A chain of changes -/

/-- Changes of one category that alternate, beginning with one into overload, each from the time of
the one before it on. The first is of the state from the creation on, and the state afterwards is
that of the last. -/
structure Chain (created : Nat) (state : OverloadState) (events : List OverloadEvent) : Prop where
  alternates : ∀ {index : Nat} {event : OverloadEvent}, events[index]? = some event →
    event.transition = if index % 2 = 0 then .entered else .cleared
  since : ∀ {index : Nat} {event : OverloadEvent}, events[index]? = some event →
    (created :: events.map (·.time))[index]? = some event.since
  overloaded : state.overloaded = true ↔
    ∃ event, events.getLast? = some event ∧ event.transition = .entered
  changedAt : (created :: events.map (·.time)).getLast? = some state.changedAt

namespace Chain

variable {created now : Nat} {state : OverloadState} {events : List OverloadEvent}

theorem start (created : Nat) : Chain created ⟨false, created⟩ [] := by
  constructor
  case alternates => simp
  case since => simp
  case overloaded => simp
  case changedAt => simp

/-- The next change is into overload after an even number of changes. -/
theorem parity (h : Chain created state events) :
    state.overloaded = false ↔ events.length % 2 = 0 := by
  rcases events.eq_nil_or_concat' with rfl | ⟨before, last, rfl⟩
  · simpa using h.overloaded
  · have hlast : (before ++ [last])[before.length]? = some last := by simp
    have hentered : state.overloaded = true ↔ last.transition = .entered := by
      simpa only [List.getLast?_concat, Option.some.injEq, exists_eq_left'] using h.overloaded
    have hindex : last.transition = .entered ↔ before.length % 2 = 0 := by
      rw [h.alternates hlast]
      split <;> simp_all
    rw [List.length_append, List.length_singleton, ← Bool.not_eq_true, hentered, hindex]
    omega

/-- An event of a longer chain was there before, or it is the last. -/
theorem cases_concat {index : Nat} {event other : OverloadEvent}
    (h : (events ++ [event])[index]? = some other) :
    events[index]? = some other ∨ index = events.length ∧ other = event := by
  rcases Nat.lt_trichotomy index events.length with hlt | rfl | hgt
  · rw [List.getElem?_append_left hlt] at h
    exact .inl h
  · rw [List.getElem?_concat_length] at h
    exact .inr ⟨rfl, (Option.some.inj h).symm⟩
  · rw [List.getElem?_eq_none (by simp; omega)] at h
    cases h

/-- A change of the state that there is goes on with the chain. -/
theorem concat (h : Chain created state events) {event : OverloadEvent}
    (hturn : event.transition = .entered ↔ state.overloaded = false)
    (hsince : event.since = state.changedAt) :
    Chain created ⟨event.transition = .entered, event.time⟩ (events ++ [event]) := by
  constructor
  case alternates =>
    intro index other hother
    rcases cases_concat hother with hbefore | ⟨rfl, rfl⟩
    · exact h.alternates hbefore
    · rw [h.parity] at hturn
      cases htransition : other.transition <;> simp_all
  case since =>
    intro index other hother
    rw [List.map_append, ← List.cons_append]
    rcases cases_concat hother with hbefore | ⟨rfl, rfl⟩
    · have hlt := (List.getElem?_eq_some_iff.mp hbefore).1
      rw [List.getElem?_append_left (by simp; omega)]
      exact h.since hbefore
    · have hlast := h.changedAt
      rw [List.getLast?_eq_getElem?, List.length_cons, List.length_map] at hlast
      rw [List.getElem?_append_left (by simp), hsince]
      exact hlast
  case overloaded => simp
  case changedAt =>
    rw [List.map_append, ← List.cons_append, List.map_singleton, List.getLast?_concat]

end Chain

/-! ### What a controller tells of it -/

/-- The change of overload that a notice is about. -/
def Notice.alert? : Notice R → Option OverloadEvent
  | .overload event => some event
  | _ => none

/-- What a caller is told in return. -/
inductive Response where
  | nothing
  | admission (answer : Except AdmissionError Lease)
  | release (answer : Except AdmissionError Nat)
  | sweep (reclaimed : Nat)

/-- The outcome with the answer that makes a response. -/
def Outcome.respond {α : Type} (response : α → Response) (outcome : Outcome R α) :
    Outcome R Response :=
  ⟨outcome.controller, response outcome.answer, outcome.notices⟩

variable [Scalar R]

namespace Controller

/-- What a move leaves, answers and tells. -/
def outcome (controller : Controller R) (move : Move) : Outcome R Response :=
  match move.operation with
  | .requestAt position =>
    (controller.requestAt move.source move.now position).respond .admission
  | .request name => (controller.request move.source move.now name).respond .admission
  | .release number =>
    match controller.ledger.lease? number with
    | none => ⟨controller, .nothing, []⟩
    | some lease => (controller.release move.source move.now lease).respond .release
  | .drop number =>
    match controller.ledger.lease? number with
    | none => ⟨controller, .nothing, []⟩
    | some lease => (controller.drop lease).respond fun _ ↦ .nothing
  | .reconcile => (controller.reconcile move.source move.now).respond .sweep
  | _ => ⟨controller.perform move, .nothing, []⟩

theorem controller_outcome (controller : Controller R) (move : Move) :
    (controller.outcome move).controller = controller.perform move := by
  obtain ⟨operation, source, now⟩ := move
  cases operation with
  | release number | drop number =>
    simp only [outcome, perform, onLease]
    cases controller.ledger.lease? number <;> rfl
  | requestAt position | request name | reconcile => simp only [outcome, perform, Outcome.respond]
  | _ => rfl

/-- The changes of overload that a move tells of. -/
def alerts (controller : Controller R) (move : Move) : List OverloadEvent :=
  (controller.outcome move).notices.filterMap Notice.alert?

/-- A sweep tells of no change. -/
theorem alerts_sweep (controller : Controller R) (settings : ControllerSettings) (now : Nat) :
    (controller.sweep settings now).notices.filterMap Notice.alert? = [] := by
  rw [List.filterMap_eq_nil_iff]
  intro notice hmem
  obtain ⟨reclaimed, -, rfl⟩ := List.mem_map.mp hmem
  rfl

theorem alerts_sweepIfDue (controller : Controller R) (settings : ControllerSettings) (now : Nat) :
    (controller.sweepIfDue settings now).notices.filterMap Notice.alert? = [] := by
  unfold sweepIfDue
  split
  · exact alerts_sweep ..
  · rfl

theorem alerts_release (controller : Controller R) (source : Source) (now : Nat) (lease : Lease) :
    (controller.release source now lease).notices.filterMap Notice.alert? = [] := by
  unfold release
  dsimp only
  split
  · rfl
  · split <;> rfl

omit [Scalar R] in
theorem alerts_drop (controller : Controller R) (lease : Lease) :
    (controller.drop lease).notices.filterMap Notice.alert? = [] := by
  unfold drop
  split <;> rfl

/-- A decision tells of the change that it makes, granted or not. -/
theorem alerts_answerAt {source : Source} {settings : ControllerSettings} {now position : Nat}
    {controller : Controller R} {asked : Category R}
    (hasked : controller.categories[position]? = some asked) :
    (controller.answerAt source settings now position).notices.filterMap Notice.alert? =
      ((controller.decideFor source settings now asked).change.map (controller.overloadEvent
        (controller.decideFor source settings now asked).category now
          asked.overload.changedAt)).toList := by
  have hnotices : (controller.answerAt source settings now position).notices =
      controller.decisionNotices now asked (controller.decideFor source settings now asked) := by
    unfold answerAt
    rw [hasked]
    dsimp only
    split <;> rfl
  rw [hnotices, decisionNotices, List.filterMap_append]
  cases (controller.decideFor source settings now asked).peak <;>
    cases (controller.decideFor source settings now asked).change <;> rfl

end Controller

namespace Occasion

variable (R) in
/-- The change of overload that a request brings about, if it does. -/
def alert? (occasion : Occasion) : Option OverloadEvent :=
  ((occasion.plain R).categories[occasion.position]?).bind fun asked ↦
    let decision := (occasion.plain R).decideFor occasion.source (occasion.settings R) occasion.now
      asked
    decision.change.map ((occasion.plain R).overloadEvent decision.category occasion.now
      asked.overload.changedAt)

/-- A request for no category changes nothing. -/
theorem alert?_of_unknown {occasion : Occasion} (h : ¬occasion.Known R) :
    occasion.alert? R = none := by
  have hsize : (occasion.plain R).categories.size = (occasion.controller R).categories.size :=
    Controller.size_categories (Controller.names_beforeAnswerAt ..)
  have hnone : (occasion.plain R).categories[occasion.position]? = none := by
    rw [Array.getElem?_eq_none_iff, hsize]
    exact Nat.le_of_not_lt h
  rw [alert?, hnone]
  rfl

/-- A request tells of the change that it brings about. -/
theorem alerts_outcome (occasion : Occasion) :
    (occasion.outcome R).notices.filterMap Notice.alert? = (occasion.alert? R).toList := by
  have hanswer : ((occasion.plain R).answerAt occasion.source (occasion.settings R) occasion.now
      occasion.position).notices.filterMap Notice.alert? = (occasion.alert? R).toList := by
    rcases hasked : (occasion.plain R).categories[occasion.position]? with _ | asked
    · rw [Controller.answerAt, alert?, hasked]
      rfl
    · rw [Controller.alerts_answerAt hasked, alert?, hasked]
      rfl
  change ((_ ++ _ : List (Notice R))).filterMap Notice.alert? = _
  rw [List.filterMap_append, Controller.alerts_sweepIfDue, List.nil_append]
  exact hanswer

end Occasion

namespace Course

variable (R) in
/-- The changes of overload that are told of in a course, in order. -/
def alerts (course : Course) : List OverloadEvent :=
  yielded (fun course move ↦ (course.controller R).alerts move) course

theorem alerts_extend (course : Course) (move : Move) :
    (course.extend move).alerts R = course.alerts R ++ (course.controller R).alerts move :=
  yielded_extend ..

/-- A move tells of the change that its request brings about, and of none without a request. -/
theorem alerts_of_move (course : Course) (move : Move) :
    (course.controller R).alerts move = ((course.request? R move).bind (·.alert? R)).toList := by
  obtain ⟨operation, source, now⟩ := move
  cases operation with
  | requestAt position =>
    let occasion := course.occasion ⟨.requestAt position, source, now⟩ position
    have halerts : (course.controller R).alerts ⟨.requestAt position, source, now⟩ =
        (occasion.alert? R).toList := by
      rw [← occasion.alerts_outcome]
      simp only [Controller.alerts, Controller.outcome, Outcome.respond]
      rfl
    rw [halerts]
    by_cases hknown : position < (course.controller R).categories.size
    · have hrequest : course.request? R ⟨.requestAt position, source, now⟩ = some occasion :=
        if_pos hknown
      rw [hrequest, Option.bind_some]
    · have hrequest : course.request? R ⟨.requestAt position, source, now⟩ = none := if_neg hknown
      have hunknown : ¬occasion.Known R := hknown
      rw [hrequest, Occasion.alert?_of_unknown hunknown, Option.bind_none]
  | request name =>
    let known := course.extend ⟨.lookUp name, source, now⟩
    let occasion := known.occasion ⟨.request name, source, now⟩
      ((course.controller R).getCategory source now name).2
    have hopened : known.controller R = ((course.controller R).getCategory source now name).1 :=
      controller_extend R course ⟨.lookUp name, source, now⟩
    have hnotices : (occasion.outcome R).notices =
        ((course.controller R).request source now name).notices :=
      congrArg (fun controller : Controller R ↦ (controller.requestAt source now
        ((course.controller R).getCategory source now name).2).notices) hopened
    have hrequest : course.request? R ⟨.request name, source, now⟩ = some occasion := rfl
    rw [hrequest, Option.bind_some, ← occasion.alerts_outcome, hnotices]
    simp only [Controller.alerts, Controller.outcome, Outcome.respond]
  | release number =>
    rw [Controller.alerts, Controller.outcome]
    dsimp only
    cases (course.controller R).ledger.lease? number with
    | none => rfl
    | some lease => exact Controller.alerts_release ..
  | drop number =>
    rw [Controller.alerts, Controller.outcome]
    dsimp only
    cases (course.controller R).ledger.lease? number with
    | none => rfl
    | some lease => exact Controller.alerts_drop ..
  | reconcile =>
    exact Controller.alerts_sweep _ ((course.controller R).refreshSettings source now).current now
  | _ => rfl

/-- What is told of in a course are the changes that its requests bring about. -/
theorem alerts_eq (course : Course) :
    course.alerts R = (course.requests R).filterMap (·.alert? R) := by
  induction course using induction with
  | built id timings source start => rfl
  | extend course move ih =>
    rw [alerts_extend, requests_extend, List.filterMap_append, ih, alerts_of_move]
    rcases course.request? R move with _ | occasion
    · rfl
    · rw [Option.bind_some, Option.toList_some, List.filterMap_cons, List.filterMap_nil]
      cases occasion.alert? R <;> rfl

end Course

/-! ### The changes of one category -/

namespace Category

/-- The name of a category and its overload. -/
def alarm (category : Category R) : String × OverloadState := (category.name, category.overload)

theorem alarm_aside : Aside (R := R) alarm where
  finish _ _ _ _ _ := view_deactivateOne alarm (fun _ _ _ ↦ rfl) ..
  abandon _ _ _ _ _ := view_deactivateOne alarm (fun _ _ _ ↦ rfl) ..

/-- A decision goes by the overload so far, the leases held and its own limit. -/
theorem change_decide (category : Category R) (totals : Totals R) (now weight : Nat)
    (timings : Timings) (settings : ControllerSettings) :
    (category.decide totals now weight timings settings).change =
        category.overload.transition? R category.active
          (category.decide totals now weight timings settings).category.limit settings ∧
      (category.decide totals now weight timings settings).category.overload =
        category.overload.apply now
          (category.decide totals now weight timings settings).change := by
  have hweigh : (category.refreshWeight totals now weight timings settings).1.overload =
      category.overload := by
    unfold refreshWeight
    split <;> rfl
  have hoverload := (view_samplePeak (·.overload) (fun _ _ _ ↦ rfl) _ now
    timings.peakSampleInterval).trans hweigh
  have hactive := category.active_decide totals now weight timings settings
  constructor
  · rw [← hactive, ← hoverload]
    rfl
  · rw [← hoverload]
    rfl

end Category

namespace Controller

/-- A decision leaves the name, and changes the overload as it says. -/
theorem alarm_answered (plain : Controller R) (source : Source) (settings : ControllerSettings)
    (now : Nat) (asked : Category R) :
    (plain.answered source settings now asked).alarm =
      (asked.name, asked.overload.apply now
        (plain.decideFor source settings now asked).change) := by
  have hname : (plain.decideFor source settings now asked).category.name = asked.name :=
    asked.name_decide ..
  have hoverload : (plain.decideFor source settings now asked).category.overload = _ :=
    (asked.change_decide ..).2
  have halarm : (plain.answered source settings now asked).alarm =
      (plain.decideFor source settings now asked).category.alarm := by
    unfold answered
    dsimp only
    split <;> rfl
  rw [halarm, Category.alarm, hname, hoverload]
  rfl

end Controller

namespace Occasion

variable (R) in
/-- What a request decides about the category that it is for. -/
def decision (occasion : Occasion) (asked : Category R) : Decision R :=
  (occasion.plain R).decideFor occasion.source (occasion.settings R) occasion.now asked

theorem id_plain {occasion : Occasion} : (occasion.plain R).id = occasion.id :=
  plain_keeps (motive := fun controller : Controller R ↦ controller.id = occasion.id)
    (fun _ ↦ True) (fun _ hadvance hbefore ↦ hadvance.id_eq.trans hbefore) (fun _ _ ↦ trivial) rfl

/-- An event says what a request finds, and that its use of its limit calls for the change. -/
structure Tells (occasion : Occasion) (asked : Category R) (event : OverloadEvent) : Prop where
  controller : event.controller = (occasion.plain R).id
  category : event.category = asked.name
  active : event.active = asked.active
  limit : event.limit = (occasion.decision R asked).category.limit
  since : event.since = asked.overload.changedAt
  time : event.time = occasion.now
  called : asked.overload.transition? R event.active event.limit (occasion.settings R) =
    some event.transition

variable {occasion : Occasion} {asked : Category R}

theorem alert?_eq (hasked : (occasion.plain R).categories[occasion.position]? = some asked) :
    occasion.alert? R = (occasion.decision R asked).change.map
      ((occasion.plain R).overloadEvent (occasion.decision R asked).category occasion.now
        asked.overload.changedAt) := by
  rw [alert?, hasked]
  rfl

theorem tells_of_alert? (hasked : (occasion.plain R).categories[occasion.position]? = some asked)
    {event : OverloadEvent} (halert : occasion.alert? R = some event) :
    occasion.Tells asked event ∧
      (occasion.decision R asked).change = some event.transition := by
  rw [alert?_eq hasked] at halert
  obtain ⟨transition, hchange, rfl⟩ := Option.map_eq_some_iff.mp halert
  have hname : (occasion.decision R asked).category.name = asked.name := asked.name_decide ..
  have hactive : (occasion.decision R asked).category.active = asked.active :=
    asked.active_decide ..
  have hcalled : asked.overload.transition? R asked.active
      (occasion.decision R asked).category.limit (occasion.settings R) = some transition :=
    (asked.change_decide ..).1.symm.trans hchange
  refine ⟨?_, hchange⟩
  constructor
  case controller => rfl
  case category =>
    dsimp only [Controller.overloadEvent]
    exact hname
  case active =>
    dsimp only [Controller.overloadEvent]
    exact hactive
  case limit => rfl
  case since => rfl
  case time => rfl
  case called =>
    dsimp only [Controller.overloadEvent]
    rw [hactive]
    exact hcalled

end Occasion

namespace Course

/-- The changes of a category by the requests for it. -/
def Chained (R : Type) [Scalar R] (created : Nat) (requests : List Occasion)
    (alarm : String × OverloadState) : Prop :=
  Chain created alarm.2 (requests.filterMap (·.alert? R)) ∧
    ∀ occasion ∈ requests, ∀ event ∈ occasion.alert? R, event.category = alarm.1

theorem chained_follows (timings : Timings) :
    Follows (R := R) timings Category.alarm (Chained R) where
  fresh name weight now := ⟨Chain.start now, by simp⟩
  request := by
    intro created requests occasion before asked totals htimings hasked hseen ⟨hchain, hnames⟩
    have hname : before.name = asked.name := (congrArg Prod.fst hseen).symm
    have hoverload : before.overload = asked.overload := (congrArg Prod.snd hseen).symm
    have halert := Occasion.alert?_eq hasked
    simp only [Category.alarm, hname, hoverload] at hchain hnames
    rw [Controller.alarm_answered, Chained, List.filterMap_append]
    simp only [List.forall_mem_append, List.forall_mem_singleton]
    rcases hevent : occasion.alert? R with _ | event
    · have hunchanged : (occasion.decision R asked).change = none :=
        Option.map_eq_none_iff.mp (halert.symm.trans hevent)
      have hafter : asked.overload.apply occasion.now (occasion.decision R asked).change =
          asked.overload := by
        rw [hunchanged]
        rfl
      have hsame : Chain created asked.overload
          (requests.filterMap (·.alert? R) ++ [occasion].filterMap (·.alert? R)) := by
        rw [List.filterMap_cons_none hevent, List.filterMap_nil, List.append_nil]
        exact hchain
      refine ⟨?_, hnames, by simp⟩
      rw [← hafter] at hsame
      exact hsame
    · obtain ⟨htells, hchange⟩ := Occasion.tells_of_alert? hasked hevent
      have hafter : asked.overload.apply occasion.now (occasion.decision R asked).change =
          ⟨event.transition = .entered, event.time⟩ := by
        rw [hchange, htells.time]
        rfl
      have hlonger : Chain created ⟨event.transition = .entered, event.time⟩
          (requests.filterMap (·.alert? R) ++ [occasion].filterMap (·.alert? R)) := by
        rw [List.filterMap_cons_some hevent, List.filterMap_nil]
        exact hchain.concat (OverloadState.entered_iff_of_transition? htells.called) htells.since
      rw [← hafter] at hlonger
      refine ⟨hlonger, hnames, ?_⟩
      rintro other hother
      obtain rfl := Option.some.inj hother
      exact htells.category

variable {course : Course} {occasion : Occasion} {position : Nat} {category : Category R}
  {event : OverloadEvent}

/-- A request of a course is for a category of its controller. -/
theorem known_of_mem (h : occasion ∈ course.requests R) :
    occasion.Known R ∧ occasion.id = course.id := by
  induction course using induction with
  | built id timings source start => cases h
  | extend course move ih =>
    rw [requests_extend] at h
    rcases List.mem_append.mp h with hbefore | hlast
    · exact ih hbefore
    · have hmakes := makes_of_request? (Option.mem_toList.mp hlast)
      exact ⟨hmakes.known, hmakes.id⟩

/-- A change carries the name of the category at the position of its request. -/
theorem exists_category_of_alert? (hmem : occasion ∈ course.requests R)
    (halert : occasion.alert? R = some event) :
    ∃ category, (course.controller R).categories[occasion.position]? = some category ∧
      event.category = category.name := by
  have htracks := course.tracks Category.alarm_aside (chained_follows (R := R) course.timings)
  have hcategory := Array.getElem?_eq_getElem (htracks.known occasion hmem)
  obtain ⟨created, -, -, hnames⟩ := htracks.follows (Controller.getElem?_views _ hcategory)
  refine ⟨_, hcategory, ?_⟩
  exact hnames occasion (List.mem_filter.mpr ⟨hmem, decide_eq_true rfl⟩) event halert

variable (R) in
/-- The changes of a category that are told of in a course, in order. -/
def alertsOf (course : Course) (name : String) : List OverloadEvent :=
  (course.alerts R).filter (·.category = name)

/-- The changes of a category that are told of are those that the requests for it bring about. -/
theorem alertsOf_name
    (hcategory : (course.controller R).categories[position]? = some category) :
    course.alertsOf R category.name =
      (course.requestsAt R position).filterMap (·.alert? R) := by
  rw [alertsOf, alerts_eq, requestsAt, List.filter_filterMap, List.filterMap_filter]
  refine List.filterMap_congr fun occasion hmem ↦ ?_
  rcases halert : occasion.alert? R with _ | event
  · split <;> rfl
  · obtain ⟨other, hother, hname⟩ := exists_category_of_alert? hmem halert
    have hsame : event.category = category.name ↔ occasion.position = position := by
      constructor
      · intro heq
        have hfirst := (course.indexed R).position?_name hother
        rw [← hname, heq, (course.indexed R).position?_name hcategory] at hfirst
        exact (Option.some.inj hfirst).symm
      · rintro rfl
        rw [hname, Option.some.inj (hother.symm.trans hcategory)]
    by_cases hposition : occasion.position = position
    · simp [Option.filter, hsame, hposition]
    · simp [Option.filter, hsame, hposition]

/-- The changes of a category make up a chain since it was created. -/
theorem chain (hcategory : (course.controller R).categories[position]? = some category) :
    ∃ created, (course.creations R)[position]? = some created ∧
      Chain created category.overload (course.alertsOf R category.name) := by
  obtain ⟨created, hcreated, hchain, -⟩ :=
    course.tracked Category.alarm_aside (chained_follows course.timings) hcategory
  rw [alertsOf_name hcategory]
  exact ⟨created, hcreated, hchain⟩

/-- A category is overloaded as long as its last change was one into overload. -/
theorem overloaded_iff
    (hcategory : (course.controller R).categories[position]? = some category) :
    category.overload.overloaded = true ↔
      ((course.alertsOf R category.name).getLast?).map (·.transition) = some .entered := by
  obtain ⟨created, -, hchain⟩ := course.chain hcategory
  rw [hchain.overloaded, Option.map_eq_some_iff]

variable (R) in
/-- The categories of a course whose last change was one into overload. -/
def entered (course : Course) : List String :=
  ((course.controller R).categories.toList.map (·.name)).filter fun name ↦
    ((course.alertsOf R name).getLast?).map (·.transition) = some .entered

/-! ### What calls for a change -/

/-- A request calls for the change that an event tells of: it found that many leases of the category
outstanding before its own, it went by that limit, and the one is above the warning band of the
other, or below the release band. -/
structure CalledBy (occasion : Occasion) (event : OverloadEvent) : Prop where
  controller : event.controller = occasion.id
  category : ((occasion.outcome Rat).controller.names)[occasion.position]? = some event.category
  time : event.time = occasion.now
  active : event.active = (occasion.plain Rat).ledger.outstanding.countP
    fun lease ↦ lease.category = occasion.position
  limit : ((occasion.outcome Rat).controller.categories[occasion.position]?).map (·.limit) =
    some event.limit
  entered : event.transition = .entered →
    event.limit * (occasion.settings Rat).warningPercent < event.active * 100
  cleared : event.transition = .cleared →
    event.active * 100 < event.limit * (occasion.settings Rat).releasePercent

/-- Every change of a course is called for by one of its requests. -/
theorem exists_calledBy {event : OverloadEvent} (h : event ∈ course.alerts Rat) :
    ∃ occasion ∈ course.requests Rat, CalledBy occasion event := by
  rw [alerts_eq] at h
  obtain ⟨occasion, hmem, halert⟩ := List.mem_filterMap.mp h
  obtain ⟨asked, hasked⟩ := Occasion.exists_category (known_of_mem hmem).1
  obtain ⟨htells, -⟩ := Occasion.tells_of_alert? hasked halert
  obtain ⟨after, hafter, hdecided⟩ := Controller.exists_decided occasion.source
    (occasion.settings Rat) occasion.now hasked
  have hcalled := htells.called
  refine ⟨occasion, hmem, ?_⟩
  constructor
  case controller => rw [htells.controller, Occasion.id_plain]
  case category =>
    rw [Occasion.controller_outcome, Controller.names_answerAt, Controller.getElem?_names hasked,
      htells.category]
  case time => exact htells.time
  case active =>
    rw [htells.active]
    exact Occasion.inOrder_plain.accounted.active occasion.position asked hasked
  case limit =>
    rw [Occasion.controller_outcome, hafter, Option.map_some, hdecided.limit, htells.limit]
    rfl
  case entered =>
    intro hentered
    rw [hentered, OverloadState.transition?_eq_entered, OverloadState.band_lt_iff] at hcalled
    exact hcalled.2
  case cleared =>
    intro hcleared
    rw [hcleared, OverloadState.transition?_eq_cleared, OverloadState.lt_band_iff] at hcalled
    exact hcalled.2

end Course

end Admission
