import Admission.Proofs.Advance
import Admission.Proofs.Collecting
import Admission.Proofs.Lifetime
import Admission.Proofs.Sums

/-!
# What a sweep does to the counts, and what keeps a lease alive

Every lease that a sweep takes is lost to its own category: the category counts one more lease as
abandoned and holds one less, and what it has admitted, rejected and recorded of durations stays
(`Category.Loses`). `Controller.Swept` says this of all categories together with what the ledger and
the totals are left with. A sweep that is asked for does it, a second one at the same time finds
nothing, and the sweep in a request does it when it is due and otherwise touches no lease
(`Activity.sweep_takes_lost`).

Signs of life may arrive in any order, and the latest time stays. What the token of a lease says of
them follows from the events since the lease was granted (`Activity.hears_run`), of which two kinds
are heard, so no heartbeat goes back and nobody who is known to settle a lease is forgotten.
-/

set_option autoImplicit false
set_option relaxedAutoImplicit false

namespace Admission

open Ledger (Reclaimed)

variable {R : Type}

/-! ### What a category loses -/

/-- A category has lost leases of its own. -/
structure Category.Loses (before after : Category R) (lost : List Lease) : Prop where
  abandoned : after.abandoned = before.abandoned + lost.length
  active : before.active = after.active + lost.length
  grantTimeSum : before.grantTimeSum = after.grantTimeSum + (lost.map (·.grantedAt)).sum
  admitted : after.admitted = before.admitted
  rejected : after.rejected = before.rejected
  durations : after.durations = before.durations

/-- Every category has lost those of some leases that are its own. -/
structure Controller.Loses (before after : Controller R) (lost : List Lease) : Prop where
  size : after.categories.size = before.categories.size
  category : ∀ (position : Nat) (category : Category R),
    before.categories[position]? = some category →
      ∃ next, after.categories[position]? = some next ∧
        category.Loses next (lost.filter fun lease ↦ lease.category = position)

namespace Category

theorem Loses.refl (category : Category R) : category.Loses category [] :=
  ⟨rfl, rfl, rfl, rfl, rfl, rfl⟩

theorem Loses.trans {first second third : Category R} {lost others : List Lease}
    (h : first.Loses second lost) (h' : second.Loses third others) :
    first.Loses third (lost ++ others) where
  abandoned := by rw [h'.abandoned, h.abandoned, List.length_append, Nat.add_assoc]
  active := by
    rw [h.active, h'.active, List.length_append]
    omega
  grantTimeSum := by
    rw [h.grantTimeSum, h'.grantTimeSum, List.map_append, List.sum_append]
    omega
  admitted := h'.admitted.trans h.admitted
  rejected := h'.rejected.trans h.rejected
  durations := h'.durations.trans h.durations

/-- Settling a lost lease loses that lease, if no guard takes effect. -/
theorem loses_abandon [Scalar R] {category : Category R} {totals : Totals R} {lease : Lease}
    (h : category.Deactivatable totals lease.grantedAt) (now : Nat)
    (settings : ControllerSettings) :
    category.Loses (category.abandon totals lease.grantedAt now settings).1 [lease] := by
  have hactive := h.active_pos
  have htimes := h.grantedAt_le
  simp only [abandon, deactivateOne, Nat.ne_of_gt hactive, if_false, recomputeWeight]
  constructor
  case active => exact (Nat.sub_add_cancel hactive).symm
  case grantTimeSum => exact (Nat.sub_add_cancel htimes).symm
  case abandoned | admitted | rejected | durations => rfl

end Category

namespace Controller.Loses

theorem of_categories {controller changed : Controller R}
    (h : changed.categories = controller.categories) : controller.Loses changed [] where
  size := by rw [h]
  category _ category hcategory := ⟨category, h ▸ hcategory, .refl category⟩

theorem refl (controller : Controller R) : controller.Loses controller [] := of_categories rfl

theorem trans {first second third : Controller R} {lost others : List Lease}
    (h : first.Loses second lost) (h' : second.Loses third others) :
    first.Loses third (lost ++ others) where
  size := h'.size.trans h.size
  category position category hcategory := by
    obtain ⟨middle, hmiddle, hfirst⟩ := h.category position category hcategory
    obtain ⟨next, hnext, hsecond⟩ := h'.category position middle hmiddle
    refine ⟨next, hnext, ?_⟩
    rw [List.filter_append]
    exact hfirst.trans hsecond

/-- Replacing a category by one that has lost a lease loses that lease. -/
theorem replace {controller changed : Controller R} {lease : Lease} {category next : Category R}
    (hcategory : controller.categories[lease.category]? = some category)
    (hcategories :
      changed.categories = controller.categories.setIfInBounds lease.category next)
    (hloses : category.Loses next [lease]) : controller.Loses changed [lease] where
  size := by rw [hcategories, Array.size_setIfInBounds]
  category position found hfound := by
    rw [hcategories, Array.getElem?_setIfInBounds]
    by_cases hposition : lease.category = position
    · subst hposition
      have hsame : found = category := Option.some.inj (hfound.symm.trans hcategory)
      have hlt := (Array.getElem?_eq_some_iff.mp hcategory).1
      rw [if_pos rfl, if_pos hlt, List.filter_singleton, hsame]
      exact ⟨next, rfl, by simpa using hloses⟩
    · rw [if_neg hposition, List.filter_singleton]
      exact ⟨found, hfound, by simpa [hposition] using Category.Loses.refl found⟩

/-- Replacing a category by one of the same counts loses nothing. -/
theorem updateCategory {controller : Controller R} (position : Nat)
    {change : Category R → Totals R → Category R × Totals R}
    (h : ∀ category : Category R, category.Loses (change category controller.totals).1 []) :
    controller.Loses (controller.updateCategory position change) [] := by
  unfold Controller.updateCategory
  split
  · exact refl controller
  · next category hcategory =>
    refine ⟨Array.size_setIfInBounds, fun other found hfound ↦ ?_⟩
    rw [Array.getElem?_setIfInBounds]
    by_cases hposition : position = other
    · subst hposition
      have hsame : found = category := Option.some.inj (hfound.symm.trans hcategory)
      have hlt := (Array.getElem?_eq_some_iff.mp hcategory).1
      rw [if_pos rfl, if_pos hlt, hsame]
      exact ⟨_, rfl, h category⟩
    · rw [if_neg hposition]
      exact ⟨found, hfound, .refl found⟩

end Controller.Loses

namespace Controller

variable [Scalar R] {controller : Controller R}

/-- What a sweep settles is lost to the categories. -/
theorem Balanced.loses_abandonAll {reclaimed : List Reclaimed} {held : List Lease}
    {settled : List Settlement}
    (h : controller.Balanced (reclaimed.map (·.lease) ++ held) settled)
    (settings : ControllerSettings) (now : Nat) :
    controller.Loses (controller.abandonAll settings now reclaimed) (reclaimed.map (·.lease)) := by
  induction reclaimed generalizing controller settled with
  | nil => exact .refl controller
  | cons first rest ih =>
    rw [List.map_cons, List.cons_append] at h
    obtain ⟨category, hcategory⟩ := h.exists_category
    have hone : (Controller.abandonOne settings now controller first).categories =
        controller.categories.setIfInBounds first.lease.category
          (category.abandon controller.totals first.lease.grantedAt now settings).1 := by
      rw [Controller.abandonOne, Controller.updateCategory, hcategory]
    have hfirst : controller.Loses (Controller.abandonOne settings now controller first)
        [first.lease] :=
      .replace hcategory hone (Category.loses_abandon (h.deactivatable hcategory) now settings)
    exact hfirst.trans (ih (h.abandonOne settings now))

end Controller

/-! ### A sweep -/

namespace Controller

variable {controller : Controller R}

/-- A sweep took back what was lost: the ledger is left with the leases in use, each lease taken is
lost to its own category, and the totals are those of the leases and categories left. -/
structure Swept (before after : Controller R) (now : Nat) (lost : List Reclaimed) : Prop where
  ledger : before.ledger.Collects after.ledger now before.timings.abandonAfter lost
  loses : before.Loses after (lost.map (·.lease))
  owned : ∀ reclaimed ∈ lost, reclaimed.lease.category < before.categories.size
  totalActive : before.totals.totalActive = after.totals.totalActive + lost.length
  activeCategories : after.totals.activeCategories =
    after.categories.toList.countP fun category ↦ 0 < category.active
  lastSweepAt : after.lastSweepAt = now

/-- What a sweep does after steps that leave the ledger and the counts alone, it does after none. -/
theorem Swept.of_kept {kept after : Controller R} {now : Nat} {lost : List Reclaimed}
    (h : kept.Swept after now lost) (hledger : kept.ledger = controller.ledger)
    (htimings : kept.timings = controller.timings) (hloses : controller.Loses kept [])
    (htotal : kept.totals.totalActive = controller.totals.totalActive) :
    controller.Swept after now lost where
  ledger := by
    rw [← hledger, ← htimings]
    exact h.ledger
  loses := hloses.trans h.loses
  owned := by
    rw [← hloses.size]
    exact h.owned
  totalActive := by
    rw [← htotal]
    exact h.totalActive
  activeCategories := h.activeCategories
  lastSweepAt := h.lastSweepAt

/-- With nobody at work the ledger is still. -/
theorem InOrder.still (h : controller.InOrder) : controller.ledger.Still := by
  obtain ⟨settled, hsound⟩ := h
  constructor
  case nodup => exact hsound.custody.nodup_outstanding
  case answered =>
    intro lease hmem
    rcases hsound.active_or_queued ⟨rfl, rfl, rfl⟩ lease hmem with hactive | ⟨-, hqueued⟩
    · exact .inl hactive
    · exact .inr hqueued
  case dropped => exact hsound.custody.dropped_phase

theorem lastSweepAt_updateCategory (controller : Controller R) (position : Nat)
    (change : Category R → Totals R → Category R × Totals R) :
    (controller.updateCategory position change).lastSweepAt = controller.lastSweepAt := by
  unfold updateCategory
  split <;> rfl

theorem timings_refreshSettings (controller : Controller R) (source : Source) (now : Nat) :
    (controller.refreshSettings source now).timings = controller.timings := by
  unfold refreshSettings
  split <;> rfl

theorem lastSweepAt_refreshSettings (controller : Controller R) (source : Source) (now : Nat) :
    (controller.refreshSettings source now).lastSweepAt = controller.lastSweepAt := by
  unfold refreshSettings
  split <;> rfl

theorem loses_refreshSettings (controller : Controller R) (source : Source) (now : Nat) :
    controller.Loses (controller.refreshSettings source now) [] :=
  .of_categories (categories_refreshSettings ..)

variable [Scalar R]

theorem lastSweepAt_abandonAll (controller : Controller R) (settings : ControllerSettings)
    (now : Nat) (reclaimed : List Reclaimed) :
    (controller.abandonAll settings now reclaimed).lastSweepAt = controller.lastSweepAt := by
  induction reclaimed generalizing controller with
  | nil => rfl
  | cons first rest ih => exact (ih _).trans (lastSweepAt_updateCategory ..)

theorem InOrder.swept (h : controller.InOrder) (settings : ControllerSettings) (now : Nat) :
    controller.Swept (controller.sweep settings now).controller now
      (controller.sweep settings now).answer := by
  obtain ⟨settled, hcollected⟩ := h.collected now
  have hafter := (h.leadsTo (.sweep controller settings now)).accounted
  constructor
  case ledger =>
    rw [ledger_sweep]
    exact h.still.collects now controller.timings.abandonAfter
  case loses =>
    have hloses := hcollected.loses_abandonAll settings now
    exact ⟨hloses.size, hloses.category⟩
  case owned =>
    intro reclaimed hmem
    exact hcollected.held_lt _ (List.mem_append_left _ (List.mem_map_of_mem hmem))
  case totalActive => exact (hcollected.abandonAll settings now).2
  case activeCategories => exact hafter.activeCategories
  case lastSweepAt => exact lastSweepAt_abandonAll ..

/-! ### Sweeps that are asked for -/

theorem InOrder.swept_reconcile (h : controller.InOrder) (source : Source) (now : Nat) :
    ∃ lost, (controller.reconcile source now).answer = lost.length ∧
      controller.Swept (controller.reconcile source now).controller now lost := by
  have hrefreshed := h.leadsTo (.refreshSettings controller source now)
  refine ⟨_, rfl, (hrefreshed.swept _ now).of_kept (ledger_refreshSettings ..)
    (timings_refreshSettings ..) (loses_refreshSettings ..) ?_⟩
  rw [totals_refreshSettings]

/-- A sweep that finds nothing, at the time of the last one, changes nothing. -/
theorem sweep_of_collect_eq (settings : ControllerSettings) {now : Nat}
    (h : controller.ledger.collect now controller.timings.abandonAfter = (controller.ledger, []))
    (hlast : controller.lastSweepAt = now) :
    controller.sweep settings now = ⟨controller, [], []⟩ := by
  subst hlast
  unfold sweep
  rw [h]
  rfl

/-- A second sweep at the same time finds nothing, whatever the settings have become. -/
theorem InOrder.reconcile_again (h : controller.InOrder) (source other : Source) (now : Nat) :
    ((controller.reconcile source now).controller.reconcile other now).answer = 0 ∧
      ((controller.reconcile source now).controller.reconcile other now).controller =
        (controller.reconcile source now).controller.refreshSettings other now := by
  obtain ⟨lost, -, hswept⟩ := h.swept_reconcile source now
  set swept := (controller.reconcile source now).controller
  have htimings : (swept.refreshSettings other now).timings = controller.timings := by
    rw [timings_refreshSettings, ← timings_refreshSettings controller source now]
    exact congrArg SettingsCopy.timings (copy_abandonAll ..)
  have hcollect : (swept.refreshSettings other now).ledger.collect now
      (swept.refreshSettings other now).timings.abandonAfter =
        ((swept.refreshSettings other now).ledger, []) := by
    rw [htimings, ledger_refreshSettings]
    exact hswept.ledger.collect_again h.still.nodup
  have hlast : (swept.refreshSettings other now).lastSweepAt = now := by
    rw [lastSweepAt_refreshSettings]
    exact hswept.lastSweepAt
  have hnothing := sweep_of_collect_eq (swept.refreshSettings other now).current hcollect hlast
  have hagain : swept.reconcile other now = ⟨swept.refreshSettings other now, 0, []⟩ := by
    rw [reconcile, hnothing]
    rfl
  rw [hagain]
  exact ⟨rfl, rfl⟩

/-! ### Sweeps in requests -/

/-- What a request does to the leases: it sweeps first if the last sweep is long enough ago, and
leaves every lease and every count alone otherwise; then it may enter one new lease. -/
structure SweepsFirst (controller : Controller R) (source : Source) (now position : Nat) :
    Prop where
  due : controller.timings.reconcileInterval ≤ now - controller.lastSweepAt →
    ∃ lost, controller.Swept (controller.beforeAnswerAt source now position) now lost
  early : now - controller.lastSweepAt < controller.timings.reconcileInterval →
    (controller.beforeAnswerAt source now position).ledger = controller.ledger ∧
      controller.Loses (controller.beforeAnswerAt source now position) []
  answered :
    (controller.requestAt source now position).controller.ledger =
        (controller.beforeAnswerAt source now position).ledger ∨
      (controller.requestAt source now position).controller.ledger =
        ((controller.beforeAnswerAt source now position).ledger.grant position now).1

theorem loses_countSubmission (controller : Controller R) (now position : Nat) :
    controller.Loses (controller.countSubmission now position) [] :=
  .updateCategory position fun _ ↦ ⟨rfl, rfl, rfl, rfl, rfl, rfl⟩

theorem totalActive_countSubmission (controller : Controller R) (now position : Nat) :
    (controller.countSubmission now position).totals.totalActive =
      controller.totals.totalActive := by
  unfold countSubmission updateCategory
  split
  · rfl
  · exact (Category.keepsCounts_recordSubmission ..).totalActive

/-- An answer enters one new lease at most. -/
theorem ledger_answerAt (controller : Controller R) (source : Source)
    (settings : ControllerSettings) (now position : Nat) :
    (controller.answerAt source settings now position).controller.ledger = controller.ledger ∨
      (controller.answerAt source settings now position).controller.ledger =
        (controller.ledger.grant position now).1 := by
  rcases controller.answerAt_cases source settings now position with
    ⟨category, -, hafter, -⟩ | ⟨name, active, limit, -, hafter | ⟨category, -, hafter⟩⟩
  · rw [hafter]
    exact .inr rfl
  · rw [hafter]
    exact .inl rfl
  · rw [hafter]
    exact .inl rfl

theorem InOrder.sweepsFirst (h : controller.InOrder) (source : Source) (now position : Nat) :
    controller.SweepsFirst source now position := by
  let refreshed := controller.refreshSettings source now
  let counted := refreshed.countSubmission now position
  have hcounted : counted.InOrder :=
    (h.leadsTo (.refreshSettings controller source now)).leadsTo (.count refreshed now position)
  have hledger : counted.ledger = controller.ledger :=
    (ledger_updateCategory ..).trans (ledger_refreshSettings ..)
  have htimings : counted.timings = controller.timings :=
    (congrArg SettingsCopy.timings (copy_countSubmission ..)).trans (timings_refreshSettings ..)
  have hlast : counted.lastSweepAt = controller.lastSweepAt :=
    (lastSweepAt_updateCategory ..).trans (lastSweepAt_refreshSettings ..)
  have hloses : controller.Loses counted [] :=
    (loses_refreshSettings controller source now).trans
      (loses_countSubmission refreshed now position)
  have htotal : counted.totals.totalActive = controller.totals.totalActive := by
    rw [totalActive_countSubmission, totals_refreshSettings]
  have hbefore : controller.beforeAnswerAt source now position =
      (counted.sweepIfDue refreshed.current now).controller :=
    rfl
  constructor
  case due =>
    intro hdue
    rw [hbefore, sweepIfDue, sweepDue, htimings, hlast, if_pos (decide_eq_true hdue)]
    exact ⟨_, (hcounted.swept _ now).of_kept hledger htimings hloses htotal⟩
  case early =>
    intro hearly
    have hnot : ¬controller.timings.reconcileInterval ≤ now - controller.lastSweepAt :=
      Nat.not_le_of_lt hearly
    rw [hbefore, sweepIfDue, sweepDue, htimings, hlast, if_neg (by simpa using hnot)]
    exact ⟨hledger, hloses⟩
  case answered =>
    rw [controller_requestAt]
    exact ledger_answerAt ..

end Controller

/-! ### Signs of life -/

/-- The times of the signs of life that a lease shows among events. -/
def Activity.signs (number : Nat) (events : List Activity.Event) : List Nat :=
  events.filterMap fun
    | .touch other now => if other = number then some now else none
    | _ => none

/-- A token in the course of events: its sign of life is the latest of the one that it had and those
among the events, and it is supervised if it was so before or has become so. -/
structure Token.Hears (before after : Token) (number : Nat) (events : List Activity.Event) :
    Prop where
  lease : after.lease = before.lease
  heard : after.heartbeat = before.heartbeat ∨ after.heartbeat ∈ Activity.signs number events
  latest : ∀ time ∈ before.heartbeat :: Activity.signs number events, time ≤ after.heartbeat
  supervised : after.supervised = true ↔
    before.supervised = true ∨ Activity.Event.supervise number ∈ events

/-- The token of a lease that has just been granted: the grant is its first sign of life. -/
def Token.ofLease (lease : Lease) : Token := { lease, heartbeat := lease.grantedAt }

/-- Every token hears of the events, and one that has entered in their course of those since. -/
structure Ledger.Hears (before after : Ledger) (events : List Activity.Event) : Prop where
  token : ∀ (number : Nat) (token : Token), before.tokens[number]? = some token →
    ∃ later, after.tokens[number]? = some later ∧ token.Hears later number events
  entered : ∀ (number : Nat) (token : Token), before.tokens[number]? = none →
    after.tokens[number]? = some token →
      ∃ since, since <:+ events ∧ (Token.ofLease token.lease).Hears token number since

/-- A token belongs to the same lease as before, its latest sign of life did not go back, and if it
was supervised it still is. -/
structure Token.Continues (before after : Token) : Prop where
  lease : after.lease = before.lease
  heartbeat : before.heartbeat ≤ after.heartbeat
  supervised : before.supervised = true → after.supervised = true

/-- Every lease recorded stays so, and its token goes on. -/
structure Ledger.Continues (before after : Ledger) : Prop where
  token : ∀ (number : Nat) (token : Token), before.tokens[number]? = some token →
    ∃ later, after.tokens[number]? = some later ∧ token.Continues later

namespace Token.Hears

variable {before middle after : Token} {number : Nat} {events later : List Activity.Event}

theorem of_eq (hlease : after.lease = before.lease)
    (hheartbeat : after.heartbeat = before.heartbeat)
    (hsupervised : after.supervised = before.supervised) : before.Hears after number [] where
  lease := hlease
  heard := .inl hheartbeat
  latest time hmem := by
    obtain rfl := List.mem_singleton.mp hmem
    exact Nat.le_of_eq hheartbeat.symm
  supervised := by simp [hsupervised]

theorem trans (h : before.Hears middle number events) (h' : middle.Hears after number later) :
    before.Hears after number (events ++ later) := by
  have hsigns : Activity.signs number (events ++ later) =
      Activity.signs number events ++ Activity.signs number later :=
    List.filterMap_append
  constructor
  case lease => exact h'.lease.trans h.lease
  case heard =>
    rw [hsigns, List.mem_append]
    rcases h'.heard with hsame | hsign
    · rw [hsame]
      exact h.heard.imp id .inl
    · exact .inr (.inr hsign)
  case latest =>
    have hmiddle : middle.heartbeat ≤ after.heartbeat := h'.latest _ List.mem_cons_self
    intro time hmem
    rw [hsigns, ← List.cons_append, List.mem_append] at hmem
    rcases hmem with hearlier | hlater
    · exact (h.latest time hearlier).trans hmiddle
    · exact h'.latest time (List.mem_cons_of_mem _ hlater)
  case supervised => rw [h'.supervised, h.supervised, List.mem_append, or_assoc]

/-- What the other leases show does not concern a token. -/
theorem of_silent {event : Activity.Event} (h : before.Hears after number [])
    (hsigns : Activity.signs number [event] = []) (hsupervise : event ≠ .supervise number) :
    before.Hears after number [event] := by
  rw [← List.nil_append [event]]
  refine h.trans ⟨rfl, .inl rfl, fun time hmem ↦ ?_, ?_⟩
  · rw [hsigns, List.mem_singleton] at hmem
    exact Nat.le_of_eq hmem
  · simp [hsupervise.symm]

end Token.Hears

namespace Ledger

namespace Hears

variable {before middle after : Ledger} {events later : List Activity.Event}

theorem of_tokens (h : after.tokens = before.tokens) : before.Hears after [] where
  token _ token htoken := ⟨token, h ▸ htoken, .of_eq rfl rfl rfl⟩
  entered number token hnone htoken := by
    rw [h, hnone] at htoken
    cases htoken

theorem refl (ledger : Ledger) : ledger.Hears ledger [] := of_tokens rfl

theorem trans (h : before.Hears middle events) (h' : middle.Hears after later) :
    before.Hears after (events ++ later) where
  token number token htoken := by
    obtain ⟨next, hnext, hfirst⟩ := h.token number token htoken
    obtain ⟨last, hlast, hsecond⟩ := h'.token number next hnext
    exact ⟨last, hlast, hfirst.trans hsecond⟩
  entered number token hnone htoken := by
    rcases hmiddle : middle.tokens[number]? with _ | next
    · obtain ⟨since, hsince, hheard⟩ := h'.entered number token hmiddle htoken
      exact ⟨since, hsince.trans (List.suffix_append ..), hheard⟩
    · obtain ⟨since, ⟨earlier, hsince⟩, hheard⟩ := h.entered number next hnone hmiddle
      obtain ⟨last, hlast, hsecond⟩ := h'.token number next hmiddle
      obtain rfl : last = token := Option.some.inj (hlast.symm.trans htoken)
      refine ⟨since ++ later, ⟨earlier, by rw [← hsince, List.append_assoc]⟩, ?_⟩
      rw [hsecond.lease]
      exact hheard.trans hsecond

/-- What can be heard of a ledger does not go back. -/
theorem continues (h : before.Hears after events) : before.Continues after where
  token number token htoken := by
    obtain ⟨later, hlater, hheard⟩ := h.token number token htoken
    refine ⟨later, hlater, hheard.lease, hheard.latest _ List.mem_cons_self, fun hold ↦ ?_⟩
    exact hheard.supervised.mpr (.inl hold)

/-- An event that is neither a sign of life nor makes supervision known is not heard. -/
theorem of_silent {event : Activity.Event} (h : before.Hears after [])
    (hsigns : ∀ number, Activity.signs number [event] = [])
    (hsupervise : ∀ number, event ≠ .supervise number) : before.Hears after [event] where
  token number token htoken := by
    obtain ⟨later, hlater, hheard⟩ := h.token number token htoken
    exact ⟨later, hlater, hheard.of_silent (hsigns number) (hsupervise number)⟩
  entered number token hnone htoken := by
    obtain ⟨since, hsince, hheard⟩ := h.entered number token hnone htoken
    exact ⟨since, hsince.trans (List.nil_suffix ..), hheard⟩

end Hears

variable (ledger : Ledger)

theorem hears_modifyToken (number : Nat) {change : Token → Token} {events : List Activity.Event}
    (h : ∀ token : Token, token.Hears (change token) number events)
    (hothers : ∀ (other : Nat) (token : Token), number ≠ other → token.Hears token other events) :
    ledger.Hears (ledger.modifyToken number change) events where
  token other token htoken := by
    rw [modifyToken, Array.getElem?_modify, htoken]
    by_cases hother : number = other
    · subst hother
      rw [if_pos rfl]
      exact ⟨change token, rfl, h token⟩
    · rw [if_neg hother]
      exact ⟨token, rfl, hothers other token hother⟩
  entered other token hnone htoken := by
    rw [modifyToken, Array.getElem?_modify, hnone, Option.map_none, ite_self] at htoken
    cases htoken

theorem hears_setPhase (number : Nat) (phase : Phase) :
    ledger.Hears (ledger.setPhase number phase) [] :=
  ledger.hears_modifyToken number (fun _ ↦ .of_eq rfl rfl rfl) fun _ _ _ ↦ .of_eq rfl rfl rfl

/-- A sign of life that comes late leaves the later one. -/
theorem hears_touch (number now : Nat) :
    ledger.Hears (ledger.touch number now) [.touch number now] := by
  have hsigns : Activity.signs number [.touch number now] = [now] := by simp [Activity.signs]
  refine ledger.hears_modifyToken number (fun token ↦ ?_) fun other token hother ↦ ?_
  · constructor
    case lease => rfl
    case heard =>
      rw [hsigns, List.mem_singleton]
      exact max_choice ..
    case latest =>
      rw [hsigns]
      simp
    case supervised => simp
  · exact Token.Hears.of_silent (.of_eq rfl rfl rfl) (by simp [Activity.signs, hother]) nofun

theorem hears_supervise (number : Nat) :
    ledger.Hears (ledger.supervise number) [.supervise number] := by
  refine ledger.hears_modifyToken number (fun token ↦ ?_) fun other token hother ↦ ?_
  · constructor
    case lease => rfl
    case heard => exact .inl rfl
    case latest => simp [Activity.signs]
    case supervised => simp
  · exact Token.Hears.of_silent (.of_eq rfl rfl rfl) rfl fun h ↦ hother (by cases h; rfl)

theorem hears_grant (category now : Nat) : ledger.Hears (ledger.grant category now).1 [] where
  token number token htoken := by
    have hlt := (Array.getElem?_eq_some_iff.mp htoken).1
    refine ⟨token, ?_, .of_eq rfl rfl rfl⟩
    rw [grant, Array.getElem?_push, if_neg (Nat.ne_of_lt hlt)]
    exact htoken
  entered number token hnone htoken := by
    rw [grant, Array.getElem?_push, hnone] at htoken
    split at htoken <;> cases htoken
    exact ⟨[], List.nil_suffix, .of_eq rfl rfl rfl⟩

theorem hears_exchange {number : Nat} {before after : Phase} {changed : Ledger}
    (h : ledger.exchange number before after = some changed) : ledger.Hears changed [] := by
  obtain ⟨-, rfl⟩ := ledger.exchange_eq_some_iff.mp h
  exact ledger.hears_setPhase number after

theorem hears_claim (number : Nat) : ledger.Hears (ledger.claim number).1 [] := by
  unfold claim
  split
  · next hexchange => exact ledger.hears_exchange hexchange
  · exact .refl ledger

theorem hears_receive {changed : Ledger} {taken : List Reclaimed}
    (h : ledger.receive = some (changed, taken)) : ledger.Hears changed [] := by
  unfold receive at h
  split at h
  · cases h
  · rw [reclaim_dropped] at h
    obtain ⟨rfl, -⟩ := Prod.ext_iff.mp (Option.some.inj h)
    exact .of_tokens (tokens_reclaim ..)

end Ledger

namespace Activity

variable [Scalar R] {activity next last : Activity R}

theorem hears_sweepOn (activity : Activity R) (sweep : Sweep) :
    activity.controller.ledger.Hears (activity.sweepOn sweep).controller.ledger [] := by
  rcases sweep with ⟨settings, now, stage, taken⟩
  cases stage with
  | receiving =>
    dsimp only [sweepOn]
    split
    · next hreceive => exact Ledger.hears_receive _ hreceive
    · split <;> exact .refl _
  | listing bound => exact .refl _
  | claiming stale =>
    cases stale with
    | nil => exact .refl _
    | cons number stale =>
      have hclaim := activity.controller.ledger.hears_claim number
      dsimp only [sweepOn]
      split
      · next heq =>
        rw [heq] at hclaim
        exact hclaim
      · next heq =>
        rw [heq] at hclaim
        exact hclaim
  | taking number stale => exact .of_tokens (Ledger.tokens_reclaim ..)
  | settling =>
    cases taken with
    | nil => exact .refl _
    | cons reclaimed rest =>
      exact .of_tokens (congrArg Ledger.tokens (Controller.ledger_updateCategory ..))

/-- What the tokens hear of an event. Only two kinds of events are heard at all. -/
theorem hears_step {event : Event} (hstep : activity.step event = some next) :
    activity.controller.ledger.Hears next.controller.ledger [event] := by
  cases event
  case touch number now =>
    cases hstep
    exact activity.controller.ledger.hears_touch number now
  case supervise number =>
    cases hstep
    exact activity.controller.ledger.hears_supervise number
  all_goals refine .of_silent ?_ (fun _ ↦ rfl) fun _ ↦ nofun
  case lookUp =>
    obtain ⟨-, rfl⟩ := locked_eq_some_iff.mp hstep
    exact .of_tokens (congrArg Ledger.tokens (Controller.ledger_getCategory ..))
  case refresh =>
    cases hstep
    exact .of_tokens (congrArg Ledger.tokens (Controller.ledger_refreshSettings ..))
  case readSettings =>
    cases hstep
    exact .refl _
  case count =>
    obtain ⟨-, rfl⟩ := locked_eq_some_iff.mp hstep
    exact .of_tokens (congrArg Ledger.tokens (Controller.ledger_updateCategory ..))
  case answer source settings now position =>
    obtain ⟨-, rfl⟩ := locked_eq_some_iff.mp hstep
    change activity.controller.ledger.Hears
      (activity.controller.answerAt source settings now position).controller.ledger []
    rcases activity.controller.ledger_answerAt source settings now position with hsame | hgrant
    · rw [hsame]
      exact .refl _
    · rw [hgrant]
      exact Ledger.hears_grant ..
  case takeRelease | takeDrop =>
    simp only [step] at hstep
    split at hstep
    · obtain ⟨ledger, hexchange, rfl⟩ := Option.map_eq_some_iff.mp hstep
      exact Ledger.hears_exchange _ hexchange
    · cases hstep
  case settle settings now lease =>
    simp only [step] at hstep
    split at hstep
    · obtain ⟨-, rfl⟩ := locked_eq_some_iff.mp hstep
      refine .of_tokens ?_
      change (activity.controller.settle settings now lease).ledger.tokens = _
      rw [Controller.ledger_settle]
      rfl
    · cases hstep
  case takeLate =>
    obtain ⟨ledger, hexchange, rfl⟩ := Option.map_eq_some_iff.mp hstep
    exact Ledger.hears_exchange _ hexchange
  case post =>
    simp only [step] at hstep
    split at hstep <;> cases hstep
    exact .of_tokens rfl
  case beginSweep =>
    obtain ⟨-, rfl⟩ := locked_eq_some_iff.mp hstep
    exact .refl _
  case sweepOn =>
    obtain ⟨sweep, -, rfl⟩ := Option.map_eq_some_iff.mp hstep
    exact activity.hears_sweepOn sweep

/-- What the tokens hear of a run. -/
theorem hears_run {events : List Event} (hrun : activity.run events = some next) :
    activity.controller.ledger.Hears next.controller.ledger events :=
  foldlM_induction
    (motive := fun events (later : Activity R) ↦
      activity.controller.ledger.Hears later.controller.ledger events)
    (.refl _) (fun hstep h ↦ h.trans (hears_step hstep)) hrun

/-! ### Sweeps of reachable states -/

/-- A request leads to where it is about to be answered. -/
theorem LeadsTo.beforeAnswerAt (controller : Controller R) (source : Source) (now position : Nat) :
    LeadsTo controller (controller.beforeAnswerAt source now position) :=
  (LeadsTo.refreshSettings controller source now).trans
    ((LeadsTo.count _ now position).trans (LeadsTo.sweepIfDue _ _ now))

omit [Scalar R] in
theorem Sound.inOrder (h : activity.Sound) (hrest : activity.AtRest) :
    activity.controller.InOrder := by
  obtain ⟨hsweep, hreleasing, hposting⟩ := hrest
  rcases activity with ⟨controller, releasing, posting, sweep, settled⟩
  subst hsweep hreleasing hposting
  exact ⟨settled, h⟩

/-- Whenever nobody is at work, a sweep that is asked for takes exactly the leases that are not in
use, counts each as lost, and leaves nothing for a second one at the same time; the sweep in a
request does the same if it is due, and a request touches no lease otherwise. No event takes a sign
of life back: what a sweep reads of a token is the latest sign of life that it was given and whether
it was made known that the lease is supervised. In exact arithmetic the totals stay the sums over
the categories that hold leases. -/
theorem sweep_takes_lost (id : String) (timings : Timings) (source : Source) (start : Nat)
    {events : List Event} (hrest : activity.AtRest)
    (hrun : (quiet (.build id timings source start) []).run events = some activity) :
    (∀ (source : Source) (now : Nat), ∃ lost,
      (activity.controller.reconcile source now).answer = lost.length ∧
      activity.controller.Swept (activity.controller.reconcile source now).controller now lost ∧
      ∀ other : Source,
        ((activity.controller.reconcile source now).controller.reconcile other now).answer = 0 ∧
        ((activity.controller.reconcile source now).controller.reconcile other now).controller =
          (activity.controller.reconcile source now).controller.refreshSettings other now) ∧
      (∀ (source : Source) (now position : Nat),
        activity.controller.SweepsFirst source now position) ∧
      (∀ (later : List Event) (last : Activity R), activity.run later = some last →
        activity.controller.ledger.Continues last.controller.ledger) ∧
      (∀ (before after : Activity R) (heard : List Event), before.run heard = some after →
        before.controller.ledger.Hears after.controller.ledger heard) ∧
      ∀ exact : Activity Rat,
        (quiet (.build id timings source start) []).run events = some exact → exact.AtRest →
          ∀ (source : Source) (now : Nat),
            (exact.controller.reconcile source now).controller.Summed ∧
            ∀ position, (exact.controller.beforeAnswerAt source now position).Summed := by
  have horder := ((Sound.start id timings source start).run hrun).inOrder hrest
  refine ⟨fun source now ↦ ?_, horder.sweepsFirst, fun _ _ hlater ↦ (hears_run hlater).continues,
    fun _ _ _ ↦ hears_run, ?_⟩
  · obtain ⟨lost, hanswer, hswept⟩ := horder.swept_reconcile source now
    exact ⟨lost, hanswer, hswept, fun other ↦ horder.reconcile_again source other now⟩
  · intro exact hexact hquiet source now
    obtain ⟨settled, hsound⟩ := ((Sound.start id timings _ start).run hexact).inOrder hquiet
    have hkeep : ∀ {changed : Controller Rat}, LeadsTo exact.controller changed → changed.Summed :=
      fun hleads ↦ Controller.keeps_of_altered (motive := Controller.Summed)
        (fun hcount haltered h ↦ h.altered hcount haltered) hsound hleads
        (Controller.summed_run hexact)
    refine ⟨hkeep (.reconcile _ source now), fun position ↦ ?_⟩
    exact hkeep (.beforeAnswerAt _ source now position)

/-- Four leases of two categories, one dropped, one that nobody has heard of for an hour, one that
is supervised and one that has just shown a sign of life, after which an older one arrives: a sweep
takes the first two. -/
theorem sweep_takes_lost_four :
    ∃ (source : Source) (activity : Activity Rat),
      (quiet (.build "main" {} source 0) []).run
        [.lookUp source 0 "a", .lookUp source 0 "b", .answer source { enabled := false } 0 0,
          .answer source { enabled := false } 0 0, .answer source { enabled := false } 0 1,
          .answer source { enabled := false } 0 1, .takeDrop ⟨0, 0, 0⟩, .post 0, .supervise 2,
          .touch 3 3599999, .touch 3 5] = some activity ∧
      activity.AtRest ∧
      activity.controller.ledger.tokens.toList =
        [⟨⟨0, 0, 0⟩, 0, false, .abandoned⟩, ⟨⟨1, 0, 0⟩, 0, false, .active⟩,
          ⟨⟨2, 1, 0⟩, 0, true, .active⟩, ⟨⟨3, 1, 0⟩, 3599999, false, .active⟩] ∧
      (activity.controller.reconcile source 3600000).answer = 2 ∧
      (activity.controller.reconcile source 3600000).controller.ledger.outstanding =
        [⟨3, 1, 0⟩, ⟨2, 1, 0⟩] ∧
      ∃ lost, lost.length = 2 ∧ activity.controller.Swept
        (activity.controller.reconcile source 3600000).controller 3600000 lost := by
  let source : Source := ⟨fun _ ↦ ⟨0, {}⟩, fun _ _ ↦ none⟩
  let events : List Event :=
    [.lookUp source 0 "a", .lookUp source 0 "b", .answer source { enabled := false } 0 0,
      .answer source { enabled := false } 0 0, .answer source { enabled := false } 0 1,
      .answer source { enabled := false } 0 1, .takeDrop ⟨0, 0, 0⟩, .post 0, .supervise 2,
      .touch 3 3599999, .touch 3 5]
  have hfacts : ((quiet (.build "main" {} source 0 : Controller Rat) []).run events).map
      (fun activity ↦ ((activity.sweep.isNone, activity.releasing, activity.posting),
        activity.controller.ledger.tokens.toList,
        (activity.controller.reconcile source 3600000).answer,
        (activity.controller.reconcile source 3600000).controller.ledger.outstanding)) =
          some ((true, [], []),
            [⟨⟨0, 0, 0⟩, 0, false, .abandoned⟩, ⟨⟨1, 0, 0⟩, 0, false, .active⟩,
              ⟨⟨2, 1, 0⟩, 0, true, .active⟩, ⟨⟨3, 1, 0⟩, 3599999, false, .active⟩],
            2, [⟨3, 1, 0⟩, ⟨2, 1, 0⟩]) := by
    decide +kernel
  obtain ⟨activity, hrun, hfacts⟩ := Option.map_eq_some_iff.mp hfacts
  simp only [Prod.mk.injEq] at hfacts
  obtain ⟨⟨hsweep, hreleasing, hposting⟩, htokens, hanswer, hleft⟩ := hfacts
  have hrest : activity.AtRest := ⟨Option.isNone_iff_eq_none.mp hsweep, hreleasing, hposting⟩
  obtain ⟨lost, hlength, hswept, -⟩ :=
    (sweep_takes_lost "main" {} source 0 hrest hrun).1 source 3600000
  exact ⟨source, activity, hrun, hrest, htokens, hanswer, hleft, lost, hlength.symm.trans hanswer,
    hswept⟩

end Activity

end Admission
