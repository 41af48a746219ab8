import Admission.Proofs.Decision
import Admission.Proofs.Reclaiming

/-!
# What failed operations leave alone

Two operations may fail. A release fails unless the lease is active or a sweep has taken it back,
and a release that fails changes nothing (`Controller.release_of_error`). Nobody moves a released
lease to another phase, so of all the releases of one lease one succeeds at most, in whatever order
the parties act (`Activity.countP_releases_le_one`) and whatever is asked of the controller one
after another (`Controller.countP_releaseAnswers_le_one`).

A request that is refused is refused late: by then it has been counted, and leases may have been
swept up. What it adds to the sweep is a count of refusals, one higher, and the weight, the peak,
the limit and the overload of its own category (`Controller.refusedAfter`). The argument is that a
sweep looks at the counts of a controller and at nothing else to change the counts
(`Controller.CountsAlike.sweepIfDue`), and that counting a submission is not among them.
-/

set_option autoImplicit false
set_option relaxedAutoImplicit false

namespace Admission

open Ledger (Reclaimed)

variable {R : Type} [Scalar R]

/-! ### One release -/

theorem Ledger.exchange_of_phase?_ne {ledger : Ledger} {number : Nat} {before after : Phase}
    (h : ledger.phase? number ≠ some before) : ledger.exchange number before after = none :=
  if_neg h

namespace Controller

variable {controller : Controller R} {source : Source} {now : Nat} {lease : Lease}

/-- A release that fails changes nothing, and says so. -/
theorem release_of_error {error : AdmissionError}
    (hanswer : (controller.release source now lease).answer = .error error) :
    (controller.release source now lease).controller = controller ∧
      error = .doubleRelease (controller.categoryName lease.category) lease.id := by
  unfold release at hanswer ⊢
  split at hanswer
  · cases hanswer
  · split at hanswer
    · cases hanswer
    · exact ⟨rfl, (Except.error.inj hanswer).symm⟩

/-- A release that comes after a sweep took the lease back succeeds, and changes the phase of that
lease only. -/
theorem release_of_reconciled (source : Source) (now : Nat)
    (hreconciled : controller.ledger.phase? lease.number = some .reconciled) :
    (controller.release source now lease).controller =
        { controller with ledger := controller.ledger.setPhase lease.number .released } ∧
      (controller.release source now lease).answer = .ok (now - lease.grantedAt) := by
  have hactive : controller.ledger.exchange lease.number .active .released = none :=
    Ledger.exchange_of_phase?_ne (by simp [hreconciled])
  rw [release, hactive, controller.ledger.exchange_of_phase? hreconciled]
  exact ⟨rfl, rfl⟩

/-- A release that succeeds ends the lease. -/
theorem released_of_ok {held : Nat}
    (hanswer : (controller.release source now lease).answer = .ok held) :
    controller.ledger.phase? lease.number ≠ some .released ∧
      (controller.release source now lease).controller.ledger.phase? lease.number =
        some .released := by
  have hends : ∀ {before : Phase}, controller.ledger.phase? lease.number = some before →
      (controller.ledger.setPhase lease.number .released).phase? lease.number = some .released :=
    fun hbefore ↦ (controller.ledger.phase?_setPhase hbefore .released lease.number).trans
      (if_pos rfl)
  by_cases hactive : controller.ledger.phase? lease.number = some .active
  · rw [release, controller.ledger.exchange_of_phase? hactive]
    dsimp only [finish]
    rw [ledger_settle, ledger_refreshSettings]
    exact ⟨by simp [hactive], hends hactive⟩
  · by_cases hreconciled : controller.ledger.phase? lease.number = some .reconciled
    · rw [(release_of_reconciled _ _ hreconciled).1]
      exact ⟨by simp [hreconciled], hends hreconciled⟩
    · rw [release, Ledger.exchange_of_phase?_ne hactive,
        Ledger.exchange_of_phase?_ne hreconciled] at hanswer
      cases hanswer

end Controller

/-! ### Many releases of one lease -/

/-- The number of the lease whose release an event is: its holder takes it on to release it, or
comes late. -/
def Activity.Event.releases : Activity.Event → Option Nat
  | .takeRelease lease => some lease.number
  | .takeLate number => some number
  | _ => none

namespace Activity

variable {activity next : Activity R} {number : Nat}

/-- Whoever releases a lease finds it not yet released, and leaves it released. -/
theorem releases_step {event : Event} (hstep : activity.step event = some next)
    (hreleases : event.releases = some number) :
    activity.controller.ledger.phase? number ≠ some .released ∧
      next.controller.ledger.phase? number = some .released := by
  have hexchanges : ∀ {before : Phase} {ledger : Ledger}, before ≠ .released →
      activity.controller.ledger.exchange number before .released = some ledger →
        activity.controller.ledger.phase? number ≠ some .released ∧
          ledger.phase? number = some .released := by
    intro before ledger hbefore hexchange
    obtain ⟨hphase, rfl⟩ := Ledger.exchange_eq_some_iff _ |>.mp hexchange
    rw [Ledger.phase?_setPhase _ hphase, if_pos rfl, hphase]
    exact ⟨fun hsame ↦ hbefore (Option.some.inj hsame), rfl⟩
  cases event with
  | takeRelease lease =>
    cases hreleases
    simp only [step] at hstep
    split at hstep
    · obtain ⟨ledger, hexchange, rfl⟩ := Option.map_eq_some_iff.mp hstep
      exact hexchanges (by decide) hexchange
    · cases hstep
  | takeLate other =>
    cases hreleases
    obtain ⟨ledger, hexchange, rfl⟩ := Option.map_eq_some_iff.mp hstep
    exact hexchanges (by decide) hexchange
  | lookUp | refresh | readSettings | count | answer | touch | supervise | settle | takeDrop | post
    | beginSweep | sweepOn =>
    cases hreleases

/-- A released lease is released by nobody. -/
theorem countP_releases_of_released {events : List Event} (hrun : activity.run events = some next)
    (hreleased : activity.controller.ledger.phase? number = some .released) :
    events.countP (fun event ↦ event.releases = some number) = 0 := by
  induction events generalizing activity with
  | nil => rfl
  | cons event events ih =>
    rw [run_cons] at hrun
    obtain ⟨middle, hmiddle, hrest⟩ := Option.bind_eq_some_iff.mp hrun
    have hnot : event.releases ≠ some number := fun hreleases ↦
      (releases_step hmiddle hreleases).1 hreleased
    rw [List.countP_cons_of_neg (by simpa using hnot)]
    exact ih hrest (final_step (by decide) hmiddle hreleased)

/-- In the course of any run a lease is released once at most. -/
theorem countP_releases_le_one {events : List Event} (hrun : activity.run events = some next)
    (number : Nat) : events.countP (fun event ↦ event.releases = some number) ≤ 1 := by
  induction events generalizing activity with
  | nil => exact Nat.zero_le 1
  | cons event events ih =>
    rw [run_cons] at hrun
    obtain ⟨middle, hmiddle, hrest⟩ := Option.bind_eq_some_iff.mp hrun
    by_cases hreleases : event.releases = some number
    · have hrestless := countP_releases_of_released hrest (releases_step hmiddle hreleases).2
      rw [List.countP_cons_of_pos (by simpa using hreleases), hrestless]
    · rw [List.countP_cons_of_neg (by simpa using hreleases)]
      exact ih hrest

end Activity

namespace Controller

variable {controller : Controller R} {number : Nat}

/-- The answer to a move, if it is a release of the lease of a number. -/
def releaseAnswer? (controller : Controller R) (number : Nat) (move : Move) :
    Option (Except AdmissionError Nat) :=
  if move.operation = .release number then
    (controller.ledger.lease? number).map fun lease ↦
      (controller.release move.source move.now lease).answer
  else none

/-- The answers to all releases of the lease of a number in the course of some moves. -/
def releaseAnswers (controller : Controller R) (number : Nat) :
    List Move → List (Except AdmissionError Nat)
  | [] => []
  | move :: rest =>
    (controller.releaseAnswer? number move).toList ++
      (controller.perform move).releaseAnswers number rest

/-- A move that releases a lease with success finds it not yet released, and leaves it released. -/
theorem InOrder.released_of_move (h : controller.InOrder) {move : Move} {held : Nat}
    (hanswer : controller.releaseAnswer? number move = some (.ok held)) :
    controller.ledger.phase? number ≠ some .released ∧
      (controller.perform move).ledger.phase? number = some .released := by
  rcases move with ⟨operation, source, now⟩
  unfold releaseAnswer? at hanswer
  split at hanswer
  · next hrelease =>
    obtain ⟨lease, hlease, hok⟩ := Option.map_eq_some_iff.mp hanswer
    have hnumber := h.number_of_lease? hlease
    have hperform : controller.perform ⟨operation, source, now⟩ =
        (controller.release source now lease).controller := by
      rw [perform, show operation = .release number from hrelease]
      simp only [onLease, hlease]
    rw [hperform, ← hnumber]
    exact released_of_ok hok
  · cases hanswer

/-- Whatever is asked of a controller, the release of a lease succeeds once at most, and not at all
if the lease is released already. -/
theorem InOrder.countP_releaseAnswers (h : controller.InOrder) (moves : List Move) :
    (controller.releaseAnswers number moves).countP (·.isOk) ≤
      if controller.ledger.phase? number = some .released then 0 else 1 := by
  induction moves generalizing controller with
  | nil => exact Nat.zero_le _
  | cons move rest ih =>
    have hleads := Activity.LeadsTo.perform controller move
    have hrest := ih (h.leadsTo hleads)
    have hstays : controller.ledger.phase? number = some .released →
        (controller.perform move).ledger.phase? number = some .released :=
      hleads.final (by decide)
    rw [releaseAnswers, List.countP_append]
    -- A release that succeeds uses up the one success that there may be.
    by_cases hok : ∃ held, controller.releaseAnswer? number move = some (.ok held)
    · obtain ⟨held, hanswer⟩ := hok
      obtain ⟨hbefore, hafter⟩ := h.released_of_move hanswer
      rw [if_pos hafter] at hrest
      rw [hanswer, if_neg hbefore, Option.toList_some, List.countP_singleton]
      exact Nat.add_le_add_left hrest _
    · have hfails : ((controller.releaseAnswer? number move).toList).countP (·.isOk) = 0 := by
        refine List.countP_eq_zero.mpr fun answer hmem hanswer ↦ ?_
        cases answer with
        | error error => cases hanswer
        | ok held => exact hok ⟨held, Option.mem_toList.mp hmem⟩
      rw [hfails, Nat.zero_add]
      refine hrest.trans ?_
      by_cases hreleased : controller.ledger.phase? number = some .released
      · rw [if_pos hreleased, if_pos (hstays hreleased)]
      · rw [if_neg hreleased]
        split <;> omega

end Controller

/-! ### The sweep that comes with a request -/

/-- A decision is not seen in the durations and the count of refusals. -/
theorem Category.kept_decide (category : Category R) (totals : Totals R) (now weight : Nat)
    (timings : Timings) (settings : ControllerSettings) :
    (category.decide totals now weight timings settings).category.durations = category.durations ∧
      (category.decide totals now weight timings settings).category.rejected =
        category.rejected := by
  have hkept := (category.refreshWeight totals now weight timings settings).1.view_samplePeak
    (fun category ↦ (category.durations, category.rejected)) (fun _ _ _ ↦ rfl) now
    timings.peakSampleInterval
  have hweighed : (category.refreshWeight totals now weight timings settings).1.durations =
      category.durations ∧
        (category.refreshWeight totals now weight timings settings).1.rejected =
          category.rejected := by
    unfold refreshWeight
    split <;> exact ⟨rfl, rfl⟩
  exact ⟨(congrArg Prod.fst hkept).trans hweighed.1, (congrArg Prod.snd hkept).trans hweighed.2⟩

/-- A loss changes the counts by the counts alone. -/
theorem KeepsCounts.abandon {first second : Category R × Totals R} (h : KeepsCounts first second)
    (grantedAt now : Nat) (settings : ControllerSettings) :
    KeepsCounts (first.1.abandon first.2 grantedAt now settings)
      (second.1.abandon second.2 grantedAt now settings) := by
  have hactive : second.1.active = first.1.active := congrArg Account.active h.account
  by_cases hidle : first.1.active = 0
  · -- There is no lease to take off, so all that is counted is the loss.
    have hcounted : ∀ state : Category R × Totals R, state.1.active = 0 →
        KeepsCounts ({ state.1 with abandoned := state.1.abandoned + 1 }, state.2)
          (state.1.abandon state.2 grantedAt now settings) := by
      intro state hstate
      rw [Category.abandon, Category.deactivateOne, if_pos hstate]
      exact Category.keepsCounts_recomputeWeight ..
    have hfirst := hcounted first hidle
    have hsecond := hcounted second (hactive.trans hidle)
    refine ⟨?_, ?_, ?_⟩
    · rw [hfirst.account, hsecond.account]
      exact congrArg (fun account : Account ↦
        { account with abandoned := account.abandoned + 1 }) h.account
    · rw [hfirst.activeCategories, hsecond.activeCategories]
      exact h.activeCategories
    · rw [hfirst.totalActive, hsecond.totalActive]
      exact h.totalActive
  · have hpos : 0 < first.1.active := Nat.pos_of_ne_zero hidle
    have hpos' : 0 < second.1.active := hactive ▸ hpos
    have hfirst := Category.takesLeaseOff_abandon hpos first.2 grantedAt now settings
    have hsecond := Category.takesLeaseOff_abandon hpos' second.2 grantedAt now settings
    refine ⟨?_, ?_, ?_⟩
    · rw [Category.account_abandon hpos, Category.account_abandon hpos', h.account]
    · rw [hfirst.activeCategories, hsecond.activeCategories]
      dsimp only
      rw [hactive, h.activeCategories]
    · rw [hfirst.totalActive, hsecond.totalActive]
      exact congrArg (· - 1) h.totalActive

namespace Controller

omit [Scalar R] in
theorem getElem?_accounts (controller : Controller R) (position : Nat) :
    controller.accounts[position]? = (controller.categories[position]?).map (·.account) := by
  rw [accounts, List.getElem?_map, Array.getElem?_toList]

/-- Two controllers count the same, and will sweep at the same times. -/
structure CountsAlike (first second : Controller R) : Prop where
  ledger : second.ledger = first.ledger
  timings : second.timings = first.timings
  lastSweepAt : second.lastSweepAt = first.lastSweepAt
  accounts : second.accounts = first.accounts
  activeCategories : second.totals.activeCategories = first.totals.activeCategories
  totalActive : second.totals.totalActive = first.totals.totalActive

namespace CountsAlike

variable {first second : Controller R}

omit [Scalar R] in
theorem refl (controller : Controller R) : controller.CountsAlike controller :=
  ⟨rfl, rfl, rfl, rfl, rfl, rfl⟩

omit [Scalar R] in
/-- Changing the same category in two controllers in ways that count the same. -/
theorem updateCategory (h : first.CountsAlike second) (position : Nat)
    {change change' : Category R → Totals R → Category R × Totals R}
    (hchange : ∀ category category' : Category R,
      KeepsCounts (category, first.totals) (category', second.totals) →
        KeepsCounts (change category first.totals) (change' category' second.totals)) :
    (first.updateCategory position change).CountsAlike
      (second.updateCategory position change') := by
  have hplace : second.categories[position]?.map (·.account) =
      first.categories[position]?.map (·.account) := by
    rw [← getElem?_accounts, h.accounts, getElem?_accounts]
  unfold Controller.updateCategory
  rcases hfirst : first.categories[position]? with _ | category
  · rw [hfirst, Option.map_none, Option.map_eq_none_iff] at hplace
    rw [hplace]
    exact h
  · rw [hfirst, Option.map_some, Option.map_eq_some_iff] at hplace
    obtain ⟨category', hsecond, haccount⟩ := hplace
    rw [hsecond]
    have hkeep := hchange category category' ⟨haccount, h.activeCategories, h.totalActive⟩
    let next : Account → Account := fun _ ↦ (change category first.totals).1.account
    refine ⟨h.ledger, h.timings, h.lastSweepAt, ?_, hkeep.activeCategories, hkeep.totalActive⟩
    calc
      _ = second.accounts.modify position next := accounts_replace hsecond rfl hkeep.account
      _ = first.accounts.modify position next := by rw [h.accounts]
      _ = _ := (accounts_replace hfirst rfl rfl).symm

theorem abandonAll (h : first.CountsAlike second) (settings : ControllerSettings) (now : Nat)
    (lost : List Reclaimed) :
    (first.abandonAll settings now lost).CountsAlike (second.abandonAll settings now lost) := by
  induction lost generalizing first second with
  | nil => exact h
  | cons reclaimed rest ih =>
    exact ih (h.updateCategory _ fun _ _ hkeep ↦ hkeep.abandon _ now settings)

theorem sweepIfDue (h : first.CountsAlike second) (settings : ControllerSettings) (now : Nat) :
    (first.sweepIfDue settings now).controller.CountsAlike
        (second.sweepIfDue settings now).controller ∧
      (second.sweepIfDue settings now).answer = (first.sweepIfDue settings now).answer := by
  have hdue : second.sweepDue now = first.sweepDue now := by
    rw [sweepDue, sweepDue, h.timings, h.lastSweepAt]
  have hcollect : second.ledger.collect now second.timings.abandonAfter =
      first.ledger.collect now first.timings.abandonAfter := by
    rw [h.ledger, h.timings]
  unfold Controller.sweepIfDue sweep
  rw [hdue, hcollect]
  split
  · have hcollected : CountsAlike
        { first with
          ledger := (first.ledger.collect now first.timings.abandonAfter).1, lastSweepAt := now }
        { second with
          ledger := (first.ledger.collect now first.timings.abandonAfter).1, lastSweepAt := now } :=
      ⟨rfl, h.timings, rfl, h.accounts, h.activeCategories, h.totalActive⟩
    exact ⟨hcollected.abandonAll settings now _, rfl⟩
  · exact ⟨h, rfl⟩

/-- Counting a submission is not seen in the counts. -/
theorem countSubmission (controller : Controller R) (now position : Nat) :
    controller.CountsAlike (controller.countSubmission now position) := by
  have hkeep : ∀ category : Category R, KeepsCounts (category, controller.totals)
      (category.recordSubmission controller.totals now controller.timings.popularityWindow) :=
    fun category ↦ category.keepsCounts_recordSubmission ..
  unfold Controller.countSubmission Controller.updateCategory
  split
  · exact refl controller
  · next category hcategory =>
    refine ⟨rfl, rfl, rfl, ?_, (hkeep category).activeCategories, (hkeep category).totalActive⟩
    exact accounts_unchanged hcategory rfl (hkeep category).account

end CountsAlike

/-! ### Refused requests -/

/-- The sweep that comes with a request, and nothing else. -/
def sweepAt (controller : Controller R) (source : Source) (now : Nat) :
    Outcome R (List Reclaimed) :=
  (controller.refreshSettings source now).sweepIfDue (controller.settingsAt source now) now

/-- A refused request for the category at a position did no more to leases and counts than a sweep
that came with it, and counted one refusal. If the sweep took nothing back, the other categories are
what they were. -/
structure RefusedAfter (controller : Controller R) (swept : Outcome R (List Reclaimed))
    (after : Controller R) (position : Nat) : Prop where
  ledger : after.ledger = swept.controller.ledger
  accounts : after.accounts = swept.controller.accounts
  durations : after.views (·.durations) = swept.controller.views (·.durations)
  activeCategories : after.totals.activeCategories = swept.controller.totals.activeCategories
  totalActive : after.totals.totalActive = swept.controller.totals.totalActive
  rejected : after.views (·.rejected) = (controller.views (·.rejected)).modify position (· + 1)
  others : swept.answer = [] → ∀ other ≠ position,
    after.categories[other]? = controller.categories[other]?

omit [Scalar R] in
theorem categories_updateCategory_of_ne (controller : Controller R) {position other : Nat}
    (hother : position ≠ other) (change : Category R → Totals R → Category R × Totals R) :
    (controller.updateCategory position change).categories[other]? =
      controller.categories[other]? := by
  unfold updateCategory
  split
  · rfl
  · rw [Array.getElem?_setIfInBounds, if_neg hother]

variable {controller : Controller R} {source : Source} {now position : Nat}

theorem categories_sweepIfDue_of_nil {settings : ControllerSettings}
    (hnothing : (controller.sweepIfDue settings now).answer = []) :
    (controller.sweepIfDue settings now).controller.categories = controller.categories := by
  unfold sweepIfDue at hnothing ⊢
  split
  · next hdue =>
    rw [if_pos hdue] at hnothing
    change (controller.ledger.collect now controller.timings.abandonAfter).2 = [] at hnothing
    change (abandonAll _ settings now
      (controller.ledger.collect now controller.timings.abandonAfter).2).categories = _
    rw [hnothing]
    rfl
  · rfl

/-- A refusal is counted once, and is not seen in the other categories. -/
theorem counted_of_error {plain : Controller R} {settings : ControllerSettings}
    {category : Category R} {error : AdmissionError}
    (hcategory : plain.categories[position]? = some category)
    (hanswer : (plain.answerAt source settings now position).answer = .error error) :
    let after := (plain.answerAt source settings now position).controller
    after.views (·.durations) = plain.views (·.durations) ∧
      after.views (·.rejected) = (plain.views (·.rejected)).modify position (· + 1) ∧
      ∀ other ≠ position, after.categories[other]? = plain.categories[other]? := by
  obtain ⟨hnoted, hcounted⟩ := category.kept_decide plain.totals now
    (source.baseWeight plain.id settings category.name) plain.timings settings
  have hcategories : (plain.answerAt source settings now position).controller.categories =
      plain.categories.setIfInBounds position
        (plain.decideFor source settings now category).category.reject := by
    rw [(answerAt_of_refused hcategory (refused_of_error hcategory hanswer)).1]
    rfl
  refine ⟨views_replace_of_eq hcategory hcategories hnoted, ?_, fun other hother ↦ ?_⟩
  · have hlt := (Array.getElem?_eq_some_iff.mp hcategory).1
    rw [views_replace hcategories]
    refine Array.ext_getElem? fun other ↦ ?_
    rw [Array.getElem?_setIfInBounds, Array.getElem?_modify, size_views]
    by_cases hother : position = other
    · subst hother
      rw [if_pos rfl, if_pos rfl, if_pos hlt, getElem?_views _ hcategory]
      exact congrArg (fun count ↦ some (count + 1)) hcounted
    · rw [if_neg hother, if_neg hother]
  · rw [hcategories, Array.getElem?_setIfInBounds, if_neg (Ne.symm hother)]

/-- What no submission and no loss changes of the categories, a request leaves until it is answered,
and the sweep that comes with it leaves too. -/
theorem views_sweepAt {α : Type} (controller : Controller R) (source : Source)
    (now position : Nat) (view : Category R → α)
    (hrecord : ∀ (category : Category R) (totals : Totals R) (width : Nat),
      view (category.recordSubmission totals now width).1 = view category)
    (habandon : ∀ (category : Category R) (totals : Totals R) (grantedAt : Nat)
      (settings : ControllerSettings),
        view (category.abandon totals grantedAt now settings).1 = view category) :
    (controller.sweepAt source now).controller.views view = controller.views view ∧
      (controller.beforeAnswerAt source now position).views view = controller.views view := by
  let refreshed := controller.refreshSettings source now
  let settings := controller.settingsAt source now
  have hrefreshed : refreshed.views view = controller.views view := views_refreshSettings ..
  have hcounted : (refreshed.countSubmission now position).views view = refreshed.views view :=
    refreshed.views_updateCategory position fun category totals ↦ hrecord category totals _
  have hswept : ∀ counted : Controller R,
      (counted.sweepIfDue settings now).controller.views view = counted.views view :=
    fun counted ↦ counted.views_sweepIfDue fun category totals grantedAt ↦
      habandon category totals grantedAt settings
  exact ⟨(hswept refreshed).trans hrefreshed, (hswept _).trans (hcounted.trans hrefreshed)⟩

/-- A request that is refused did to leases and counts what the sweep that came with it does alone,
and counted the refusal. -/
theorem refusedAfter {error : AdmissionError} (hposition : position < controller.categories.size)
    (hanswer : (controller.requestAt source now position).answer = .error error) :
    controller.RefusedAfter (controller.sweepAt source now)
      (controller.requestAt source now position).controller position := by
  let refreshed := controller.refreshSettings source now
  let plain := controller.beforeAnswerAt source now position
  have hsize : plain.categories.size = controller.categories.size :=
    size_categories (controller.names_beforeAnswerAt source now position)
  have hcategory : plain.categories[position]? = some plain.categories[position] :=
    Array.getElem?_eq_getElem (hsize ▸ hposition)
  obtain ⟨hswept, hreclaimed⟩ : (controller.sweepAt source now).controller.CountsAlike plain ∧
      ((refreshed.countSubmission now position).sweepIfDue refreshed.current now).answer =
        (controller.sweepAt source now).answer :=
    (CountsAlike.countSubmission refreshed now position).sweepIfDue refreshed.current now
  obtain ⟨hsweptDurations, hdurations⟩ := controller.views_sweepAt source now position
    (·.durations) (fun _ _ _ ↦ rfl)
    fun _ _ _ _ ↦ Category.view_deactivateOne (·.durations) (fun _ _ _ ↦ rfl) ..
  obtain ⟨-, hrejected⟩ := controller.views_sweepAt source now position (·.rejected)
    (fun _ _ _ ↦ rfl) fun _ _ _ _ ↦ Category.view_deactivateOne (·.rejected) (fun _ _ _ ↦ rfl) ..
  rw [answer_requestAt] at hanswer
  obtain ⟨hrefused, -⟩ := refused hanswer
  obtain ⟨hnoted, hcounted, hothers⟩ := counted_of_error hcategory hanswer
  rw [controller_requestAt]
  constructor
  case ledger => exact hrefused.ledger.trans hswept.ledger
  case accounts => exact hrefused.accounts.trans hswept.accounts
  case activeCategories => exact hrefused.activeCategories.trans hswept.activeCategories
  case totalActive => exact hrefused.totalActive.trans hswept.totalActive
  case durations => exact hnoted.trans (hdurations.trans hsweptDurations.symm)
  case rejected => rw [← hrejected, hcounted]
  case others =>
    intro hnothing other hother
    have hcategories : plain.categories = (refreshed.countSubmission now position).categories :=
      categories_sweepIfDue_of_nil (hreclaimed.trans hnothing)
    rw [hothers other hother, hcategories, countSubmission,
      refreshed.categories_updateCategory_of_ne (Ne.symm hother), categories_refreshSettings]

end Controller

/-! ### Failures in reachable states -/

namespace Activity

variable {activity : Activity R}

/-- In every state that the parties can reach together, a release that fails changes nothing, and
one that comes after a sweep took its lease back changes the phase of that lease only; no lease was
released twice on the way, nor is it by operations that come one after another; and a request that
is refused leaves leases and counts to the sweep that comes with it, but for the count of refusals
of the category that was asked for. -/
theorem failures_leave_accounts (id : String) (timings : Timings) (source : Source) (start : Nat)
    {events : List Event}
    (hrun : (quiet (.build id timings source start) []).run events = some activity) :
    (∀ (source : Source) (now : Nat) (lease : Lease) (error : AdmissionError),
      (activity.controller.release source now lease).answer = .error error →
        (activity.controller.release source now lease).controller = activity.controller ∧
          error = .doubleRelease (activity.controller.categoryName lease.category) lease.id) ∧
      (∀ number, events.countP (fun event ↦ event.releases = some number) ≤ 1) ∧
      (∀ (moves : List Move) (number : Nat),
        ((.build id timings source start : Controller R).releaseAnswers number moves).countP
          (·.isOk) ≤ 1) ∧
      (∀ (source : Source) (now : Nat) (lease : Lease),
        activity.controller.ledger.phase? lease.number = some .reconciled →
          (activity.controller.release source now lease).answer = .ok (now - lease.grantedAt) ∧
            (activity.controller.release source now lease).controller =
              { activity.controller with
                ledger :=
                  { activity.controller.ledger with
                    tokens := activity.controller.ledger.tokens.modify lease.number
                      fun token ↦ { token with phase := .released } } }) ∧
      ∀ (source : Source) (now position : Nat) (error : AdmissionError),
        position < activity.controller.categories.size →
          (activity.controller.requestAt source now position).answer = .error error →
            activity.controller.RefusedAfter (activity.controller.sweepAt source now)
              (activity.controller.requestAt source now position).controller position := by
  refine ⟨fun _ _ _ _ hanswer ↦ Controller.release_of_error hanswer,
    countP_releases_le_one hrun, fun moves number ↦ ?_, fun source now lease hreconciled ↦ ?_,
    fun _ _ _ _ hposition hanswer ↦ Controller.refusedAfter hposition hanswer⟩
  · have horder : (Controller.build id timings source start : Controller R).InOrder :=
      ⟨[], .start id timings source start⟩
    refine (horder.countP_releaseAnswers moves).trans ?_
    split <;> omega
  · obtain ⟨hafter, hanswer⟩ := Controller.release_of_reconciled source now hreconciled
    exact ⟨hanswer, hafter⟩

/-- A lease that was released, one that a sweep took back, one that has been silent for an hour, and
one that fills its category: releasing the first again fails, releasing the second succeeds late,
and a request for the last one's category is refused by the request whose sweep takes back the
third. -/
theorem failures_leave_accounts_four :
    ∃ (source : Source) (events : List Event) (activity : Activity Rat),
      (quiet (.build "main" {} source 0) []).run events = some activity ∧
      (activity.controller.release source 7200000 ⟨0, 0, 0⟩).controller = activity.controller ∧
      (activity.controller.release source 7200000 ⟨1, 0, 0⟩).answer.isOk = true ∧
      (activity.controller.sweepAt source 7200000).answer.length = 1 ∧
      activity.controller.RefusedAfter (activity.controller.sweepAt source 7200000)
        (activity.controller.requestAt source 7200000 0).controller 0 := by
  let source : Source := ⟨fun _ ↦ ⟨0, { threshold := 1 }⟩, fun _ _ ↦ none⟩
  let free : ControllerSettings := { enabled := false }
  let events : List Event :=
    [.lookUp source 0 "a", .lookUp source 0 "b", .answer source free 0 0, .takeRelease ⟨0, 0, 0⟩,
      .settle free 0 ⟨0, 0, 0⟩, .answer source free 0 0, .beginSweep free 3600000, .sweepOn,
      .sweepOn, .sweepOn, .sweepOn, .sweepOn, .sweepOn, .sweepOn, .answer source free 3600000 0,
      .answer source free 3600000 1, .touch 2 7200000]
  have hfacts : ((quiet (.build "main" {} source 0 : Controller Rat) []).run events).map
      (fun activity ↦ ((activity.controller.release source 7200000 ⟨0, 0, 0⟩).answer.isOk,
        activity.controller.ledger.phase? 1, activity.controller.categories.size,
        (activity.controller.sweepAt source 7200000).answer.length,
        (activity.controller.requestAt source 7200000 0).answer.isOk)) =
          some (false, some .reconciled, 2, 1, false) := by
    decide +kernel
  obtain ⟨activity, hrun, hfacts⟩ := Option.map_eq_some_iff.mp hfacts
  simp only [Prod.mk.injEq] at hfacts
  obtain ⟨hfails, hreconciled, hsize, hreclaimed, hrefused⟩ := hfacts
  obtain ⟨hfailed, -, -, hlate, hrequests⟩ :=
    failures_leave_accounts "main" {} source 0 hrun
  refine ⟨source, events, activity, hrun, ?_, ?_, hreclaimed, ?_⟩
  · rcases hanswer : (activity.controller.release source 7200000 ⟨0, 0, 0⟩).answer with
      error | held
    · exact (hfailed _ _ _ error hanswer).1
    · rw [hanswer] at hfails
      cases hfails
  · rw [(hlate source 7200000 ⟨1, 0, 0⟩ hreconciled).1]
    rfl
  · rcases hanswer : (activity.controller.requestAt source 7200000 0).answer with error | lease
    · exact hrequests source 7200000 0 error (by omega) hanswer
    · rw [hanswer] at hrefused
      cases hrefused

end Activity

end Admission
