import Admission.Proofs.Aftermath
import Admission.Proofs.Folding
import Admission.Proofs.Reclaiming
import Admission.Proofs.Words

/-!
# Words that are large enough

The words that a machine keeps the numbers of a controller in are large enough for every run of
modest size (`Activity.Modest`): no clock reads later than `2 ^ 58`, fewer than `2 ^ 32` leases are
outstanding at once, and fewer than `2 ^ 64` requests are answered. The clock may go backwards.

`Activity.Filled` is what a run has made of the numbers. What is counted once for every request or
lease is at most the number of requests (`Filled.fits`); the samples and the durations in a history
are each up to a bound, and fifty-one of them add up to less than `2 ^ 64`.
-/

set_option autoImplicit false
set_option relaxedAutoImplicit false

namespace Admission

variable {R : Type} [Scalar R]

namespace Category

theorem lasting_popularity_fits (now : Nat) (settings : ControllerSettings)
    (weight : String → Nat) :
    Lasting (R := R) (fun category ↦ category.demand.popularity.Fits) now settings weight where
  fresh name := Popularity.fits_start now
  recordSubmission category totals width h := h.record now width
  decide category totals timings h := by
    rw [demand_decide]
    exact h
  grant category totals h := h
  reject category h := h
  finish category totals grantedAt h := by
    rw [demand_aside.finish]
    exact h
  abandon category totals grantedAt h := by
    rw [demand_aside.abandon]
    exact h

omit [Scalar R] in
/-- There are no more categories that hold leases than leases held. -/
theorem countP_isActive_le (categories : List (Category R)) :
    categories.countP (·.isActive) ≤ (categories.map (·.active)).sum := by
  induction categories with
  | nil => exact le_rfl
  | cons first rest ih =>
    rw [List.countP_cons, List.map_cons, List.sum_cons]
    split
    · next hactive =>
      have hpos := first.isActive_iff.mp hactive
      omega
    · omega

end Category

namespace Activity

variable {activity next : Activity R} {events : List Event} {event : Event}

/-- The clock reading that an event works with. -/
def Event.reading? : Event → Option Nat
  | .lookUp _ now _ | .refresh _ now | .readSettings _ now | .count now _ | .answer _ _ now _
  | .touch _ now | .settle _ now _ | .beginSweep _ now => some now
  | _ => none

/-- Whether an event answers a request. -/
def Event.isAnswer : Event → Bool
  | .answer .. => true
  | _ => false

/-- A run in which no clock reads too late, not too many leases are outstanding at once, and not too
many requests are answered. -/
structure Modest (began : Activity R) (events : List Event) : Prop where
  readings : ∀ event ∈ events, ∀ now ∈ event.reading?, now ≤ 2 ^ 58
  outstanding : ∀ passage ∈ began.passages events,
    passage.after.controller.ledger.outstanding.length < 2 ^ 32
  requests : events.countP Event.isAnswer < 2 ^ 64

/-! ### Leases -/

/-- What an event makes of the leases granted: a request that is answered may grant one more, which
no sweep that is running comes across. -/
inductive Grants (activity next : Activity R) : Event → Prop
  | none {event : Event}
    (hgranted : next.controller.ledger.granted = activity.controller.ledger.granted) :
    Grants activity next event
  | one {source : Source} {settings : ControllerSettings} {now position number : Nat}
    (hfree : next.sweep = .none)
    (hgranted : next.controller.ledger.granted =
      activity.controller.ledger.granted ++ [⟨number, position, now⟩]) :
    Grants activity next (.answer source settings now position)

omit [Scalar R] in
theorem granted_receive {ledger changed : Ledger} {taken : List Ledger.Reclaimed}
    (h : ledger.receive = some (changed, taken)) : changed.granted = ledger.granted := by
  unfold Ledger.receive at h
  split at h
  · cases h
  · next number rest hdropped =>
    have hledger : ({ ledger with dropped := rest }.reclaim number .dropped).1 = changed :=
      congrArg Prod.fst (Option.some.inj h)
    rw [← hledger, Ledger.granted_reclaim]
    rfl

theorem granted_sweepOn (activity : Activity R) (sweep : Sweep) :
    (activity.sweepOn sweep).controller.ledger.granted = activity.controller.ledger.granted := by
  rcases sweep with ⟨settings, now, stage, taken⟩
  cases stage with
  | receiving =>
    dsimp only [sweepOn]
    split
    · next hreceive => exact granted_receive hreceive
    · split <;> rfl
  | listing bound => rfl
  | claiming stale =>
    cases stale with
    | nil => rfl
    | cons number stale =>
      have hclaim := activity.controller.ledger.granted_claim number
      dsimp only [sweepOn]
      split
      all_goals
        next heq =>
        rw [heq] at hclaim
        exact hclaim
  | taking number stale => exact Ledger.granted_reclaim ..
  | settling =>
    cases taken with
    | nil => rfl
    | cons reclaimed rest => exact congrArg Ledger.granted (Controller.ledger_updateCategory ..)

theorem grants_step (hstep : activity.step event = some next) : activity.Grants next event := by
  cases event with
  | lookUp =>
    obtain ⟨-, rfl⟩ := locked_eq_some_iff.mp hstep
    exact .none (congrArg Ledger.granted (Controller.ledger_getCategory ..))
  | refresh =>
    cases hstep
    exact .none (congrArg Ledger.granted (Controller.ledger_refreshSettings ..))
  | readSettings =>
    cases hstep
    exact .none rfl
  | count =>
    obtain ⟨-, rfl⟩ := locked_eq_some_iff.mp hstep
    exact .none (congrArg Ledger.granted (Controller.ledger_updateCategory ..))
  | answer source settings now position =>
    obtain ⟨hfree, rfl⟩ := locked_eq_some_iff.mp hstep
    rcases activity.controller.ledger_answerAt source settings now position with hsame | hgrant
    · exact .none (congrArg Ledger.granted hsame)
    · exact .one hfree ((congrArg Ledger.granted hgrant).trans (Ledger.granted_grant ..))
  | touch =>
    cases hstep
    exact .none (Ledger.granted_touch ..)
  | supervise =>
    cases hstep
    exact .none (Ledger.granted_supervise ..)
  | takeRelease | takeDrop =>
    simp only [step] at hstep
    split at hstep
    · obtain ⟨ledger, hexchange, rfl⟩ := Option.map_eq_some_iff.mp hstep
      obtain ⟨-, rfl⟩ := Ledger.exchange_eq_some_iff _ |>.mp hexchange
      exact .none (Ledger.granted_setPhase ..)
    · cases hstep
  | settle settings now lease =>
    simp only [step] at hstep
    split at hstep
    · obtain ⟨-, rfl⟩ := locked_eq_some_iff.mp hstep
      refine .none ?_
      rw [Controller.ledger_settle]
      rfl
    · cases hstep
  | takeLate =>
    obtain ⟨ledger, hexchange, rfl⟩ := Option.map_eq_some_iff.mp hstep
    obtain ⟨-, rfl⟩ := Ledger.exchange_eq_some_iff _ |>.mp hexchange
    exact .none (Ledger.granted_setPhase ..)
  | post =>
    simp only [step] at hstep
    split at hstep <;> cases hstep
    exact .none rfl
  | beginSweep =>
    obtain ⟨-, rfl⟩ := locked_eq_some_iff.mp hstep
    exact .none rfl
  | sweepOn =>
    obtain ⟨sweep, -, rfl⟩ := Option.map_eq_some_iff.mp hstep
    exact .none (activity.granted_sweepOn sweep)

omit [Scalar R] in
/-- Every lease granted is held or settled. -/
theorem Sound.length_granted (h : activity.Sound) :
    activity.controller.ledger.granted.length = activity.held.length + activity.settled.length := by
  rw [h.custody.granted.length_eq, hands, held]
  simp only [List.length_append, List.length_map]
  omega

/-- What is held is on the list of outstanding leases, or was there when the sweep began that is
running. -/
theorem held_lt_step {bound : Nat} (hsound : activity.Sound) (h : activity.held.length < bound)
    (hstep : activity.step event = some next)
    (houtstanding : next.controller.ledger.outstanding.length < bound) :
    next.held.length < bound := by
  cases grants_step hstep with
  | none hgranted =>
    have hbefore := hsound.length_granted
    have hafter := (hsound.step hstep).length_granted
    rw [hgranted, hbefore, (dealt_step hstep).settled, List.length_append] at hafter
    omega
  | one hfree =>
    rw [held, taken_of_free hfree]
    exact houtstanding

/-! ### What a run has made of the numbers -/

omit [Scalar R] in
/-- The clock reading that something is dealt with at is that of the event or of the sweep. -/
theorem reading_dealing_le {bound : Nat} (hevent : ∀ now ∈ event.reading?, now ≤ bound)
    (hsweep : ∀ sweep ∈ activity.sweep, sweep.now ≤ bound) :
    ∀ now ∈ (activity.dealing event).reading?, now ≤ bound := by
  cases event with
  | lookUp | count | answer | settle => exact hevent
  | sweepOn =>
    intro now hnow
    rw [dealing] at hnow
    rcases cases_dealing_sweep activity.sweep with hnothing | ⟨running, reclaimed, hrunning, hlose⟩
    · rw [hnothing] at hnow
      cases hnow
    · rw [hlose] at hnow
      cases hnow
      exact hsweep running hrunning
  | _ =>
    intro now hnow
    cases hnow

/-- A sweep keeps to the clock reading that it began with. -/
theorem now_sweepOn (activity : Activity R) (sweep : Sweep) :
    ∀ later ∈ (activity.sweepOn sweep).sweep, later.now = sweep.now := by
  rcases sweep with ⟨settings, now, stage, taken⟩
  have hgoes : ∀ {stage : Stage} {taken : List Ledger.Reclaimed},
      ∀ later ∈ some (⟨settings, now, stage, taken⟩ : Sweep), later.now = now :=
    fun later hlater ↦ Option.some.inj hlater ▸ rfl
  cases stage with
  | receiving =>
    dsimp only [sweepOn]
    split
    · exact hgoes
    · split <;> exact hgoes
  | listing bound => exact hgoes
  | claiming stale =>
    cases stale with
    | nil => exact hgoes
    | cons number stale =>
      dsimp only [sweepOn]
      split <;> exact hgoes
  | taking number stale => exact hgoes
  | settling =>
    cases taken with
    | nil => exact nofun
    | cons reclaimed rest => exact hgoes

theorem sweep_le_step {bound : Nat} (hstep : activity.step event = some next)
    (hevent : ∀ now ∈ event.reading?, now ≤ bound)
    (hsweep : ∀ sweep ∈ activity.sweep, sweep.now ≤ bound) :
    ∀ sweep ∈ next.sweep, sweep.now ≤ bound := by
  cases event with
  | lookUp | count | answer =>
    obtain ⟨-, rfl⟩ := locked_eq_some_iff.mp hstep
    exact hsweep
  | refresh | readSettings | touch | supervise =>
    cases hstep
    exact hsweep
  | takeRelease | takeDrop =>
    simp only [step] at hstep
    split at hstep
    · obtain ⟨ledger, -, rfl⟩ := Option.map_eq_some_iff.mp hstep
      exact hsweep
    · cases hstep
  | settle =>
    simp only [step] at hstep
    split at hstep
    · obtain ⟨-, rfl⟩ := locked_eq_some_iff.mp hstep
      exact hsweep
    · cases hstep
  | takeLate =>
    obtain ⟨ledger, -, rfl⟩ := Option.map_eq_some_iff.mp hstep
    exact hsweep
  | post =>
    simp only [step] at hstep
    split at hstep <;> cases hstep
    exact hsweep
  | beginSweep settings now =>
    obtain ⟨-, rfl⟩ := locked_eq_some_iff.mp hstep
    intro sweep hbegun
    cases hbegun
    exact hevent now rfl
  | sweepOn =>
    obtain ⟨sweep, hrunning, rfl⟩ := Option.map_eq_some_iff.mp hstep
    intro later hlater
    rw [activity.now_sweepOn sweep later hlater]
    exact hsweep sweep hrunning

/-- The numbers of a controller after a run, as far as they do not follow from each other. -/
structure Filled (activity : Activity R) (events : List Event) : Prop where
  sound : activity.Sound
  timed : activity.Timed events
  popularity : ∀ category ∈ activity.controller.categories, category.demand.popularity.Fits
  decided : ∀ category ∈ activity.controller.categories,
    category.demand.decided ≤ events.countP Event.isAnswer
  granted : activity.controller.ledger.granted.length ≤ events.countP Event.isAnswer
  grantedAt : ∀ lease ∈ activity.controller.ledger.granted, lease.grantedAt ≤ 2 ^ 58
  sweep : ∀ sweep ∈ activity.sweep, sweep.now ≤ 2 ^ 58
  held : activity.held.length < 2 ^ 32

theorem filled_quiet (id : String) (timings : Timings) (source : Source) (start : Nat) :
    (quiet (.build id timings source start) [] : Activity R).Filled [] where
  sound := .start id timings source start
  timed := ⟨nofun, fun _ ↦ rfl⟩
  popularity := by simp [quiet, Controller.build]
  decided := by simp [quiet, Controller.build]
  granted := le_rfl
  grantedAt := nofun
  sweep := nofun
  held := Nat.two_pow_pos 32

omit [Scalar R] in
theorem answer_of_dealing {source : Source} {settings : ControllerSettings} {now position : Nat}
    (h : activity.dealing event = .answer source settings now position) :
    event = .answer source settings now position := by
  cases event with
  | answer => cases h; rfl
  | sweepOn =>
    rw [dealing] at h
    rcases cases_dealing_sweep activity.sweep with hnothing | ⟨running, reclaimed, -, hlose⟩
    · rw [hnothing] at h
      cases h
    · rw [hlose] at h
      cases h
  | _ => cases h

/-- A category has decided about one request more if one was answered for it. -/
theorem decided_le_step (hstep : activity.step event = some next) {count : Nat}
    (h : ∀ category ∈ activity.controller.categories, category.demand.decided ≤ count) :
    ∀ category ∈ next.controller.categories,
      category.demand.decided ≤ count + if event.isAnswer then 1 else 0 := by
  intro after hmem
  obtain ⟨position, hafter⟩ := Array.mem_iff_getElem?.mp hmem
  have hleaves := leaves_step hstep hafter
  have hkept : ∀ {before : Category R}, activity.controller.categories[position]? = some before →
      after.demand.decided = before.demand.decided →
        after.demand.decided ≤ count + if event.isAnswer then 1 else 0 := by
    intro before hbefore hsame
    rw [hsame]
    exact (h before (Array.mem_of_getElem? hbefore)).trans (Nat.le_add_right ..)
  generalize hdealing : activity.dealing event = dealing at hleaves
  cases hleaves with
  | created hnew hnone hfresh =>
    rw [hfresh]
    exact Nat.zero_le _
  | counted hbefore hcounted => exact hkept hbefore (hcounted ▸ rfl)
  | @answered source settings now before hbefore hanswered =>
    obtain rfl := answer_of_dealing hdealing
    rw [hanswered, Controller.demand_answered]
    exact Nat.succ_le_succ (h before (Array.mem_of_getElem? hbefore))
  | finished hlease hbefore hfinished =>
    refine hkept hbefore ?_
    rw [hfinished, Category.demand_aside.finish]
  | lost hlease hbefore hlost =>
    refine hkept hbefore ?_
    rw [hlost, Category.demand_aside.abandon]
  | kept hbefore => exact hkept hbefore rfl

theorem Filled.step (h : activity.Filled events) (hstep : activity.step event = some next)
    (hreading : ∀ now ∈ event.reading?, now ≤ 2 ^ 58)
    (houtstanding : next.controller.ledger.outstanding.length < 2 ^ 32) :
    next.Filled (events ++ [event]) where
  sound := h.sound.step hstep
  timed := h.timed.step h.sound hstep
  popularity :=
    Controller.forall_categories_step Category.lasting_popularity_fits hstep h.popularity
  decided := by
    rw [countP_concat]
    exact decided_le_step hstep h.decided
  granted := by
    have hbefore := h.granted
    rw [countP_concat]
    cases grants_step hstep with
    | none hgranted =>
      rw [hgranted]
      omega
    | one hfree hgranted =>
      rw [hgranted, List.length_append]
      exact Nat.succ_le_succ hbefore
  grantedAt := by
    cases grants_step hstep with
    | none hgranted =>
      rw [hgranted]
      exact h.grantedAt
    | @one source settings now position number hfree hgranted =>
      rw [hgranted]
      refine List.forall_mem_append.mpr ⟨h.grantedAt, List.forall_mem_singleton.mpr ?_⟩
      exact hreading now rfl
  sweep := sweep_le_step hstep hreading h.sweep
  held := held_lt_step h.sound h.held hstep houtstanding

omit [Scalar R] in
theorem durations_le {bound : Nat} (position : Nat)
    (h : ∀ event ∈ events, ∀ now ∈ event.reading?, now ≤ bound) :
    ∀ duration ∈ durations position events, duration ≤ bound := by
  intro duration hmem
  obtain ⟨event, hevent, hduration⟩ := List.mem_filterMap.mp hmem
  cases event with
  | settle settings now lease =>
    simp only [Event.duration?] at hduration
    split at hduration
    · cases hduration
      exact (Nat.sub_le ..).trans (h _ hevent now rfl)
    · cases hduration
  | _ => cases hduration

omit [Scalar R] in
/-- The leases of a category that are held were granted early enough for their times to add up. -/
theorem Filled.grantTimeSum_lt (h : activity.Filled events) (position : Nat) :
    (Account.ofLeases position activity.held activity.settled).grantTimeSum < 2 ^ 128 := by
  have hheld := h.held
  have hgrantedAt : ∀ time ∈ (activity.held.filter fun lease ↦ lease.category = position).map
      (·.grantedAt), time ≤ 2 ^ 58 := by
    intro time hmem
    obtain ⟨lease, hlease, rfl⟩ := List.mem_map.mp hmem
    have hunsettled : lease ∈ activity.unsettled :=
      h.sound.perm_unsettled.mem_iff.mpr (List.mem_of_mem_filter hlease)
    exact h.grantedAt lease (mem_unsettled.mp hunsettled).1
  have hsum := List.sum_le_card_nsmul _ _ hgrantedAt
  rw [List.length_map, smul_eq_mul] at hsum
  have hfew := List.length_filter_le (fun lease : Lease ↦ lease.category = position) activity.held
  calc (Account.ofLeases position activity.held activity.settled).grantTimeSum
      ≤ (activity.held.filter fun lease ↦ lease.category = position).length * 2 ^ 58 := hsum
    _ < 2 ^ 128 := by omega

omit [Scalar R] in
theorem Filled.durations_fits (h : activity.Filled events) {position : Nat} {category : Category R}
    (hcategory : activity.controller.categories[position]? = some category)
    (hreadings : ∀ event ∈ events, ∀ now ∈ event.reading?, now ≤ 2 ^ 58)
    (hcount : category.durations.count < 2 ^ 64) : category.durations.Fits := by
  have hkeeps := h.timed.keeps hcategory
  have hle := durations_le position hreadings
  refine ⟨⟨?_, ?_, ?_⟩, hcount, ?_⟩
  · rw [History.Summed, hkeeps.recentSum, hkeeps.recent]
    rfl
  · rw [History.length, hkeeps.recent]
    exact History.length_latest_le _
  · intro duration hmem
    rw [hkeeps.recent] at hmem
    exact hle duration (List.mem_of_mem_drop hmem)
  · have hsum := List.sum_le_card_nsmul _ _ hle
    rw [← hkeeps.count, ← hkeeps.total, smul_eq_mul] at hsum
    omega

omit [Scalar R] in
/-- After a run of modest size every number fits its word. -/
theorem Filled.fits (h : activity.Filled events)
    (hreadings : ∀ event ∈ events, ∀ now ∈ event.reading?, now ≤ 2 ^ 58)
    (hrequests : events.countP Event.isAnswer < 2 ^ 64) : activity.controller.Fits where
  categories := by
    intro category hmem
    obtain ⟨position, hcategory⟩ := Array.mem_iff_getElem?.mp hmem
    have haccount := h.sound.balanced.account position category hcategory
    have hactive : category.active ≤ activity.held.length :=
      (congrArg Account.active haccount).trans_le List.countP_le_length
    have hadmitted : category.admitted =
        category.active + category.durations.count + category.abandoned := by
      change category.account.admitted =
        category.account.active + category.account.finished + category.account.abandoned
      rw [haccount]
      rfl
    have hdecided : category.admitted + category.rejected ≤ events.countP Event.isAnswer :=
      h.decided category hmem
    exact
      { popularity := h.popularity category hmem
        durations := h.durations_fits hcategory hreadings (by omega)
        active := hactive.trans_lt h.held
        grantTimeSum := (congrArg Account.grantTimeSum haccount).trans_lt
          (h.grantTimeSum_lt position)
        admitted := by omega
        rejected := by omega
        abandoned := by omega }
  totals := by
    have hbalanced := h.sound.balanced
    refine ⟨?_, hbalanced.totalActive.trans_lt h.held⟩
    calc activity.controller.totals.activeCategories
        = activity.controller.categories.toList.countP (·.isActive) := hbalanced.activeCategories
      _ ≤ (activity.controller.categories.toList.map (·.active)).sum :=
        Category.countP_isActive_le _
      _ = activity.held.length := hbalanced.sum_active
      _ < 2 ^ 32 := h.held
  identifiers := by
    rw [← activity.controller.ledger.length_granted]
    exact h.granted.trans_lt hrequests

/-! ### Runs -/

/-- A run of modest size is so up to each of its events. -/
theorem Modest.concat {began : Activity R} (hrun : began.run events = some activity)
    (hstep : activity.step event = some next) (h : began.Modest (events ++ [event])) :
    began.Modest events ∧ (∀ now ∈ event.reading?, now ≤ 2 ^ 58) ∧
      next.controller.ledger.outstanding.length < 2 ^ 32 := by
  obtain ⟨hreadings, houtstanding, hrequests⟩ := h
  rw [passages_concat hrun hstep] at houtstanding
  rw [countP_concat] at hrequests
  obtain ⟨hreadings, hlast⟩ := List.forall_mem_append.mp hreadings
  obtain ⟨houtstanding, hend⟩ := List.forall_mem_append.mp houtstanding
  exact ⟨⟨hreadings, houtstanding, by omega⟩, hlast event List.mem_cons_self,
    hend ⟨activity, event, next⟩ List.mem_cons_self⟩

/-- What an event makes of an activity, with the categories and the totals computed in words. -/
def stepInWords (activity : Activity R) (event : Event) : Option (Activity R) := do
  let next ← activity.step event
  let computed ← (activity.dealing event).actInWords activity.controller
  return next.withController
    { next.controller with categories := computed.categories, totals := computed.totals }

/-- What a run of events makes of an activity, with the categories and the totals computed in
words. -/
def runInWords (activity : Activity R) (events : List Event) : Option (Activity R) :=
  events.foldlM stepInWords activity

/-- If the numbers fit before and after an event then the event comes to the same in words. -/
theorem stepInWords_eq (hstep : activity.step event = some next) (h : activity.controller.Fits)
    (hafter : next.controller.Fits)
    (hreading : ∀ now ∈ (activity.dealing event).reading?, now ≤ 2 ^ 58) :
    activity.stepInWords event = some next := by
  have hdealt := dealt_step hstep
  have hact : ((activity.dealing event).act activity.controller).Fits := by
    by_cases hnothing : activity.dealing event = .nothing
    · rw [hnothing]
      exact h
    · exact hafter.congr hdealt.categories.symm hdealt.totals.symm (hdealt.ledger hnothing).symm
  rw [stepInWords, hstep, Option.bind_eq_bind, Option.bind_some,
    Dealing.actInWords_eq h hact hreading, Option.bind_eq_bind, Option.bind_some,
    ← hdealt.categories, ← hdealt.totals]
  rfl

/-- No sum, product or difference ever leaves its word: a run of modest size comes to the same in
words as in whole numbers, whatever the order of its events and although clocks may go backwards,
and at its end every number fits its word. -/
theorem runs_in_words (id : String) (timings : Timings) (source : Source) (start : Nat)
    {events : List Event} {activity : Activity R}
    (hrun : (quiet (.build id timings source start) []).run events = some activity)
    (hmodest : (quiet (.build id timings source start) [] : Activity R).Modest events) :
    (quiet (.build id timings source start) []).runInWords events = some activity ∧
      activity.controller.Fits := by
  suffices hall : (quiet (.build id timings source start) []).runInWords events = some activity ∧
      activity.Filled events from
    ⟨hall.1, hall.2.fits hmodest.readings hmodest.requests⟩
  induction events using List.reverseRecOn generalizing activity with
  | nil =>
    cases hrun
    exact ⟨rfl, filled_quiet id timings source start⟩
  | append_singleton events event ih =>
    obtain ⟨before, hbefore, hstep⟩ := foldlM_concat_eq_some_iff.mp hrun
    obtain ⟨hsofar, hreading, houtstanding⟩ := hmodest.concat hbefore hstep
    obtain ⟨hwords, hfilled⟩ := ih hbefore hsofar
    have hnext := hfilled.step hstep hreading houtstanding
    have hlast : before.stepInWords event = some activity :=
      stepInWords_eq hstep (hfilled.fits hsofar.readings hsofar.requests)
        (hnext.fits hmodest.readings hmodest.requests)
        (reading_dealing_le hreading hfilled.sweep)
    exact ⟨foldlM_concat_eq_some_iff.mpr ⟨before, hwords, hlast⟩, hnext⟩

/-- Such a run: a lease is granted at the latest reading of all and released after the clock was set
back; a second one is dropped and swept up, and a third request is refused. -/
theorem runs_in_words_backwards :
    ∃ (source : Source) (events : List Event) (activity : Activity Rat),
      (quiet (.build "main" {} source 0) []).run events = some activity ∧
      (quiet (.build "main" {} source 0) [] : Activity Rat).Modest events ∧
      activity.settled.map (·.manner) = [.lost, .finished] ∧
      (quiet (.build "main" {} source 0) []).runInWords events = some activity ∧
      activity.controller.Fits := by
  let settings : ControllerSettings := { threshold := 2 }
  let source : Source := ⟨fun _ ↦ ⟨1, settings⟩, fun _ _ ↦ some 1⟩
  let late : Nat := 2 ^ 58
  let early : Lease := ⟨0, 0, late⟩
  let forgotten : Lease := ⟨1, 0, 20⟩
  let events : List Event :=
    [.lookUp source 10 "a", .count late 0, .answer source settings late 0,
      .count 20 0, .answer source settings 20 0, .count 30 0, .answer source settings 30 0,
      .takeRelease early, .settle settings 40 early,
      .takeDrop forgotten, .post 1, .beginSweep settings 50, .sweepOn, .sweepOn, .sweepOn, .sweepOn,
      .sweepOn, .sweepOn]
  let began : Activity Rat := quiet (.build "main" {} source 0) []
  have hpossible : (began.run events).isSome = true := by decide +kernel
  have hsettled : ∀ activity ∈ began.run events,
      activity.settled.map (·.manner) = [.lost, .finished] := by
    decide +kernel
  have hmodest : began.Modest events :=
    { readings := by decide +kernel
      outstanding := by decide +kernel
      requests := by decide +kernel }
  obtain ⟨activity, hrun⟩ := Option.isSome_iff_exists.mp hpossible
  obtain ⟨hwords, hfits⟩ := runs_in_words "main" {} source 0 hrun hmodest
  exact ⟨source, events, activity, hrun, hmodest, hsettled activity hrun, hwords, hfits⟩

end Activity

end Admission
