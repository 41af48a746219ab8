import Admission.Proofs.Uninterrupted

/-!
# The counts of a controller agree with its leases

A lease is counted in three places: in its category, in the totals and on the list of leases that
are not settled. `Accounted` says that the three agree, and `Controller.accounted_run` that they do
so after any moves. The category of a lease that a move takes off the counts does hold a lease then,
and the counts that are lowered are large enough (`TakenFreely`), so the guards of
`Category.deactivateOne` never take effect.
-/

set_option autoImplicit false
set_option relaxedAutoImplicit false

namespace Admission

open Ledger (Reclaimed)

variable {R : Type}

/-- The counts of the categories, the totals and the list of leases agree. -/
structure Controller.Accounted (controller : Controller R) : Prop where
  active : ∀ (position : Nat) (category : Category R),
    controller.categories[position]? = some category →
      category.active =
        controller.ledger.outstanding.countP fun lease ↦ lease.category = position
  grantTimeSum : ∀ (position : Nat) (category : Category R),
    controller.categories[position]? = some category →
      category.grantTimeSum = ((controller.ledger.outstanding.filter fun lease ↦
        lease.category = position).map (·.grantedAt)).sum
  admitted : ∀ category ∈ controller.categories,
    category.admitted = category.active + category.durations.count + category.abandoned
  totalActive : controller.totals.totalActive = (controller.categories.toList.map (·.active)).sum
  outstanding : controller.totals.totalActive = controller.ledger.outstanding.length
  activeCategories : controller.totals.activeCategories =
    controller.categories.toList.countP fun category ↦ 0 < category.active
  outstanding_ids : (controller.ledger.outstanding.map (·.id)).Nodup
  granted_ids : (controller.ledger.granted.map (·.id)).Nodup
  granted_outstanding : ∀ lease ∈ controller.ledger.outstanding, lease ∈ controller.ledger.granted
  sum_admitted : (controller.categories.toList.map (·.admitted)).sum =
    controller.ledger.nextId - 1

/-- A lease about to be taken off the counts of its category, with the controller as it is then: no
guard takes effect. -/
def TakenFreely (taking : Controller R × Lease) : Prop :=
  ∃ category, taking.1.categories[taking.2.category]? = some category ∧
    category.Deactivatable taking.1.totals taking.2.grantedAt

/-- A held lease can be taken off the counts while the books are balanced. -/
theorem Controller.Balanced.takenFreely {controller : Controller R} {lease : Lease}
    {held : List Lease} {settled : List Settlement}
    (h : controller.Balanced (lease :: held) settled) : TakenFreely (controller, lease) := by
  obtain ⟨category, hcategory⟩ := h.exists_category
  exact ⟨category, hcategory, h.deactivatable hcategory⟩

namespace Controller

/-! ### Controllers in order -/

/-- For some past settlements the ledger is in custody and the books are balanced, with nobody at
work. -/
def InOrder (controller : Controller R) : Prop :=
  ∃ settled, (Activity.quiet controller settled).Sound

theorem InOrder.accounted {controller : Controller R} (h : controller.InOrder) :
    controller.Accounted := by
  obtain ⟨settled, hsound⟩ := h
  have hcustody : controller.ledger.InCustody (Activity.quiet controller settled).hands :=
    hsound.custody
  have hbalanced : controller.Balanced controller.ledger.outstanding settled := hsound.balanced
  have hids : ∀ leases : List Lease,
      (leases.map (·.number)).Nodup → (leases.map (·.id)).Nodup := by
    intro leases hnumbers
    have hmap : leases.map (·.id) = (leases.map (·.number)).map (· + 1) := by
      rw [List.map_map]
      rfl
    rw [hmap]
    exact hnumbers.map (add_left_injective 1)
  constructor
  case active =>
    intro position category hcategory
    exact congrArg Account.active (hbalanced.account position category hcategory)
  case grantTimeSum =>
    intro position category hcategory
    exact congrArg Account.grantTimeSum (hbalanced.account position category hcategory)
  case admitted =>
    intro category hmem
    obtain ⟨position, hcategory⟩ := Array.mem_iff_getElem?.mp hmem
    have haccount := hbalanced.account position category hcategory
    have hactive : category.active = _ := congrArg Account.active haccount
    have hfinished : category.durations.count = _ := congrArg Account.finished haccount
    have habandoned : category.abandoned = _ := congrArg Account.abandoned haccount
    have hadmitted : category.admitted = _ := congrArg Account.admitted haccount
    rw [hactive, hfinished, habandoned, hadmitted]
    rfl
  case totalActive => rw [hbalanced.sum_active, hbalanced.totalActive]
  case outstanding => exact hbalanced.totalActive
  case activeCategories => exact hbalanced.activeCategories
  case outstanding_ids => exact hids _ hcustody.nodup_outstanding
  case granted_ids => exact hids _ hcustody.nodup_numbers
  case granted_outstanding => exact fun lease hmem ↦ hcustody.mem_granted_of_mem hmem
  case sum_admitted =>
    have hlength : controller.ledger.tokens.size =
        settled.length + controller.ledger.outstanding.length := by
      rw [← Ledger.length_granted, hcustody.granted.length_eq]
      simp [Activity.hands, Activity.quiet, Activity.taken]
    rw [hbalanced.sum_admitted, Ledger.nextId, hlength]
    omega

variable [Scalar R]

/-! ### What a move takes off the counts -/

/-- The leases that a sweep settles one after another, each with the controller just before. -/
def losses (settings : ControllerSettings) (now : Nat) :
    Controller R → List Reclaimed → List (Controller R × Lease)
  | _, [] => []
  | controller, reclaimed :: rest =>
    (controller, reclaimed.lease) ::
      losses settings now (controller.abandonOne settings now reclaimed) rest

/-- What a sweep takes off the counts. -/
def sweepTakings (controller : Controller R) (settings : ControllerSettings) (now : Nat) :
    List (Controller R × Lease) :=
  let (ledger, reclaimed) := controller.ledger.collect now controller.timings.abandonAfter
  losses settings now { controller with ledger, lastSweepAt := now } reclaimed

/-- What a request takes off the counts, if it is time to sweep. -/
def requestTakings (controller : Controller R) (source : Source) (now position : Nat) :
    List (Controller R × Lease) :=
  let controller := controller.refreshSettings source now
  let counted := controller.countSubmission now position
  if counted.sweepDue now then counted.sweepTakings controller.current now else []

/-- What a release takes off the counts: its lease, if it was active. -/
def releaseTakings (controller : Controller R) (source : Source) (now : Nat) (lease : Lease) :
    List (Controller R × Lease) :=
  match controller.ledger.exchange lease.number .active .released with
  | some ledger => [({ controller with ledger }.refreshSettings source now, lease)]
  | none => []

/-- The leases that a move takes off the counts, each with the controller just before. -/
def takings (controller : Controller R) (move : Move) : List (Controller R × Lease) :=
  match move.operation with
  | .requestAt position => controller.requestTakings move.source move.now position
  | .request name =>
    let (controller, position) := controller.getCategory move.source move.now name
    controller.requestTakings move.source move.now position
  | .release number =>
    match controller.ledger.lease? number with
    | none => []
    | some lease => controller.releaseTakings move.source move.now lease
  | .reconcile =>
    let controller := controller.refreshSettings move.source move.now
    controller.sweepTakings controller.current move.now
  | .lookUp _ | .drop _ | .forget _ | .heartbeat _ | .supervise _ | .refresh | .readSettings => []

namespace InOrder

variable {controller next : Controller R}

theorem leadsTo (h : controller.InOrder) (hnext : Activity.LeadsTo controller next) :
    next.InOrder := by
  obtain ⟨settled, hsound⟩ := h
  obtain ⟨later, events, hrun⟩ := hnext settled
  exact ⟨later, hsound.run hrun⟩

/-- A controller stays in order from its building on. -/
theorem run (id : String) (timings : Timings) (source : Source) (now : Nat) (moves : List Move) :
    ((build id timings source now : Controller R).run moves).InOrder :=
  leadsTo ⟨[], .start id timings source now⟩ (.run _ moves)

/-! ### What is taken off the counts is taken freely -/

theorem losses_freely (settings : ControllerSettings) (now : Nat) {reclaimed : List Reclaimed}
    {held : List Lease} {settled : List Settlement}
    (h : controller.Balanced (reclaimed.map (·.lease) ++ held) settled) :
    ∀ taking ∈ controller.losses settings now reclaimed, TakenFreely taking := by
  induction reclaimed generalizing controller settled with
  | nil => simp [losses]
  | cons first rest ih =>
    intro taking hmem
    rw [List.map_cons, List.cons_append] at h
    rcases List.mem_cons.mp hmem with rfl | hmem
    · exact h.takenFreely
    · exact ih (h.abandonOne settings now) taking hmem

/-- When a sweep has taken everything it finds off the list, and settled nothing yet, the books are
balanced with what it took among the leases held. -/
theorem collected (h : controller.InOrder) (now : Nat) :
    ∃ settled, Balanced
      { controller with
        ledger := (controller.ledger.collect now controller.timings.abandonAfter).1
        lastSweepAt := now }
      ((controller.ledger.collect now controller.timings.abandonAfter).2.map Reclaimed.lease ++
        (controller.ledger.collect now controller.timings.abandonAfter).1.outstanding) settled := by
  obtain ⟨settled, hsound⟩ := h
  have hstep : (Activity.quiet controller settled).step (.beginSweep controller.current now) = some
      { Activity.quiet { controller with lastSweepAt := now } settled with
        sweep := some ⟨controller.current, now, .receiving, []⟩ } :=
    rfl
  have hbegin := hsound.step hstep
  obtain ⟨events, hrun⟩ := Activity.proceeds_collect
    ((Activity.quiet controller settled).withController { controller with lastSweepAt := now })
    controller.current now controller.ledger
  exact ⟨settled, (hbegin.run hrun).balanced⟩

theorem sweepTakings_freely (h : controller.InOrder) (settings : ControllerSettings) (now : Nat) :
    ∀ taking ∈ controller.sweepTakings settings now, TakenFreely taking := by
  obtain ⟨settled, hcollected⟩ := h.collected now
  exact losses_freely settings now hcollected

theorem requestTakings_freely (h : controller.InOrder) (source : Source) (now position : Nat) :
    ∀ taking ∈ controller.requestTakings source now position, TakenFreely taking := by
  have hrefreshed := h.leadsTo (.refreshSettings controller source now)
  have hcounted := hrefreshed.leadsTo (.count _ now position)
  unfold requestTakings
  dsimp only
  split
  · exact hcounted.sweepTakings_freely _ now
  · simp

omit [Scalar R] in
/-- When a holder has taken it on to release its lease, and not settled it yet, the books are
balanced with that lease first among those held. -/
theorem releasing (h : controller.InOrder) (source : Source) (now : Nat) {lease : Lease}
    (hlist : lease ∈ controller.ledger.outstanding) (phase : Phase) :
    ∃ settled,
      (refreshSettings { controller with ledger := controller.ledger.setPhase lease.number phase }
        source now).Balanced (lease :: (controller.ledger.remove lease.number).outstanding)
        settled := by
  obtain ⟨settled, hsound⟩ := h
  have hcustody : controller.ledger.InCustody (Activity.quiet controller settled).hands :=
    hsound.custody
  have hbalanced : controller.Balanced controller.ledger.outstanding settled := hsound.balanced
  have hperm := controller.ledger.perm_remove hcustody.nodup_outstanding hlist
  exact ⟨settled,
    (hbalanced.perm hperm).congr (categories_refreshSettings ..) (totals_refreshSettings ..)⟩

omit [Scalar R] in
theorem releaseTakings_freely (h : controller.InOrder) (source : Source) (now : Nat)
    {lease : Lease} (hgranted : lease ∈ controller.ledger.granted) :
    ∀ taking ∈ controller.releaseTakings source now lease, TakenFreely taking := by
  unfold releaseTakings
  split
  · next ledger hexchange =>
    obtain ⟨hphase, rfl⟩ := controller.ledger.exchange_eq_some_iff.mp hexchange
    have hlist : lease ∈ controller.ledger.outstanding := by
      obtain ⟨settled, hsound⟩ := h
      exact hsound.custody.active lease hgranted hphase
    obtain ⟨settled, hreleasing⟩ := h.releasing source now hlist .released
    intro taking hmem
    rw [List.mem_singleton] at hmem
    subst hmem
    exact hreleasing.takenFreely
  · simp

theorem takings_freely (h : controller.InOrder) (move : Move) :
    ∀ taking ∈ controller.takings move, TakenFreely taking := by
  rcases move with ⟨operation, source, now⟩
  cases operation with
  | requestAt position => exact h.requestTakings_freely source now position
  | request name =>
    exact (h.leadsTo (.getCategory controller source now name)).requestTakings_freely source now _
  | release number =>
    simp only [takings]
    split
    · simp
    · next lease hlease =>
      exact h.releaseTakings_freely source now (controller.ledger.mem_granted_of_lease? hlease)
  | reconcile =>
    exact (h.leadsTo (.refreshSettings controller source now)).sweepTakings_freely _ now
  | lookUp _ | drop _ | forget _ | heartbeat _ | supervise _ | refresh | readSettings =>
    simp [takings]

end InOrder

/-- After any moves the counts of the categories, the totals and the list of leases agree, and no
guard takes effect in whatever move comes next. -/
theorem accounted_run (id : String) (timings : Timings) (source : Source) (now : Nat)
    (moves : List Move) :
    ((build id timings source now : Controller R).run moves).Accounted ∧
      ∀ move, ∀ taking ∈ ((build id timings source now : Controller R).run moves).takings move,
        TakenFreely taking := by
  have horder := InOrder.run (R := R) id timings source now moves
  exact ⟨horder.accounted, horder.takings_freely⟩

end Controller

end Admission
