import Admission.Controller.Settle
import Admission.Proofs.Account
import Mathlib.Algebra.BigOperators.Group.Finset.Basic
import Mathlib.Algebra.GroupWithZero.Nat

/-!
# The books of a controller

The counts that a controller keeps can be told from its leases. `Account.ofLeases` is the account
that a category must have when certain leases are held and others were settled in a certain manner,
and a controller is `Balanced` if every category has that account and the totals agree. A grant adds
a lease to those held (`Balanced.enterLease`); settling one moves it to those settled
(`Balanced.settle`, `Balanced.abandonOne`); all else leaves the books as they are.

`Balanced.deactivatable` says that while the books are balanced a held lease can be taken off the
counts without any guard taking effect. `Balanced.sum_active` and `Balanced.sum_admitted` add the
categories up.
-/

set_option autoImplicit false
set_option relaxedAutoImplicit false

namespace Admission

/-- How a lease was settled. -/
inductive Manner where
  | finished
  | lost
deriving DecidableEq

/-- A lease that was settled. -/
structure Settlement where
  lease : Lease
  manner : Manner
deriving DecidableEq

namespace Account

/-- The account of the category at a position, from the leases held and the leases settled. -/
def ofLeases (position : Nat) (held : List Lease) (settled : List Settlement) : Account :=
  let active := held.countP fun lease ↦ lease.category = position
  let finished := settled.countP fun settlement ↦
    settlement.lease.category = position ∧ settlement.manner = .finished
  let abandoned := settled.countP fun settlement ↦
    settlement.lease.category = position ∧ settlement.manner = .lost
  { active
    grantTimeSum := ((held.filter fun lease ↦ lease.category = position).map (·.grantedAt)).sum
    admitted := active + finished + abandoned
    finished
    abandoned }

theorem ofLeases_perm (position : Nat) {held other : List Lease} (settled : List Settlement)
    (h : held.Perm other) : ofLeases position held settled = ofLeases position other settled := by
  have hcount := h.countP_eq fun lease ↦ lease.category = position
  have hsum := ((h.filter fun lease ↦ lease.category = position).map (·.grantedAt)).sum_eq
  simp only [ofLeases, hcount, hsum]

theorem ofLeases_cons_of_ne {position : Nat} {lease : Lease} (h : lease.category ≠ position)
    (held : List Lease) (settled : List Settlement) :
    ofLeases position (lease :: held) settled = ofLeases position held settled := by
  simp [ofLeases, h]

/-- Holding one lease more is what a grant does to the account of its category. -/
theorem ofLeases_cons (lease : Lease) (held : List Lease) (settled : List Settlement) :
    ofLeases lease.category (lease :: held) settled =
      (ofLeases lease.category held settled).grant lease.grantedAt := by
  ext <;> simp [ofLeases, grant] <;> omega

theorem ofLeases_settled_of_ne {position : Nat} (settlement : Settlement)
    (h : settlement.lease.category ≠ position) (held : List Lease) (settled : List Settlement) :
    ofLeases position held (settlement :: settled) = ofLeases position held settled := by
  simp [ofLeases, h]

/-- A category has granted the leases it holds and those of it that were settled. -/
theorem admitted_ofLeases (position : Nat) (held : List Lease) (settled : List Settlement) :
    (ofLeases position held settled).admitted =
      (held.countP fun lease ↦ lease.category = position) +
        settled.countP fun settlement ↦ settlement.lease.category = position := by
  have hmanners : (settled.countP fun settlement ↦ settlement.lease.category = position) =
      (settled.countP fun settlement ↦
        settlement.lease.category = position ∧ settlement.manner = .finished) +
      settled.countP fun settlement ↦
        settlement.lease.category = position ∧ settlement.manner = .lost := by
    induction settled with
    | nil => rfl
    | cons settlement rest ih =>
      simp only [List.countP_cons, ih]
      rcases settlement with ⟨lease, manner⟩
      by_cases hcategory : lease.category = position
      · cases manner <;> simp [hcategory] <;> omega
      · simp [hcategory]
  rw [hmanners]
  exact Nat.add_assoc ..

/-- A release takes a lease off those held and counts it as finished. -/
theorem ofLeases_finish (lease : Lease) (held : List Lease) (settled : List Settlement) :
    (ofLeases lease.category (lease :: held) settled).finish lease.grantedAt =
      ofLeases lease.category held (⟨lease, .finished⟩ :: settled) := by
  ext <;> simp [ofLeases, finish, leave]
  omega

/-- A loss takes a lease off those held and counts it as lost. -/
theorem ofLeases_abandon (lease : Lease) (held : List Lease) (settled : List Settlement) :
    (ofLeases lease.category (lease :: held) settled).abandon lease.grantedAt =
      ofLeases lease.category held (⟨lease, .lost⟩ :: settled) := by
  ext <;> simp [ofLeases, abandon, leave]
  omega

/-- Without leases of its own a category has an empty account. -/
theorem ofLeases_eq_zero {position : Nat} {held : List Lease} {settled : List Settlement}
    (hheld : ∀ lease ∈ held, lease.category ≠ position)
    (hsettled : ∀ settlement ∈ settled, settlement.lease.category ≠ position) :
    ofLeases position held settled = .zero := by
  have hactive : (held.countP fun lease ↦ lease.category = position) = 0 := by
    simpa [List.countP_eq_zero] using hheld
  have hfilter : (held.filter fun lease ↦ lease.category = position) = [] := by
    simpa [List.filter_eq_nil_iff] using hheld
  have hmanner : ∀ manner : Manner, (settled.countP fun settlement ↦
      settlement.lease.category = position ∧ settlement.manner = manner) = 0 := by
    intro manner
    refine List.countP_eq_zero.mpr fun settlement hmem ↦ ?_
    simp [hsettled settlement hmem]
  simp only [ofLeases, hactive, hfilter, hmanner]
  rfl

end Account

variable {R : Type}

/-- The accounts of the categories and the totals agree with the leases held and the leases
settled. -/
structure Controller.Balanced (controller : Controller R) (held : List Lease)
    (settled : List Settlement) : Prop where
  held_lt : ∀ lease ∈ held, lease.category < controller.categories.size
  settled_lt : ∀ settlement ∈ settled, settlement.lease.category < controller.categories.size
  account : ∀ (position : Nat) (category : Category R),
    controller.categories[position]? = some category →
      category.account = .ofLeases position held settled
  totalActive : controller.totals.totalActive = held.length
  activeCategories :
    controller.totals.activeCategories = controller.categories.toList.countP (·.isActive)

namespace Controller

@[simp] theorem ledger_updateCategory (controller : Controller R) (position : Nat)
    (change : Category R → Totals R → Category R × Totals R) :
    (controller.updateCategory position change).ledger = controller.ledger := by
  unfold updateCategory
  split <;> rfl

@[simp] theorem ledger_refreshSettings (controller : Controller R) (source : Source) (now : Nat) :
    (controller.refreshSettings source now).ledger = controller.ledger := by
  unfold refreshSettings
  split <;> rfl

@[simp] theorem categories_refreshSettings (controller : Controller R) (source : Source)
    (now : Nat) : (controller.refreshSettings source now).categories = controller.categories := by
  unfold refreshSettings
  split <;> rfl

@[simp] theorem totals_refreshSettings (controller : Controller R) (source : Source) (now : Nat) :
    (controller.refreshSettings source now).totals = controller.totals := by
  unfold refreshSettings
  split <;> rfl

@[simp] theorem index_refreshSettings (controller : Controller R) (source : Source) (now : Nat) :
    (controller.refreshSettings source now).index = controller.index := by
  unfold refreshSettings
  split <;> rfl

variable [Scalar R]

@[simp] theorem ledger_getCategory (controller : Controller R) (source : Source) (now : Nat)
    (name : String) : (controller.getCategory source now name).1.ledger = controller.ledger := by
  unfold Controller.getCategory
  split
  · rfl
  · unfold Controller.createCategory
    split
    · rfl
    · exact ledger_refreshSettings ..

theorem ledger_abandonAll (controller : Controller R) (settings : ControllerSettings) (now : Nat)
    (reclaimed : List Ledger.Reclaimed) :
    (controller.abandonAll settings now reclaimed).ledger = controller.ledger := by
  induction reclaimed generalizing controller with
  | nil => rfl
  | cons first rest ih => exact (ih _).trans (ledger_updateCategory ..)

@[simp] theorem ledger_sweep (controller : Controller R) (settings : ControllerSettings)
    (now : Nat) : (controller.sweep settings now).controller.ledger =
      (controller.ledger.collect now controller.timings.abandonAfter).1 :=
  ledger_abandonAll ..

@[simp] theorem ledger_settle (controller : Controller R) (settings : ControllerSettings)
    (now : Nat) (lease : Lease) :
    (controller.settle settings now lease).ledger = controller.ledger.remove lease.number :=
  ledger_updateCategory ..

theorem keepsCounts_decideFor (controller : Controller R) (source : Source)
    (settings : ControllerSettings) (now : Nat) (category : Category R) :
    KeepsCounts (category, controller.totals)
      ((controller.decideFor source settings now category).category,
        (controller.decideFor source settings now category).totals) :=
  Category.keepsCounts_decide ..

end Controller

namespace Controller.Balanced

variable {controller changed : Controller R} {held : List Lease} {settled : List Settlement}

theorem congr (h : controller.Balanced held settled)
    (hcategories : changed.categories = controller.categories)
    (htotals : changed.totals = controller.totals) : changed.Balanced held settled where
  held_lt := by simpa only [hcategories] using h.held_lt
  settled_lt := by simpa only [hcategories] using h.settled_lt
  account := by simpa only [hcategories] using h.account
  totalActive := by simpa only [htotals] using h.totalActive
  activeCategories := by simpa only [hcategories, htotals] using h.activeCategories

theorem perm {other : List Lease} (h : controller.Balanced held settled)
    (hperm : held.Perm other) : controller.Balanced other settled where
  held_lt lease hmem := h.held_lt lease (hperm.mem_iff.mpr hmem)
  settled_lt := h.settled_lt
  account position category hcategory := by
    rw [h.account position category hcategory, Account.ofLeases_perm position settled hperm]
  totalActive := by rw [h.totalActive, hperm.length_eq]
  activeCategories := h.activeCategories

/-! ### Changing one category -/

/-- How the number of active categories moves when one category is replaced. -/
theorem countP_replace {categories : Array (Category R)} {position : Nat} {category : Category R}
    (h : categories[position]? = some category) (next : Category R) :
    (categories.setIfInBounds position next).toList.countP (·.isActive) +
        (if category.isActive then 1 else 0) =
      categories.toList.countP (·.isActive) + if next.isActive then 1 else 0 := by
  obtain ⟨hlt, heq⟩ := Array.getElem?_eq_some_iff.mp h
  have hmem : category ∈ categories.toList := heq ▸ Array.getElem_mem_toList hlt
  have hset := List.countP_set (p := fun category : Category R ↦ category.isActive)
    (a := next) (show position < categories.toList.length by simpa using hlt)
  rw [Array.toList_setIfInBounds, hset, Array.getElem_toList, heq]
  cases hactive : category.isActive
  · simp
  · have hpos : 0 < categories.toList.countP (·.isActive) :=
      List.countP_pos_iff.mpr ⟨category, hmem, hactive⟩
    simp only [if_true]
    omega

/-- Replacing a category by one of the account that other leases ask for balances the books for
those leases. -/
theorem replace {position : Nat} {category next : Category R} {totals : Totals R}
    {held' : List Lease} {settled' : List Settlement} (h : controller.Balanced held settled)
    (hcategory : controller.categories[position]? = some category)
    (hcategories : changed.categories = controller.categories.setIfInBounds position next)
    (htotals : changed.totals = totals)
    (hheld : ∀ lease ∈ held', lease.category < controller.categories.size)
    (hsettled : ∀ settlement ∈ settled', settlement.lease.category < controller.categories.size)
    (hself : next.account = .ofLeases position held' settled')
    (hother : ∀ other ≠ position,
      Account.ofLeases other held' settled' = .ofLeases other held settled)
    (htotal : totals.totalActive = held'.length)
    (hactive : totals.activeCategories + (if category.isActive then 1 else 0) =
      controller.totals.activeCategories + if next.isActive then 1 else 0) :
    changed.Balanced held' settled' where
  held_lt := by simpa [hcategories] using hheld
  settled_lt := by simpa [hcategories] using hsettled
  account other found hfound := by
    rw [hcategories, Array.getElem?_setIfInBounds] at hfound
    split at hfound
    · next heq =>
      subst heq
      split at hfound
      · cases hfound
        exact hself
      · cases hfound
    · next hne => rw [h.account other found hfound, hother other (Ne.symm hne)]
  totalActive := by rw [htotals, htotal]
  activeCategories := by
    have hcount := countP_replace hcategory next
    have hbefore := h.activeCategories
    rw [htotals, hcategories]
    omega

/-- An operation on a category that leaves the counts alone leaves the books balanced. -/
theorem updateCategory (h : controller.Balanced held settled) (position : Nat)
    {change : Category R → Totals R → Category R × Totals R}
    (hchange : ∀ category,
      KeepsCounts (category, controller.totals) (change category controller.totals)) :
    (controller.updateCategory position change).Balanced held settled := by
  unfold Controller.updateCategory
  split
  · exact h
  · next category hcategory =>
    have hkeep := hchange category
    refine h.replace hcategory rfl rfl h.held_lt h.settled_lt ?_ (fun _ _ ↦ rfl) ?_ ?_
    · exact hkeep.account.trans (h.account position category hcategory)
    · exact hkeep.totalActive.trans h.totalActive
    · rw [Category.isActive_congr (congrArg Account.active hkeep.account)]
      exact congrArg (· + _) hkeep.activeCategories

/-! ### Taking a lease off the counts -/

/-- The lease at the head of those held belongs to a category. -/
theorem exists_category {lease : Lease} (h : controller.Balanced (lease :: held) settled) :
    ∃ category, controller.categories[lease.category]? = some category :=
  ⟨_, Array.getElem?_eq_getElem (h.held_lt lease List.mem_cons_self)⟩

/-- While the books are balanced, a held lease can be taken off the counts and no guard takes
effect. -/
theorem deactivatable {lease : Lease} {category : Category R}
    (h : controller.Balanced (lease :: held) settled)
    (hcategory : controller.categories[lease.category]? = some category) :
    category.Deactivatable controller.totals lease.grantedAt := by
  have haccount := h.account lease.category category hcategory
  rw [Account.ofLeases_cons] at haccount
  have hactive : category.active = _ + 1 := congrArg Account.active haccount
  have htimes : category.grantTimeSum = _ + lease.grantedAt :=
    congrArg Account.grantTimeSum haccount
  have hmem : category ∈ controller.categories.toList :=
    Array.mem_toList_iff.mpr (Array.mem_of_getElem? hcategory)
  refine ⟨by omega, by omega, by simp [h.totalActive], fun _ ↦ ?_⟩
  rw [h.activeCategories]
  exact List.countP_pos_iff.mpr ⟨category, hmem, category.isActive_iff.mpr (by omega)⟩

/-- An operation that settles a lease for its category and the totals settles it for the books. -/
theorem settleWith {lease : Lease} {manner : Manner}
    {change : Category R → Totals R → Category R × Totals R}
    (h : controller.Balanced (lease :: held) settled)
    (haccount : ∀ category : Category R, 0 < category.active →
      category.account = .ofLeases lease.category (lease :: held) settled →
        (change category controller.totals).1.account =
          .ofLeases lease.category held (⟨lease, manner⟩ :: settled))
    (hoff : ∀ category : Category R, 0 < category.active →
      Category.TakesLeaseOff (category, controller.totals) (change category controller.totals)) :
    (controller.updateCategory lease.category change).Balanced held
      (⟨lease, manner⟩ :: settled) := by
  obtain ⟨category, hcategory⟩ := h.exists_category
  have hfree := h.deactivatable hcategory
  have hcount := hoff category hfree.active_pos
  have hbefore := h.account _ category hcategory
  have hnext := haccount category hfree.active_pos hbefore
  -- The category holds one lease less, so it stays active unless the lease was its last.
  have hleft : (change category controller.totals).1.active + 1 = category.active := by
    rw [Account.ofLeases_cons] at hbefore
    have hmore : category.active = _ + 1 := congrArg Account.active hbefore
    have hless : (change category controller.totals).1.active = _ := congrArg Account.active hnext
    rw [hmore, hless]
    rfl
  rw [Controller.updateCategory, hcategory]
  refine h.replace hcategory rfl rfl
    (fun other hmem ↦ h.held_lt other (List.mem_cons_of_mem _ hmem)) ?_ hnext ?_ ?_ ?_
  · intro settlement hmem
    rcases List.mem_cons.mp hmem with rfl | hmem
    · exact h.held_lt lease List.mem_cons_self
    · exact h.settled_lt settlement hmem
  · intro other hne
    rw [Account.ofLeases_settled_of_ne ⟨lease, manner⟩ (Ne.symm hne),
      Account.ofLeases_cons_of_ne (Ne.symm hne)]
  · rw [hcount.totalActive, h.totalActive]
    simp
  · have hpos := hfree.activeCategories_pos
    rw [hcount.activeCategories]
    simp only [Category.isActive, decide_eq_true_eq]
    split <;> split <;> split <;> omega

/-- A new category is without leases, so it changes nothing in the books. -/
theorem push (h : controller.Balanced held settled) {category : Category R}
    (haccount : category.account = .zero)
    (hcategories : changed.categories = controller.categories.push category)
    (htotals : changed.totals = controller.totals) : changed.Balanced held settled where
  held_lt lease hmem := by
    have hlt := h.held_lt lease hmem
    rw [hcategories, Array.size_push]
    omega
  settled_lt settlement hmem := by
    have hlt := h.settled_lt settlement hmem
    rw [hcategories, Array.size_push]
    omega
  account position found hfound := by
    rw [hcategories, Array.getElem?_push] at hfound
    split at hfound
    · next hnew =>
      cases hfound
      rw [haccount, Account.ofLeases_eq_zero]
      · intro lease hmem
        exact hnew ▸ Nat.ne_of_lt (h.held_lt lease hmem)
      · intro settlement hmem
        exact hnew ▸ Nat.ne_of_lt (h.settled_lt settlement hmem)
    · exact h.account position found hfound
  totalActive := by rw [htotals, h.totalActive]
  activeCategories := by
    have hidle : category.isActive = false := by
      have hzero : category.active = 0 := congrArg Account.active haccount
      simp [Category.isActive, hzero]
    rw [htotals, h.activeCategories, hcategories]
    simp [hidle]

/-- A refusal changes nothing in the books. -/
theorem refuse (h : controller.Balanced held settled) {position : Nat} {category : Category R}
    (hcategory : controller.categories[position]? = some category) {decision : Decision R}
    (hkeep : KeepsCounts (category, controller.totals) (decision.category, decision.totals)) :
    (controller.refuse decision position).Balanced held settled := by
  have haccount : decision.category.reject.account = .ofLeases position held settled := by
    rw [Category.account_reject, hkeep.account, h.account position category hcategory]
  have hidle : decision.category.reject.isActive = category.isActive :=
    Category.isActive_congr (congrArg Account.active hkeep.account)
  refine h.replace hcategory rfl rfl h.held_lt h.settled_lt haccount (fun _ _ ↦ rfl)
    (hkeep.totalActive.trans h.totalActive) ?_
  rw [hidle]
  exact congrArg (· + _) hkeep.activeCategories

/-! ### All categories together -/

/-- When things are sorted by positions below a bound, the numbers of things at each position add up
to the number of things. -/
theorem sum_countP_eq_length {α : Type} {things : List α} {place : α → Nat} {bound : Nat}
    (h : ∀ thing ∈ things, place thing < bound) :
    ((List.range bound).map fun position ↦
      things.countP fun thing ↦ place thing = position).sum = things.length := by
  have hcount : ∀ position, (things.countP fun thing ↦ place thing = position) =
      Multiset.count position (things.map place : Multiset Nat) := by
    intro position
    rw [Multiset.coe_count, List.count, List.countP_map]
    rfl
  have hsum := Multiset.sum_count_eq_card (s := Finset.range bound)
    (m := (things.map place : Multiset Nat)) (by simpa using h)
  simp only [hcount]
  rw [Multiset.coe_card, List.length_map] at hsum
  exact hsum

/-- A number that each category's account gives adds up over the categories to the sum over their
positions. -/
theorem sum_accounts (h : controller.Balanced held settled) (number : Account → Nat) :
    (controller.categories.toList.map fun category ↦ number category.account).sum =
      ((List.range controller.categories.size).map fun position ↦
        number (.ofLeases position held settled)).sum := by
  congr 1
  refine List.ext_getElem (by simp) fun position hposition _ ↦ ?_
  have hlt : position < controller.categories.size := by simpa using hposition
  have haccount := h.account position _ (Array.getElem?_eq_getElem hlt)
  simp [haccount]

/-- The categories hold the leases held, all together. -/
theorem sum_active (h : controller.Balanced held settled) :
    (controller.categories.toList.map (·.active)).sum = held.length :=
  (h.sum_accounts Account.active).trans (sum_countP_eq_length h.held_lt)

/-- The categories have granted the leases held and those settled, all together. -/
theorem sum_admitted (h : controller.Balanced held settled) :
    (controller.categories.toList.map (·.admitted)).sum = held.length + settled.length := by
  have hsplit := h.sum_accounts Account.admitted
  simp only [Account.admitted_ofLeases, List.sum_map_add] at hsplit
  rw [sum_countP_eq_length h.held_lt, sum_countP_eq_length h.settled_lt] at hsplit
  exact hsplit

/-! ### The operations of a controller -/

variable [Scalar R]

/-- Settling a released lease balances the books without it. -/
theorem settle {lease : Lease} (h : controller.Balanced (lease :: held) settled)
    (settings : ControllerSettings) (now : Nat) :
    (controller.settle settings now lease).Balanced held (⟨lease, .finished⟩ :: settled) := by
  unfold Controller.settle
  refine settleWith (h.congr rfl rfl) (fun category hpos haccount ↦ ?_) fun category hpos ↦ ?_
  · rw [Category.account_finish hpos, haccount, Account.ofLeases_finish]
  · exact Category.takesLeaseOff_finish hpos ..

/-- Settling a lost lease balances the books without it. -/
theorem abandonOne {reclaimed : Ledger.Reclaimed}
    (h : controller.Balanced (reclaimed.lease :: held) settled) (settings : ControllerSettings)
    (now : Nat) :
    (Controller.abandonOne settings now controller reclaimed).Balanced held
      (⟨reclaimed.lease, .lost⟩ :: settled) := by
  unfold Controller.abandonOne
  refine h.settleWith (fun category hpos haccount ↦ ?_) fun category hpos ↦ ?_
  · rw [Category.account_abandon hpos, haccount, Account.ofLeases_abandon]
  · exact Category.takesLeaseOff_abandon hpos ..

theorem getCategory (h : controller.Balanced held settled) (source : Source) (now : Nat)
    (name : String) : (controller.getCategory source now name).1.Balanced held settled := by
  have hrefreshed : (controller.refreshSettings source now).Balanced held settled :=
    h.congr (categories_refreshSettings ..) (totals_refreshSettings ..)
  unfold Controller.getCategory
  split
  · exact h
  · unfold Controller.createCategory
    split
    · exact h
    · exact hrefreshed.push (Category.account_fresh ..) rfl rfl

/-- A grant adds its lease to those held. -/
theorem enterLease (h : controller.Balanced held settled) {position : Nat} {category : Category R}
    (hcategory : controller.categories[position]? = some category) {decision : Decision R}
    (hkeep : KeepsCounts (category, controller.totals) (decision.category, decision.totals))
    (now : Nat) :
    (controller.enterLease decision now position).1.Balanced
      ((controller.enterLease decision now position).2 :: held) settled := by
  have hactive : decision.category.active = category.active := congrArg Account.active hkeep.account
  have hheld : ∀ lease ∈ (controller.enterLease decision now position).2 :: held,
      lease.category < controller.categories.size := by
    intro lease hmem
    rcases List.mem_cons.mp hmem with rfl | hmem
    · exact (Array.getElem?_eq_some_iff.mp hcategory).1
    · exact h.held_lt lease hmem
  have haccount : (decision.category.grant decision.totals now).1.account =
      .ofLeases position ((controller.enterLease decision now position).2 :: held) settled := by
    rw [Category.account_grant, hkeep.account, h.account position category hcategory]
    exact (Account.ofLeases_cons (controller.enterLease decision now position).2 held settled).symm
  have htotal : (decision.category.grant decision.totals now).2.totalActive = held.length + 1 := by
    rw [Category.totalActive_grant, ← h.totalActive]
    exact congrArg (· + 1) hkeep.totalActive
  have hcount : (decision.category.grant decision.totals now).2.activeCategories +
      (if category.isActive then 1 else 0) = controller.totals.activeCategories +
        if (decision.category.grant decision.totals now).1.isActive then 1 else 0 := by
    have hnext : (decision.category.grant decision.totals now).1.isActive = true := by
      simp [Category.isActive, Category.grant]
    have htotals : decision.totals.activeCategories = controller.totals.activeCategories :=
      hkeep.activeCategories
    rw [Category.activeCategories_grant, Category.isActive_congr hactive, hnext, htotals]
    cases category.isActive <;> simp
  exact h.replace hcategory rfl rfl hheld h.settled_lt haccount
    (fun other hne ↦ Account.ofLeases_cons_of_ne (Ne.symm hne) held settled) htotal hcount

end Controller.Balanced

end Admission
