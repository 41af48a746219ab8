import Admission.Controller.Admit

/-!
# The whole numbers of a category

A category keeps whole numbers beside its weights: how many leases it holds, when they were granted,
and how many were granted, finished and lost. `Category.account` is this side of a category. Most
operations leave it alone, which `KeepsCounts` says of a category and the totals together: counting
a submission, weighing, deciding and refusing are of this kind. A grant and the two ways to settle a
lease change the account as `Account.grant`, `Account.finish` and `Account.abandon` say.

Taking a lease off the counts is guarded against counts that are too small. `Deactivatable` says
that no guard takes effect, and the statements about settling assume it.
-/

set_option autoImplicit false
set_option relaxedAutoImplicit false

namespace Admission

/-- How many leases a category holds, when they were granted, and what became of the others. -/
@[ext] structure Account where
  active : Nat
  grantTimeSum : Nat
  admitted : Nat
  finished : Nat
  abandoned : Nat
deriving DecidableEq

namespace Account

/-- The account of a category without leases. -/
def zero : Account := ⟨0, 0, 0, 0, 0⟩

/-- The account after a grant. -/
def grant (account : Account) (now : Nat) : Account :=
  { account with
    active := account.active + 1
    grantTimeSum := account.grantTimeSum + now
    admitted := account.admitted + 1 }

/-- The account after a lease was taken off. -/
def leave (account : Account) (grantedAt : Nat) : Account :=
  { account with
    active := account.active - 1
    grantTimeSum := account.grantTimeSum - grantedAt }

/-- The account after a release. -/
def finish (account : Account) (grantedAt : Nat) : Account :=
  { account.leave grantedAt with finished := account.finished + 1 }

/-- The account after a loss. -/
def abandon (account : Account) (grantedAt : Nat) : Account :=
  { account.leave grantedAt with abandoned := account.abandoned + 1 }

end Account

variable {R : Type}

/-- The whole numbers of a category. -/
def Category.account (category : Category R) : Account where
  active := category.active
  grantTimeSum := category.grantTimeSum
  admitted := category.admitted
  finished := category.durations.count
  abandoned := category.abandoned

/-- A change of a category and the totals that leaves the counts of leases alone. -/
structure KeepsCounts (before after : Category R × Totals R) : Prop where
  account : after.1.account = before.1.account
  activeCategories : after.2.activeCategories = before.2.activeCategories
  totalActive : after.2.totalActive = before.2.totalActive

namespace KeepsCounts

theorem refl (state : Category R × Totals R) : KeepsCounts state state := ⟨rfl, rfl, rfl⟩

theorem trans {first second third : Category R × Totals R} (h : KeepsCounts first second)
    (h' : KeepsCounts second third) : KeepsCounts first third where
  account := h'.account.trans h.account
  activeCategories := h'.activeCategories.trans h.activeCategories
  totalActive := h'.totalActive.trans h.totalActive

end KeepsCounts

namespace Category

theorem isActive_iff (category : Category R) : category.isActive = true ↔ 0 < category.active := by
  simp [isActive]

theorem isActive_congr {category other : Category R} (h : category.active = other.active) :
    category.isActive = other.isActive := by
  simp [isActive, h]

@[simp] theorem account_reject (category : Category R) :
    category.reject.account = category.account :=
  rfl

theorem account_samplePeak (category : Category R) (now interval : Nat) :
    (category.samplePeak now interval).1.account = category.account := by
  unfold samplePeak
  split <;> rfl

variable [Scalar R]

@[simp] theorem account_fresh (name : String) (weight now : Nat) :
    (fresh name weight now : Category R).account = .zero :=
  rfl

/-! ### Operations that leave the counts alone -/

theorem keepsCounts_recordSubmission (category : Category R) (totals : Totals R) (now width : Nat) :
    KeepsCounts (category, totals) (category.recordSubmission totals now width) := by
  constructor
  · rfl
  all_goals
    simp only [recordSubmission]
    split <;> rfl

theorem keepsCounts_recomputeWeight (category : Category R) (totals : Totals R) (now : Nat)
    (settings : ControllerSettings) :
    KeepsCounts (category, totals) (category.recomputeWeight totals now settings) := by
  constructor
  · rfl
  all_goals
    simp only [recomputeWeight]
    split <;> rfl

theorem keepsCounts_refreshWeight (category : Category R) (totals : Totals R) (now weight : Nat)
    (timings : Timings) (settings : ControllerSettings) :
    KeepsCounts (category, totals)
      (category.refreshWeight totals now weight timings settings) := by
  unfold refreshWeight
  split
  · exact (⟨rfl, rfl, rfl⟩ : KeepsCounts (category, totals)
      (category.setBaseWeight weight now, totals)).trans (keepsCounts_recomputeWeight ..)
  · exact keepsCounts_recomputeWeight ..

/-- A decision changes weights, the peak, the limit and the overload, but no count. -/
theorem keepsCounts_decide (category : Category R) (totals : Totals R) (now weight : Nat)
    (timings : Timings) (settings : ControllerSettings) :
    KeepsCounts (category, totals)
      ((category.decide totals now weight timings settings).category,
        (category.decide totals now weight timings settings).totals) := by
  have hweight := keepsCounts_refreshWeight category totals now weight timings settings
  refine ⟨?_, hweight.activeCategories, hweight.totalActive⟩
  exact (account_samplePeak _ _ _).trans hweight.account

/-! ### Granting -/

@[simp] theorem account_grant (category : Category R) (totals : Totals R) (now : Nat) :
    (category.grant totals now).1.account = category.account.grant now :=
  rfl

@[simp] theorem totalActive_grant (category : Category R) (totals : Totals R) (now : Nat) :
    (category.grant totals now).2.totalActive = totals.totalActive + 1 := by
  simp only [grant]
  split <;> rfl

/-- A further lease changes nothing in the totals but the number of leases. -/
theorem totals_grant_of_active (category : Category R) (h : 0 < category.active)
    (totals : Totals R) (now : Nat) :
    (category.grant totals now).2 = { totals with totalActive := totals.totalActive + 1 } := by
  simp only [grant, if_neg (Nat.ne_of_gt h)]

theorem activeCategories_grant (category : Category R) (totals : Totals R) (now : Nat) :
    (category.grant totals now).2.activeCategories =
      if category.isActive then totals.activeCategories else totals.activeCategories + 1 := by
  rcases Nat.eq_zero_or_pos category.active with hzero | hpos
  · simp [grant, Totals.enter, isActive, hzero]
  · simp [grant, isActive, hpos, Nat.ne_of_gt hpos]

/-! ### Settling -/

/-- No guard of `deactivateOne` takes effect: there is a lease to take off, and no subtraction stops
at zero. -/
structure Deactivatable (category : Category R) (totals : Totals R) (grantedAt : Nat) : Prop where
  active_pos : 0 < category.active
  grantedAt_le : grantedAt ≤ category.grantTimeSum
  totalActive_pos : 0 < totals.totalActive
  activeCategories_pos : category.active = 1 → 0 < totals.activeCategories

theorem activeCategories_leave (totals : Totals R) (weight popularity : R) :
    (totals.leave weight popularity).activeCategories = totals.activeCategories - 1 := by
  unfold Totals.leave
  split
  · next h => exact h.symm
  · rfl

theorem totalActive_leave (totals : Totals R) (weight popularity : R) :
    (totals.leave weight popularity).totalActive = totals.totalActive := by
  unfold Totals.leave
  split <;> rfl

theorem account_deactivateOne {category : Category R} (h : 0 < category.active)
    (totals : Totals R) (grantedAt : Nat) :
    (category.deactivateOne totals grantedAt).1.account = category.account.leave grantedAt := by
  rw [deactivateOne, if_neg (Nat.ne_of_gt h)]
  rfl

theorem totalActive_deactivateOne {category : Category R} (h : 0 < category.active)
    (totals : Totals R) (grantedAt : Nat) :
    (category.deactivateOne totals grantedAt).2.totalActive = totals.totalActive - 1 := by
  rw [deactivateOne, if_neg (Nat.ne_of_gt h)]
  simp only
  split
  · rw [totalActive_leave]
  · rfl

theorem activeCategories_deactivateOne {category : Category R} (h : 0 < category.active)
    (totals : Totals R) (grantedAt : Nat) :
    (category.deactivateOne totals grantedAt).2.activeCategories =
      if category.active = 1 then totals.activeCategories - 1 else totals.activeCategories := by
  rw [deactivateOne, if_neg (Nat.ne_of_gt h)]
  by_cases hone : category.active = 1
  · simp [hone, activeCategories_leave]
  · have hleft : category.active - 1 ≠ 0 := by omega
    simp [hone, hleft]

/-- What the two ways to settle a lease have in common: one lease less is counted in the totals, and
one active category less if it was the last. -/
structure TakesLeaseOff (before after : Category R × Totals R) : Prop where
  totalActive : after.2.totalActive = before.2.totalActive - 1
  activeCategories : after.2.activeCategories =
    if before.1.active = 1 then before.2.activeCategories - 1 else before.2.activeCategories

theorem takesLeaseOff_deactivateOne (category : Category R) (h : 0 < category.active)
    (totals : Totals R) (grantedAt now : Nat) (settings : ControllerSettings) :
    TakesLeaseOff (category, totals)
      ((category.deactivateOne totals grantedAt).1.recomputeWeight
        (category.deactivateOne totals grantedAt).2 now settings) := by
  have hkeep := keepsCounts_recomputeWeight (category.deactivateOne totals grantedAt).1
    (category.deactivateOne totals grantedAt).2 now settings
  constructor
  · rw [hkeep.totalActive, totalActive_deactivateOne h]
  · rw [hkeep.activeCategories, activeCategories_deactivateOne h]

theorem account_finish {category : Category R} (h : 0 < category.active) (totals : Totals R)
    (grantedAt now : Nat) (settings : ControllerSettings) :
    (category.finish totals grantedAt now settings).1.account =
      category.account.finish grantedAt := by
  have hkeep := keepsCounts_recomputeWeight
    (deactivateOne { category with durations := category.durations.push (now - grantedAt) }
      totals grantedAt).1
    (deactivateOne { category with durations := category.durations.push (now - grantedAt) }
      totals grantedAt).2 now settings
  refine hkeep.account.trans ?_
  rw [account_deactivateOne (by exact h)]
  rfl

theorem takesLeaseOff_finish {category : Category R} (h : 0 < category.active) (totals : Totals R)
    (grantedAt now : Nat) (settings : ControllerSettings) :
    TakesLeaseOff (category, totals) (category.finish totals grantedAt now settings) :=
  have hoff := takesLeaseOff_deactivateOne
    { category with durations := category.durations.push (now - grantedAt) } h totals grantedAt now
    settings
  ⟨hoff.totalActive, hoff.activeCategories⟩

theorem account_abandon {category : Category R} (h : 0 < category.active) (totals : Totals R)
    (grantedAt now : Nat) (settings : ControllerSettings) :
    (category.abandon totals grantedAt now settings).1.account =
      category.account.abandon grantedAt := by
  have hkeep := keepsCounts_recomputeWeight
    (deactivateOne { category with abandoned := category.abandoned + 1 } totals grantedAt).1
    (deactivateOne { category with abandoned := category.abandoned + 1 } totals grantedAt).2
    now settings
  refine hkeep.account.trans ?_
  rw [account_deactivateOne (by exact h)]
  rfl

theorem takesLeaseOff_abandon {category : Category R} (h : 0 < category.active) (totals : Totals R)
    (grantedAt now : Nat) (settings : ControllerSettings) :
    TakesLeaseOff (category, totals) (category.abandon totals grantedAt now settings) :=
  have hoff := takesLeaseOff_deactivateOne
    { category with abandoned := category.abandoned + 1 } h totals grantedAt now settings
  ⟨hoff.totalActive, hoff.activeCategories⟩

end Category

end Admission
