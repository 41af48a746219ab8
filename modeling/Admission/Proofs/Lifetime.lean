import Admission.Proofs.Holding
import Admission.Proofs.Settlement

/-!
# What a lease changes from its grant to its end

A grant, a release, a drop and a sweep each change the accounts of the categories, the list of
leases and the totals in one way only. `Granted`, `Released`, `Dropped` and `Reclaims` say which,
and the statements below that a controller in order changes in just this way. So what a release
takes off is what the grant added: `Restored` compares a controller on which a lease was granted and
released with the one that never granted it.
-/

set_option autoImplicit false
set_option relaxedAutoImplicit false

namespace Admission

open Ledger (Reclaimed)

variable {R : Type}

/-! ### Accounts -/

namespace Controller

/-- The accounts of the categories, in the order of their creation. -/
def accounts (controller : Controller R) : List Account :=
  controller.categories.toList.map (·.account)

variable {controller changed plain after : Controller R} {lease : Lease}

theorem length_accounts (controller : Controller R) :
    controller.accounts.length = controller.categories.size := by
  simp [accounts]

theorem accounts_congr (h : changed.categories = controller.categories) :
    changed.accounts = controller.accounts := by
  rw [accounts, h, accounts]

/-- A category that is replaced changes its own account only. -/
theorem accounts_replace {position : Nat} {category next : Category R} {change : Account → Account}
    (hcategory : controller.categories[position]? = some category)
    (hcategories : changed.categories = controller.categories.setIfInBounds position next)
    (haccount : next.account = change category.account) :
    changed.accounts = controller.accounts.modify position change := by
  refine List.ext_getElem? fun other ↦ ?_
  rw [accounts, accounts, hcategories, List.getElem?_modify, List.getElem?_map, List.getElem?_map,
    Array.getElem?_toList, Array.getElem?_toList, Array.getElem?_setIfInBounds]
  by_cases hother : position = other
  · subst hother
    have hlt := (Array.getElem?_eq_some_iff.mp hcategory).1
    rw [if_pos rfl, if_pos hlt, hcategory]
    simp [haccount]
  · simp [hother]

/-- The number of active categories can be told from the accounts. -/
theorem InOrder.activeCategories (h : controller.InOrder) :
    controller.totals.activeCategories = controller.accounts.countP fun account ↦
      0 < account.active := by
  rw [h.accounted.activeCategories, accounts, List.countP_map]
  rfl

/-! ### Requests -/

/-- A request was refused: no lease is new, and the accounts and the totals are those of before. -/
structure Refused (plain after : Controller R) : Prop where
  ledger : after.ledger = plain.ledger
  accounts : after.accounts = plain.accounts
  totalActive : after.totals.totalActive = plain.totals.totalActive
  activeCategories : after.totals.activeCategories = plain.totals.activeCategories

/-- A lease was granted to a category: it is new, active and on the list, and counted once. -/
structure Granted (plain after : Controller R) (lease : Lease) : Prop where
  category_lt : lease.category < plain.accounts.length
  new : lease ∉ plain.ledger.granted
  granted : after.ledger.granted = plain.ledger.granted ++ [lease]
  outstanding : after.ledger.outstanding = lease :: plain.ledger.outstanding
  active : after.ledger.phase? lease.number = some .active
  accounts : after.accounts = plain.accounts.modify lease.category (·.grant lease.grantedAt)
  totalActive : after.totals.totalActive = plain.totals.totalActive + 1

variable [Scalar R]

/-- The controller when it is about to answer a request: the category is looked up, the request is
counted, and lost leases are swept up if it is time. -/
def beforeAnswer (controller : Controller R) (source : Source) (now : Nat) (name : String) :
    Controller R :=
  let (controller, position) := controller.getCategory source now name
  let controller := controller.refreshSettings source now
  ((controller.countSubmission now position).sweepIfDue controller.current now).controller

/-- A request is what comes before its answer, and its answer. -/
theorem request_eq_answerAt (controller : Controller R) (source : Source) (now : Nat)
    (name : String) :
    let plain := controller.beforeAnswer source now name
    ∃ settings position,
      (controller.request source now name).controller =
        (plain.answerAt source settings now position).controller ∧
      (controller.request source now name).answer =
        (plain.answerAt source settings now position).answer := by
  rcases hlookUp : controller.getCategory source now name with ⟨found, position⟩
  refine ⟨(found.refreshSettings source now).current, position, ?_⟩
  simp only [request, requestAt, Controller.beforeAnswer, hlookUp, and_self]

theorem InOrder.beforeAnswer (h : controller.InOrder) (source : Source) (now : Nat)
    (name : String) : (controller.beforeAnswer source now name).InOrder :=
  h.leadsTo ((Activity.LeadsTo.getCategory controller source now name).trans
    ((Activity.LeadsTo.refreshSettings _ source now).trans
      ((Activity.LeadsTo.count _ now _).trans (Activity.LeadsTo.sweepIfDue _ _ now))))

/-- Up to its answer a request grants nothing. -/
theorem granted_beforeAnswer (controller : Controller R) (source : Source) (now : Nat)
    (name : String) :
    (controller.beforeAnswer source now name).ledger.granted = controller.ledger.granted := by
  have hswept : ∀ (counted : Controller R) (settings : ControllerSettings),
      (counted.sweepIfDue settings now).controller.ledger.granted = counted.ledger.granted := by
    intro counted settings
    unfold sweepIfDue
    split
    · rw [ledger_sweep, Ledger.granted_collect]
    · rfl
  unfold Controller.beforeAnswer
  dsimp only
  rw [hswept, countSubmission, ledger_updateCategory, ledger_refreshSettings, ledger_getCategory]

/-- An answer grants what was decided to be granted, and refuses all else. -/
theorem answerAt_cases (plain : Controller R) (source : Source) (settings : ControllerSettings)
    (now position : Nat) :
    (∃ category, plain.categories[position]? = some category ∧
      (plain.answerAt source settings now position).controller =
        (plain.enterLease (plain.decideFor source settings now category) now position).1 ∧
      (plain.answerAt source settings now position).answer =
        .ok (plain.enterLease (plain.decideFor source settings now category) now position).2) ∨
    ∃ name active limit,
      (plain.answerAt source settings now position).answer =
        .error (.rejected name active limit) ∧
      ((plain.answerAt source settings now position).controller = plain ∨
        ∃ category, plain.categories[position]? = some category ∧
          (plain.answerAt source settings now position).controller =
            plain.refuse (plain.decideFor source settings now category) position) := by
  unfold answerAt
  split
  · exact .inr ⟨_, _, _, rfl, .inl rfl⟩
  · next category hcategory =>
    dsimp only
    split
    · exact .inl ⟨category, hcategory, rfl, rfl⟩
    · exact .inr ⟨_, _, _, rfl, .inr ⟨category, hcategory, rfl⟩⟩

theorem InOrder.granted (h : plain.InOrder) {source : Source} {settings : ControllerSettings}
    {now position : Nat}
    (hanswer : (plain.answerAt source settings now position).answer = .ok lease) :
    plain.Granted (plain.answerAt source settings now position).controller lease := by
  rcases plain.answerAt_cases source settings now position with
    ⟨category, hcategory, hafter, hlease⟩ | ⟨name, active, limit, herror, -⟩
  · have hkeep := plain.keepsCounts_decideFor source settings now category
    rw [hlease] at hanswer
    obtain rfl := Except.ok.inj hanswer
    rw [hafter]
    constructor
    case category_lt =>
      rw [length_accounts]
      exact (Array.getElem?_eq_some_iff.mp hcategory).1
    case new =>
      obtain ⟨settled, hsound⟩ := h
      intro hmem
      exact absurd (hsound.custody.number_lt hmem) (Nat.lt_irrefl _)
    case granted => exact plain.ledger.granted_grant position now
    case outstanding => rfl
    case active => exact (plain.ledger.phase?_grant position now _).trans (if_pos rfl)
    case accounts =>
      have haccount : ((plain.decideFor source settings now category).category.grant
          (plain.decideFor source settings now category).totals now).1.account =
            category.account.grant now := by
        rw [Category.account_grant, hkeep.account]
      exact accounts_replace hcategory rfl haccount
    case totalActive =>
      have htotal := hkeep.totalActive
      rw [← htotal]
      exact Category.totalActive_grant _ _ now
  · rw [herror] at hanswer
    cases hanswer

omit [Scalar R] in
theorem accounts_unchanged {position : Nat} {category next : Category R}
    (hcategory : controller.categories[position]? = some category)
    (hcategories : changed.categories = controller.categories.setIfInBounds position next)
    (haccount : next.account = category.account) : changed.accounts = controller.accounts := by
  rw [accounts_replace hcategory hcategories (haccount.trans (id_eq category.account).symm)]
  exact List.modify_id ..

theorem refused {source : Source} {settings : ControllerSettings} {now position : Nat}
    {error : AdmissionError}
    (hanswer : (plain.answerAt source settings now position).answer = .error error) :
    plain.Refused (plain.answerAt source settings now position).controller ∧
      ∃ name active limit, error = .rejected name active limit := by
  rcases plain.answerAt_cases source settings now position with
    ⟨category, hcategory, hafter, hlease⟩ | ⟨name, active, limit, herror, hafter⟩
  · rw [hlease] at hanswer
    cases hanswer
  · rw [herror] at hanswer
    refine ⟨?_, name, active, limit, (Except.error.inj hanswer).symm⟩
    rcases hafter with hafter | ⟨category, hcategory, hafter⟩
    · rw [hafter]
      exact ⟨rfl, rfl, rfl, rfl⟩
    · have hkeep := plain.keepsCounts_decideFor source settings now category
      rw [hafter]
      refine ⟨rfl, accounts_unchanged hcategory rfl ?_, hkeep.totalActive, hkeep.activeCategories⟩
      rw [Category.account_reject, hkeep.account]

/-! ### What a holder does with its lease -/

/-- A held lease was released: it is off the list, and counted as finished. -/
structure Released (before after : Controller R) (lease : Lease) : Prop where
  held : lease ∈ before.ledger.outstanding
  active : before.ledger.phase? lease.number = some .active
  released : after.ledger.phase? lease.number = some .released
  outstanding : after.ledger.outstanding = before.ledger.outstanding.erase lease
  accounts : after.accounts = before.accounts.modify lease.category (·.finish lease.grantedAt)
  totalActive : before.totals.totalActive = after.totals.totalActive + 1

/-- A held lease was dropped: it stays on the list and is counted as before, but it is nobody's. -/
structure Dropped (before after : Controller R) (lease : Lease) : Prop where
  held : lease ∈ before.ledger.outstanding
  active : before.ledger.phase? lease.number = some .active
  abandoned : after.ledger.phase? lease.number = some .abandoned
  outstanding : after.ledger.outstanding = before.ledger.outstanding
  accounts : after.accounts = before.accounts
  totals : after.totals = before.totals

/-- Whoever releases a held lease settles it. -/
theorem InOrder.released (h : controller.InOrder) (hlist : lease ∈ controller.ledger.outstanding)
    (hactive : controller.ledger.phase? lease.number = some .active) (source : Source) (now : Nat) :
    controller.Released (controller.release source now lease).controller lease := by
  obtain ⟨settled, hbooks⟩ := h.releasing source now hlist .released
  let taken := refreshSettings
    { controller with ledger := controller.ledger.setPhase lease.number .released } source now
  have hrelease : (controller.release source now lease).controller =
      taken.settle taken.current now lease := by
    rw [release, controller.ledger.exchange_of_phase? hactive]
    rfl
  have hledger : (controller.release source now lease).controller.ledger =
      (controller.ledger.setPhase lease.number .released).remove lease.number := by
    rw [hrelease, ledger_settle, ledger_refreshSettings]
  obtain ⟨category, hcategory⟩ := hbooks.exists_category
  have hfree := hbooks.deactivatable hcategory
  have hoff := Category.takesLeaseOff_finish hfree.active_pos taken.totals lease.grantedAt now
    taken.current
  have hsettle : taken.settle taken.current now lease =
      { taken with
        ledger := taken.ledger.remove lease.number
        categories := taken.categories.setIfInBounds lease.category
          (category.finish taken.totals lease.grantedAt now taken.current).1
        totals := (category.finish taken.totals lease.grantedAt now taken.current).2 } := by
    have hfound : taken.categories[lease.category]? = some category := hcategory
    rw [settle, updateCategory, hfound]
  have htotals : taken.totals = controller.totals := totals_refreshSettings ..
  have htaken : taken.accounts = controller.accounts :=
    accounts_congr (categories_refreshSettings ..)
  constructor
  case held => exact hlist
  case active => exact hactive
  case released =>
    rw [hledger]
    exact (controller.ledger.phase?_setPhase hactive .released lease.number).trans (if_pos rfl)
  case outstanding =>
    obtain ⟨_, hsound⟩ := h
    rw [hledger]
    exact controller.ledger.outstanding_remove hsound.custody.nodup_outstanding hlist
  case accounts =>
    rw [hrelease, hsettle, ← htaken]
    exact accounts_replace hcategory rfl (Category.account_finish hfree.active_pos ..)
  case totalActive =>
    have hpos : 0 < taken.totals.totalActive := hfree.totalActive_pos
    have hone := hoff.totalActive
    rw [hrelease, hsettle, ← htotals]
    dsimp only at hone ⊢
    omega

omit [Scalar R] in
/-- Whoever drops a held lease leaves it to the next sweep. -/
theorem dropped (hlist : lease ∈ controller.ledger.outstanding)
    (hactive : controller.ledger.phase? lease.number = some .active) :
    controller.Dropped (controller.drop lease).controller lease := by
  rw [drop, controller.ledger.exchange_of_phase? hactive]
  refine ⟨hlist, hactive, ?_, rfl, rfl, rfl⟩
  exact (controller.ledger.phase?_setPhase hactive .abandoned lease.number).trans (if_pos rfl)

/-! ### A grant and its release -/

/-- A lease was granted and released: the leases and the totals are those of the controller that
never granted it, and the category of the lease has admitted and finished one lease more. -/
structure Restored (plain after : Controller R) (lease : Lease) : Prop where
  category_lt : lease.category < plain.accounts.length
  outstanding : after.ledger.outstanding = plain.ledger.outstanding
  accounts : after.accounts = plain.accounts.modify lease.category fun account ↦
    { account with admitted := account.admitted + 1, finished := account.finished + 1 }
  totalActive : after.totals.totalActive = plain.totals.totalActive
  activeCategories : after.totals.activeCategories = plain.totals.activeCategories

omit [Scalar R] in
/-- A release takes off what the grant added, if nothing else happened to the controller meanwhile.
-/
theorem Granted.restored {granted before : Controller R} (h : plain.Granted granted lease)
    (hrelease : before.Released after lease) (hplain : plain.InOrder) (hafter : after.InOrder)
    (hlist : before.ledger.outstanding = granted.ledger.outstanding)
    (haccounts : before.accounts = granted.accounts)
    (htotal : before.totals.totalActive = granted.totals.totalActive) :
    plain.Restored after lease := by
  have hmodify : after.accounts = plain.accounts.modify lease.category fun account ↦
      { account with admitted := account.admitted + 1, finished := account.finished + 1 } := by
    rw [hrelease.accounts, haccounts, h.accounts, List.modify_modify_eq]
    congr 1
    funext account
    simp [Account.grant, Account.finish, Account.leave]
  constructor
  case category_lt => exact h.category_lt
  case outstanding => rw [hrelease.outstanding, hlist, h.outstanding, List.erase_cons_head]
  case accounts => exact hmodify
  case totalActive =>
    have hfinished := hrelease.totalActive
    have hadmitted := h.totalActive
    omega
  case activeCategories =>
    have hactive : after.accounts.map (·.active) = plain.accounts.map (·.active) := by
      rw [hmodify]
      refine List.ext_getElem? fun position ↦ ?_
      rw [List.getElem?_map, List.getElem?_map, List.getElem?_modify]
      rcases plain.accounts[position]? with _ | account
      · rfl
      · by_cases hposition : lease.category = position <;> simp [hposition]
    have hcount := congrArg (List.countP fun active ↦ 0 < active) hactive
    rw [List.countP_map, List.countP_map] at hcount
    rw [hafter.activeCategories, hplain.activeCategories]
    exact hcount

end Controller

/-! ### What is released or dropped stays so -/

/-- Nobody moves a lease on from this phase: its holder has released or dropped it. -/
def Phase.IsFinal (phase : Phase) : Prop := phase ≠ .active ∧ phase ≠ .reconciled

instance (phase : Phase) : Decidable phase.IsFinal := inferInstanceAs (Decidable (_ ∧ _))

theorem Ledger.kept_exchange {ledger changed : Ledger} {number other : Nat}
    {phase before after : Phase} (h : ledger.phase? other = some phase)
    (hexchange : ledger.exchange number before after = some changed)
    (hbefore : phase ≠ before) : changed.phase? other = some phase := by
  obtain ⟨hphase, rfl⟩ := ledger.exchange_eq_some_iff.mp hexchange
  rw [ledger.phase?_setPhase hphase, if_neg, h]
  rintro rfl
  rw [h] at hphase
  exact hbefore (Option.some.inj hphase)

namespace Activity

variable [Scalar R] {activity next : Activity R} {number : Nat} {phase : Phase}
  (hfinal : phase.IsFinal)

include hfinal

theorem final_sweepOn (sweep : Sweep)
    (h : activity.controller.ledger.phase? number = some phase) :
    (activity.sweepOn sweep).controller.ledger.phase? number = some phase := by
  rcases sweep with ⟨settings, now, stage, taken⟩
  cases stage with
  | receiving =>
    dsimp only [sweepOn]
    split
    · next ledger found hreceive =>
      unfold Ledger.receive at hreceive
      split at hreceive
      · cases hreceive
      · obtain ⟨rfl, -⟩ := Prod.ext_iff.mp (Option.some.inj hreceive)
        change (Ledger.reclaim _ _ _).1.phase? number = some phase
        rw [Ledger.phase?_reclaim]
        exact h
    · split <;> exact h
  | listing bound => exact h
  | claiming stale =>
    cases stale with
    | nil => exact h
    | cons first stale =>
      have hclaim : (activity.controller.ledger.claim first).1.phase? number = some phase := by
        unfold Ledger.claim
        split
        · next hexchange => exact Ledger.kept_exchange h hexchange hfinal.1
        · exact h
      dsimp only [sweepOn]
      split
      · next heq =>
        rw [heq] at hclaim
        exact hclaim
      · next heq =>
        rw [heq] at hclaim
        exact hclaim
  | taking first stale =>
    change (Ledger.reclaim _ _ _).1.phase? number = some phase
    rw [Ledger.phase?_reclaim]
    exact h
  | settling =>
    cases taken with
    | nil => exact h
    | cons reclaimed rest =>
      change (Controller.updateCategory _ _ _).ledger.phase? number = some phase
      rw [Controller.ledger_updateCategory]
      exact h

/-- Every exchange of phases begins at a lease that is active or reconciled, and nothing else
changes a phase. -/
theorem final_step {event : Event} (hstep : activity.step event = some next)
    (h : activity.controller.ledger.phase? number = some phase) :
    next.controller.ledger.phase? number = some phase := by
  cases event with
  | lookUp source now name =>
    obtain ⟨-, rfl⟩ := locked_eq_some_iff.mp hstep
    change (Controller.getCategory _ _ _ _).1.ledger.phase? number = some phase
    rw [Controller.ledger_getCategory]
    exact h
  | refresh source now =>
    cases hstep
    change (Controller.refreshSettings _ _ _).ledger.phase? number = some phase
    rw [Controller.ledger_refreshSettings]
    exact h
  | readSettings source now =>
    cases hstep
    exact h
  | count now position =>
    obtain ⟨-, rfl⟩ := locked_eq_some_iff.mp hstep
    change (Controller.updateCategory _ _ _).ledger.phase? number = some phase
    rw [Controller.ledger_updateCategory]
    exact h
  | answer source settings now position =>
    obtain ⟨-, rfl⟩ := locked_eq_some_iff.mp hstep
    have hlt := activity.controller.ledger.lt_of_phase? h
    rcases activity.controller.answerAt_cases source settings now position with
      ⟨category, -, hafter, -⟩ | ⟨name, active, limit, -, hafter | ⟨category, -, hafter⟩⟩
    · change (Controller.answerAt _ _ _ _ _).controller.ledger.phase? number = some phase
      rw [hafter]
      exact (Ledger.phase?_grant ..).trans ((if_neg (Nat.ne_of_lt hlt)).trans h)
    · change (Controller.answerAt _ _ _ _ _).controller.ledger.phase? number = some phase
      rw [hafter]
      exact h
    · change (Controller.answerAt _ _ _ _ _).controller.ledger.phase? number = some phase
      rw [hafter]
      exact h
  | touch other now =>
    cases hstep
    exact (congrFun (Ledger.phase?_touch ..) number).trans h
  | supervise other =>
    cases hstep
    exact (congrFun (Ledger.phase?_supervise ..) number).trans h
  | takeRelease lease =>
    simp only [step] at hstep
    split at hstep
    · obtain ⟨ledger, hexchange, rfl⟩ := Option.map_eq_some_iff.mp hstep
      exact Ledger.kept_exchange h hexchange hfinal.1
    · cases hstep
  | settle settings now lease =>
    simp only [step] at hstep
    split at hstep
    · obtain ⟨-, rfl⟩ := locked_eq_some_iff.mp hstep
      change (Controller.settle _ _ _ _).ledger.phase? number = some phase
      rw [Controller.ledger_settle]
      exact h
    · cases hstep
  | takeLate other =>
    obtain ⟨ledger, hexchange, rfl⟩ := Option.map_eq_some_iff.mp hstep
    exact Ledger.kept_exchange h hexchange hfinal.2
  | takeDrop lease =>
    simp only [step] at hstep
    split at hstep
    · obtain ⟨ledger, hexchange, rfl⟩ := Option.map_eq_some_iff.mp hstep
      exact Ledger.kept_exchange h hexchange hfinal.1
    · cases hstep
  | post other =>
    simp only [step] at hstep
    split at hstep
    · cases hstep
      exact h
    · cases hstep
  | beginSweep settings now =>
    obtain ⟨-, rfl⟩ := locked_eq_some_iff.mp hstep
    exact h
  | sweepOn =>
    obtain ⟨sweep, -, rfl⟩ := Option.map_eq_some_iff.mp hstep
    exact final_sweepOn hfinal sweep h

theorem LeadsTo.final {controller changed : Controller R} (h : LeadsTo controller changed)
    (hphase : controller.ledger.phase? number = some phase) :
    changed.ledger.phase? number = some phase := by
  obtain ⟨settled, events, hrun⟩ := h []
  exact run_induction (motive := fun activity ↦
    activity.controller.ledger.phase? number = some phase)
    (fun hstep ↦ final_step hfinal hstep) hrun hphase

end Activity

/-! ### The sweep after a drop -/

namespace Ledger

theorem mem_collect {ledger : Ledger} {lease : Lease}
    (nodup : (ledger.outstanding.map (·.number)).Nodup) (hlist : lease ∈ ledger.outstanding)
    (hqueue : lease.number ∈ ledger.dropped) (now : Nat) (bound : Option Nat) :
    ⟨lease, .dropped⟩ ∈ (ledger.collect now bound).2 := by
  have hreceived := ledger.mem_receiveAll nodup hlist hqueue
  unfold collect
  cases bound with
  | none => exact hreceived
  | some bound => exact List.mem_append_left _ hreceived

end Ledger

namespace Controller

variable {controller : Controller R} {lease : Lease}

/-- A sweep took back what was lost, a dropped lease among it: each lease that it took back is off
the list and counted as lost, and counted once. -/
structure Reclaims (before after : Controller R) (lost : List Reclaimed) (lease : Lease) :
    Prop where
  taken : ⟨lease, .dropped⟩ ∈ lost
  once : (lost.map (·.lease)).Nodup
  off : ∀ reclaimed ∈ lost, reclaimed.lease ∉ after.ledger.outstanding
  accounts : after.accounts = lost.foldl (fun accounts reclaimed ↦
    accounts.modify reclaimed.lease.category (·.abandon reclaimed.lease.grantedAt)) before.accounts
  totalActive : before.totals.totalActive = after.totals.totalActive + lost.length

variable [Scalar R]

/-- Every lease that a sweep settles is taken off the account of its category and off the totals. -/
theorem Balanced.abandonAll {reclaimed : List Reclaimed} {held : List Lease}
    {settled : List Settlement}
    (h : controller.Balanced (reclaimed.map (·.lease) ++ held) settled)
    (settings : ControllerSettings) (now : Nat) :
    (controller.abandonAll settings now reclaimed).accounts =
        reclaimed.foldl (fun accounts reclaimed ↦
          accounts.modify reclaimed.lease.category (·.abandon reclaimed.lease.grantedAt))
          controller.accounts ∧
      controller.totals.totalActive =
        (controller.abandonAll settings now reclaimed).totals.totalActive + reclaimed.length := by
  induction reclaimed generalizing controller settled with
  | nil => exact ⟨rfl, rfl⟩
  | cons first rest ih =>
    rw [List.map_cons, List.cons_append] at h
    obtain ⟨category, hcategory⟩ := h.exists_category
    have hfree := h.deactivatable hcategory
    let taken := category.abandon controller.totals first.lease.grantedAt now settings
    have hone : Controller.abandonOne settings now controller first =
        { controller with
          categories := controller.categories.setIfInBounds first.lease.category taken.1
          totals := taken.2 } := by
      rw [Controller.abandonOne, Controller.updateCategory, hcategory]
    have haccounts : (Controller.abandonOne settings now controller first).accounts =
        controller.accounts.modify first.lease.category (·.abandon first.lease.grantedAt) := by
      rw [hone]
      exact accounts_replace hcategory rfl (Category.account_abandon hfree.active_pos ..)
    have hleft : (Controller.abandonOne settings now controller first).totals.totalActive =
        controller.totals.totalActive - 1 := by
      rw [hone]
      exact (Category.takesLeaseOff_abandon hfree.active_pos ..).totalActive
    have hpos := hfree.totalActive_pos
    have htotal : controller.totals.totalActive =
        (Controller.abandonOne settings now controller first).totals.totalActive + 1 := by
      omega
    obtain ⟨hrest, hcount⟩ := ih (h.abandonOne settings now)
    constructor
    · rw [List.foldl_cons, ← haccounts]
      exact hrest
    · rw [htotal, hcount]
      exact Nat.add_assoc ..

/-- A forced sweep takes back every lease that was dropped before and stands on the list. -/
theorem InOrder.reclaims (h : controller.InOrder) (hlist : lease ∈ controller.ledger.outstanding)
    (habandoned : controller.ledger.phase? lease.number = some .abandoned) (source : Source)
    (now : Nat) :
    ∃ lost, (controller.reconcile source now).answer = lost.length ∧
      controller.Reclaims (controller.reconcile source now).controller lost lease := by
  let refreshed := controller.refreshSettings source now
  have hrefreshed : refreshed.InOrder := h.leadsTo (.refreshSettings controller source now)
  have hledger : refreshed.ledger = controller.ledger := ledger_refreshSettings ..
  obtain ⟨books, hcollected⟩ := hrefreshed.collected now
  obtain ⟨haccounts, htotal⟩ := hcollected.abandonAll refreshed.current now
  obtain ⟨settled, hsound⟩ := hrefreshed
  obtain ⟨events, hrun⟩ :=
    Activity.proceeds_sweep (Activity.quiet refreshed settled) rfl refreshed.current now
  have hswept := hsound.run hrun
  refine ⟨(refreshed.sweep refreshed.current now).answer, rfl, ?_⟩
  constructor
  case taken =>
    rw [← hledger] at hlist habandoned
    have hqueue : lease.number ∈ refreshed.ledger.dropped := by
      rcases hsound.active_or_queued ⟨rfl, rfl, rfl⟩ lease hlist with hactive | ⟨-, hqueued⟩
      · rw [show refreshed.ledger.phase? lease.number = some .active from hactive] at habandoned
        cases habandoned
      · exact hqueued
    exact Ledger.mem_collect hsound.custody.nodup_outstanding hlist hqueue now _
  case once =>
    have honce := hswept.nodup_settled
    rw [List.map_append, List.map_reverse, List.map_map] at honce
    exact List.nodup_reverse.mp honce.of_append_left
  case off =>
    intro reclaimed hmem
    refine hswept.custody.not_mem_of_away (List.mem_append_left _ ?_)
    rw [List.map_append, List.map_reverse, List.map_map]
    exact List.mem_append_left _ (List.mem_reverse.mpr (List.mem_map_of_mem hmem))
  case accounts =>
    rw [← accounts_congr (categories_refreshSettings controller source now)]
    exact haccounts
  case totalActive =>
    rw [← totals_refreshSettings controller source now]
    exact htotal

end Controller

end Admission
