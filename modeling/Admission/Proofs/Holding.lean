import Admission.Proofs.Accounting

/-!
# Leases that only their holders can end

A supervised lease is never stale, so a sweep leaves it alone as long as its holder has not dropped
it. `Ledger.Holds` says that a lease is in this state, and `Ledger.Holds.run` that it stays so
whatever is asked of the controller in the meantime, if nobody gives back that very lease. A party
that has no other way to a lease than its holder leaves the controller by moves of this kind
(`Controller.Sparing`).
-/

set_option autoImplicit false
set_option relaxedAutoImplicit false

namespace Admission

open Ledger (Reclaimed)

/-! ### What a sweep leaves to holders -/

namespace Ledger

/-- A lease is held: it stands on the list, it is active, and its holder is known to settle it. -/
structure Holds (ledger : Ledger) (lease : Lease) : Prop where
  mem_outstanding : lease ∈ ledger.outstanding
  token : ∃ token, ledger.tokens[lease.number]? = some token ∧ token.phase = .active ∧
    token.supervised = true

namespace Holds

variable {ledger : Ledger} {lease : Lease}

theorem active (h : ledger.Holds lease) : ledger.phase? lease.number = some .active := by
  obtain ⟨token, htoken, hphase, -⟩ := h.token
  rw [phase?, htoken, Option.map_some, hphase]

/-- A change of the shared part of another lease. -/
theorem modifyToken_of_ne (h : ledger.Holds lease) {number : Nat} (hne : number ≠ lease.number)
    (change : Token → Token) : (ledger.modifyToken number change).Holds lease := by
  refine ⟨h.mem_outstanding, ?_⟩
  rw [modifyToken, Array.getElem?_modify, if_neg hne]
  exact h.token

/-- A change that neither moves a lease to another phase nor ends its supervision. -/
theorem modifyToken (h : ledger.Holds lease) (number : Nat) {change : Token → Token}
    (hphase : ∀ token, (change token).phase = token.phase)
    (hsupervised : ∀ token, token.supervised = true → (change token).supervised = true) :
    (ledger.modifyToken number change).Holds lease := by
  by_cases hnumber : number = lease.number
  · obtain ⟨token, htoken, hactive, hwatched⟩ := h.token
    refine ⟨h.mem_outstanding, change token, ?_, ?_, hsupervised token hwatched⟩
    · rw [Ledger.modifyToken, Array.getElem?_modify, if_pos hnumber, htoken, Option.map_some]
    · rw [hphase, hactive]
  · exact h.modifyToken_of_ne hnumber change

theorem grant (h : ledger.Holds lease) (category now : Nat) :
    (ledger.grant category now).1.Holds lease := by
  have hlt := ledger.lt_of_phase? h.active
  refine ⟨List.mem_cons_of_mem _ h.mem_outstanding, ?_⟩
  rw [Ledger.grant, Array.getElem?_push, if_neg (Nat.ne_of_lt hlt)]
  exact h.token

theorem remove_of_ne (h : ledger.Holds lease) {number : Nat} (hne : number ≠ lease.number) :
    (ledger.remove number).Holds lease :=
  ⟨ledger.mem_remove.mpr ⟨h.mem_outstanding, hne.symm⟩, h.token⟩

theorem reclaim_of_ne (h : ledger.Holds lease) {number : Nat} (hne : number ≠ lease.number)
    (loss : Loss) : (ledger.reclaim number loss).1.Holds lease := by
  refine ⟨ledger.mem_outstanding_reclaim.mpr ⟨h.mem_outstanding, hne.symm⟩, ?_⟩
  rw [tokens_reclaim]
  exact h.token

/-- A sweep finds other leases than this in its queue. -/
theorem receiveAll {numbers : List Nat} (h : ledger.Holds lease) (hqueue : lease.number ∉ numbers) :
    (ledger.receiveAll numbers).1.Holds lease := by
  induction numbers generalizing ledger with
  | nil => exact h
  | cons number rest ih =>
    rw [List.mem_cons, not_or] at hqueue
    have hqueued : { ledger with dropped := rest }.Holds lease := ⟨h.mem_outstanding, h.token⟩
    exact ih (hqueued.reclaim_of_ne (Ne.symm hqueue.1) .dropped) hqueue.2

theorem not_mem_staleNumbers (h : ledger.Holds lease) (now bound : Nat) :
    lease.number ∉ ledger.staleNumbers now bound := by
  obtain ⟨token, htoken, -, hsupervised⟩ := h.token
  intro hmem
  obtain ⟨other, hother, hnumber⟩ := List.mem_map.mp hmem
  have hstale := (List.mem_filter.mp hother).2
  rw [isStale, hnumber, htoken] at hstale
  simp [hsupervised] at hstale

theorem claimStale_of_ne (h : ledger.Holds lease) {number : Nat} (hne : number ≠ lease.number) :
    (ledger.claimStale number).1.Holds lease := by
  have hclaim : (ledger.claim number).1.Holds lease := by
    unfold claim
    split
    · next hexchange =>
      obtain ⟨-, rfl⟩ := ledger.exchange_eq_some_iff.mp hexchange
      exact h.modifyToken_of_ne hne _
    · exact h
  exact ledger.claimStale_keeps (motive := fun changed ↦ changed.Holds lease) hclaim
    fun changed hchanged ↦ hchanged.reclaim_of_ne hne .stale

theorem claimAll {stale : List Nat} (h : ledger.Holds lease) (hstale : lease.number ∉ stale) :
    (ledger.claimAll stale).1.Holds lease := by
  induction stale generalizing ledger with
  | nil => exact h
  | cons number rest ih =>
    rw [List.mem_cons, not_or] at hstale
    exact ih (h.claimStale_of_ne (Ne.symm hstale.1)) hstale.2

/-- A sweep leaves a held lease alone. -/
theorem collect (h : ledger.Holds lease) (hqueue : lease.number ∉ ledger.dropped) (now : Nat)
    (bound : Option Nat) : (ledger.collect now bound).1.Holds lease := by
  have hreceived := h.receiveAll hqueue
  unfold Ledger.collect
  cases bound with
  | none => exact hreceived
  | some bound => exact hreceived.claimAll (hreceived.not_mem_staleNumbers now bound)

end Holds

/-- A holder that makes itself known holds its lease. -/
theorem holds_supervise {ledger : Ledger} {lease : Lease} (hlist : lease ∈ ledger.outstanding)
    (hactive : ledger.phase? lease.number = some .active) :
    (ledger.supervise lease.number).Holds lease := by
  rw [phase?, Option.map_eq_some_iff] at hactive
  obtain ⟨token, htoken, hphase⟩ := hactive
  refine ⟨hlist, { token with supervised := true }, ?_, hphase, rfl⟩
  rw [supervise, modifyToken, Array.getElem?_modify, if_pos rfl, htoken, Option.map_some]

end Ledger

/-! ### What nobody but its holder can do to a lease -/

/-- The number of the lease that an operation gives back. -/
def Operation.gives : Operation → Option Nat
  | .release number | .drop number => some number
  | _ => none

variable {R : Type} {controller changed : Controller R} {lease : Lease}

namespace Controller

namespace InOrder

/-- A lease is found under its own number. -/
theorem number_of_lease? (h : controller.InOrder) {number : Nat}
    (hlease : controller.ledger.lease? number = some lease) : lease.number = number := by
  obtain ⟨settled, hsound⟩ := h
  exact hsound.custody.number_of_lease? hlease

theorem mem_granted (h : controller.InOrder) (hlist : lease ∈ controller.ledger.outstanding) :
    lease ∈ controller.ledger.granted := by
  obtain ⟨settled, hsound⟩ := h
  exact hsound.custody.mem_granted_of_mem hlist

/-- An active lease does not wait in the queue. -/
theorem not_mem_dropped (h : controller.InOrder) {number : Nat}
    (hactive : controller.ledger.phase? number = some .active) :
    number ∉ controller.ledger.dropped := by
  obtain ⟨settled, hsound⟩ := h
  intro hmem
  have habandoned := hsound.custody.dropped_phase number (List.mem_append_right _ hmem)
  rw [show controller.ledger.phase? number = some .abandoned from habandoned] at hactive
  cases hactive

end InOrder

variable [Scalar R]

/-- Some moves lead from one controller to the other, none of which gives back the lease of a
number. -/
def Sparing (number : Nat) (controller changed : Controller R) : Prop :=
  ∃ moves, (∀ move ∈ moves, move.operation.gives ≠ some number) ∧ controller.run moves = changed

end Controller

namespace Ledger.Holds

variable [Scalar R] (h : controller.ledger.Holds lease)

include h

theorem sweep (hqueue : lease.number ∉ controller.ledger.dropped) (settings : ControllerSettings)
    (now : Nat) : (controller.sweep settings now).controller.ledger.Holds lease := by
  rw [Controller.ledger_sweep]
  exact h.collect hqueue now _

theorem answerAt (source : Source) (settings : ControllerSettings) (now position : Nat) :
    (controller.answerAt source settings now position).controller.ledger.Holds lease := by
  unfold Controller.answerAt
  split
  · exact h
  · dsimp only
    split
    · exact h.grant position now
    · exact h

theorem requestAt (hqueue : lease.number ∉ controller.ledger.dropped) (source : Source)
    (now position : Nat) :
    (controller.requestAt source now position).controller.ledger.Holds lease := by
  have hcounted : ((controller.refreshSettings source now).countSubmission now position).ledger =
      controller.ledger := by
    rw [Controller.countSubmission, Controller.ledger_updateCategory,
      Controller.ledger_refreshSettings]
  rw [← hcounted] at h hqueue
  unfold Controller.requestAt
  refine answerAt ?_ source _ now position
  unfold Controller.sweepIfDue
  split
  · exact h.sweep hqueue _ now
  · exact h

theorem release_of_ne {other : Lease} (hne : other.number ≠ lease.number) (source : Source)
    (now : Nat) : (controller.release source now other).controller.ledger.Holds lease := by
  unfold Controller.release
  split
  · next hexchange =>
    obtain ⟨-, rfl⟩ := Ledger.exchange_eq_some_iff _ |>.mp hexchange
    dsimp only [Controller.finish]
    rw [Controller.ledger_settle, Controller.ledger_refreshSettings]
    exact (h.modifyToken_of_ne hne _).remove_of_ne hne
  · split
    · next hexchange =>
      obtain ⟨-, rfl⟩ := Ledger.exchange_eq_some_iff _ |>.mp hexchange
      exact h.modifyToken_of_ne hne _
    · exact h

omit [Scalar R] in
theorem drop_of_ne {other : Lease} (hne : other.number ≠ lease.number) :
    (controller.drop other).controller.ledger.Holds lease := by
  unfold Controller.drop
  split
  · next hexchange =>
    obtain ⟨-, rfl⟩ := Ledger.exchange_eq_some_iff _ |>.mp hexchange
    exact ⟨h.mem_outstanding, (h.modifyToken_of_ne hne _).token⟩
  · exact h

omit [Scalar R] in
theorem onLease {number : Nat} {action : Lease → Controller R}
    (haction : ∀ other, controller.ledger.lease? number = some other →
      (action other).ledger.Holds lease) :
    (controller.onLease number action).ledger.Holds lease := by
  unfold Controller.onLease
  split
  · exact h
  · next other hother => exact haction other hother

/-- No move ends a lease but those that give it back. -/
theorem perform (horder : controller.InOrder) (move : Move)
    (hgives : move.operation.gives ≠ some lease.number) :
    (controller.perform move).ledger.Holds lease := by
  have hqueue := horder.not_mem_dropped h.active
  rcases move with ⟨operation, source, now⟩
  cases operation with
  | lookUp name =>
    change (controller.getCategory source now name).1.ledger.Holds lease
    rw [Controller.ledger_getCategory]
    exact h
  | requestAt position => exact h.requestAt hqueue source now position
  | request name =>
    have hlookedUp := controller.ledger_getCategory source now name
    rw [← hlookedUp] at h hqueue
    exact h.requestAt hqueue source now _
  | release number =>
    refine h.onLease fun other hother ↦ h.release_of_ne ?_ source now
    intro hnumber
    rw [← horder.number_of_lease? hother, hnumber] at hgives
    exact hgives rfl
  | drop number =>
    refine h.onLease fun other hother ↦ h.drop_of_ne ?_
    intro hnumber
    rw [← horder.number_of_lease? hother, hnumber] at hgives
    exact hgives rfl
  | forget number => exact h
  | heartbeat number =>
    exact h.onLease fun other _ ↦ h.modifyToken other.number (fun _ ↦ rfl) fun _ hwatched ↦ hwatched
  | supervise number =>
    exact h.onLease fun other _ ↦ h.modifyToken other.number (fun _ ↦ rfl) fun _ _ ↦ rfl
  | reconcile =>
    have hrefreshed := controller.ledger_refreshSettings source now
    rw [← hrefreshed] at h hqueue
    exact h.sweep hqueue _ now
  | refresh =>
    change (controller.refreshSettings source now).ledger.Holds lease
    rw [Controller.ledger_refreshSettings]
    exact h
  | readSettings => exact h

theorem run (horder : controller.InOrder) {moves : List Move}
    (hgives : ∀ move ∈ moves, move.operation.gives ≠ some lease.number) :
    (controller.run moves).ledger.Holds lease := by
  induction moves generalizing controller with
  | nil => exact h
  | cons move rest ih =>
    refine ih (h.perform horder move (hgives move List.mem_cons_self)) ?_ fun other hmem ↦
      hgives other (List.mem_cons_of_mem _ hmem)
    exact horder.leadsTo (.perform controller move)

end Ledger.Holds

namespace Controller

/-- A lease is held at a controller in order. -/
structure Held (controller : Controller R) (lease : Lease) : Prop where
  order : controller.InOrder
  holds : controller.ledger.Holds lease

/-- A party without access to a lease leaves it to its holder. -/
theorem Held.sparing [Scalar R] (h : controller.Held lease)
    (hspare : Sparing lease.number controller changed) : changed.Held lease := by
  obtain ⟨moves, hgives, rfl⟩ := hspare
  exact ⟨h.order.leadsTo (.run controller moves), h.holds.run h.order hgives⟩

end Controller

end Admission
