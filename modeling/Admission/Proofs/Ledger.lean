import Admission.Ledger
import Mathlib.Data.List.Nodup

/-!
# What the steps of a ledger change

A ledger has three parts: the tokens, which record every lease ever granted and its phase; the list
of leases that are not settled; and the queue of dropped numbers. Each step changes few of them, and
the statements below say which. `exchange_eq_some_iff` says when an exchange of phases succeeds and
what it leaves, `perm_remove` that taking a lease off the list takes off that lease alone, and
`perm_reclaim` that a lease taken back is one that stood on the list.
-/

set_option autoImplicit false
set_option relaxedAutoImplicit false

namespace Admission.Ledger

variable (ledger : Ledger)

/-! ### Phases -/

theorem lt_of_phase? {number : Nat} {phase : Phase} (h : ledger.phase? number = some phase) :
    number < ledger.tokens.size := by
  rw [phase?, Option.map_eq_some_iff] at h
  obtain ⟨token, htoken, -⟩ := h
  exact (Array.getElem?_eq_some_iff.mp htoken).1

theorem length_granted : ledger.granted.length = ledger.tokens.size := by
  simp [granted]

theorem mem_granted_of_lease? {number : Nat} {lease : Lease}
    (h : ledger.lease? number = some lease) : lease ∈ ledger.granted := by
  rw [lease?, Option.map_eq_some_iff] at h
  obtain ⟨token, htoken, rfl⟩ := h
  exact List.mem_map_of_mem (Array.mem_toList_iff.mpr (Array.mem_of_getElem? htoken))

/-- Changes of a token that keep its lease keep the record of leases. -/
theorem granted_modifyToken (number : Nat) {change : Token → Token}
    (h : ∀ token, (change token).lease = token.lease) :
    (ledger.modifyToken number change).granted = ledger.granted := by
  refine List.ext_getElem? fun position ↦ ?_
  simp only [granted, modifyToken, List.getElem?_map, Array.getElem?_toList, Array.getElem?_modify]
  split
  · simp [Function.comp_def, h]
  · rfl

/-- Changes of a token that keep its phase keep every phase. -/
theorem phase?_modifyToken (number : Nat) {change : Token → Token}
    (h : ∀ token, (change token).phase = token.phase) :
    (ledger.modifyToken number change).phase? = ledger.phase? := by
  funext other
  simp only [phase?, modifyToken, Array.getElem?_modify]
  split
  · simp [Function.comp_def, h]
  · rfl

@[simp] theorem granted_touch (number now : Nat) :
    (ledger.touch number now).granted = ledger.granted :=
  ledger.granted_modifyToken number fun _ ↦ rfl

@[simp] theorem phase?_touch (number now : Nat) :
    (ledger.touch number now).phase? = ledger.phase? :=
  ledger.phase?_modifyToken number fun _ ↦ rfl

@[simp] theorem granted_supervise (number : Nat) :
    (ledger.supervise number).granted = ledger.granted :=
  ledger.granted_modifyToken number fun _ ↦ rfl

@[simp] theorem phase?_supervise (number : Nat) :
    (ledger.supervise number).phase? = ledger.phase? :=
  ledger.phase?_modifyToken number fun _ ↦ rfl

@[simp] theorem granted_setPhase (number : Nat) (phase : Phase) :
    (ledger.setPhase number phase).granted = ledger.granted :=
  ledger.granted_modifyToken number fun _ ↦ rfl

@[simp] theorem outstanding_setPhase (number : Nat) (phase : Phase) :
    (ledger.setPhase number phase).outstanding = ledger.outstanding :=
  rfl

@[simp] theorem dropped_setPhase (number : Nat) (phase : Phase) :
    (ledger.setPhase number phase).dropped = ledger.dropped :=
  rfl

theorem phase?_setPhase {number : Nat} {before : Phase} (h : ledger.phase? number = some before)
    (after : Phase) (other : Nat) :
    (ledger.setPhase number after).phase? other =
      if other = number then some after else ledger.phase? other := by
  have hlt := ledger.lt_of_phase? h
  simp only [phase?, setPhase, modifyToken, Array.getElem?_modify]
  by_cases hother : number = other
  · subst hother
    simp [Array.getElem?_eq_getElem hlt]
  · simp [hother, Ne.symm hother]

/-- An exchange succeeds exactly from the phase it names, and changes nothing but the phase. -/
theorem exchange_eq_some_iff {number : Nat} {before after : Phase} {changed : Ledger} :
    ledger.exchange number before after = some changed ↔
      ledger.phase? number = some before ∧ ledger.setPhase number after = changed := by
  unfold exchange
  split
  · next h => simp [h]
  · next h => simp [h]

theorem exchange_of_phase? {number : Nat} {before after : Phase}
    (h : ledger.phase? number = some before) :
    ledger.exchange number before after = some (ledger.setPhase number after) :=
  ledger.exchange_eq_some_iff.mpr ⟨h, rfl⟩

/-! ### Granting -/

@[simp] theorem outstanding_grant (category now : Nat) :
    (ledger.grant category now).1.outstanding =
      (ledger.grant category now).2 :: ledger.outstanding :=
  rfl

@[simp] theorem granted_grant (category now : Nat) :
    (ledger.grant category now).1.granted = ledger.granted ++ [(ledger.grant category now).2] := by
  simp [granted, grant]

theorem phase?_grant (category now other : Nat) :
    (ledger.grant category now).1.phase? other =
      if other = ledger.tokens.size then some .active else ledger.phase? other := by
  simp only [phase?, grant, Array.getElem?_push]
  split <;> rfl

/-! ### The list of leases that are not settled -/

theorem mem_remove {number : Nat} {lease : Lease} :
    lease ∈ (ledger.remove number).outstanding ↔
      lease ∈ ledger.outstanding ∧ lease.number ≠ number := by
  simp [remove]

/-- Where numbers do not repeat, the lease of a number is the only one taken off. -/
theorem outstanding_remove {lease : Lease} (nodup : (ledger.outstanding.map (·.number)).Nodup)
    (h : lease ∈ ledger.outstanding) :
    (ledger.remove lease.number).outstanding = ledger.outstanding.erase lease := by
  have hinj := List.inj_on_of_nodup_map nodup
  rw [(List.Nodup.of_map _ nodup).erase_eq_filter, remove]
  refine List.filter_congr fun other hother ↦ ?_
  by_cases heq : other = lease
  · simp [heq]
  · have hnumber : other.number ≠ lease.number := fun hsame ↦ heq (hinj hother h hsame)
    simp [heq, hnumber]

theorem perm_remove {lease : Lease} (nodup : (ledger.outstanding.map (·.number)).Nodup)
    (h : lease ∈ ledger.outstanding) :
    ledger.outstanding.Perm (lease :: (ledger.remove lease.number).outstanding) := by
  rw [ledger.outstanding_remove nodup h]
  exact List.perm_cons_erase h

theorem find?_eq_some {number : Nat} {lease : Lease} (h : ledger.find? number = some lease) :
    lease ∈ ledger.outstanding ∧ lease.number = number :=
  ⟨List.mem_of_find?_eq_some h, by simpa using List.find?_some h⟩

theorem find?_eq_none {number : Nat} (h : ledger.find? number = none) :
    ∀ lease ∈ ledger.outstanding, lease.number ≠ number := by
  simpa [find?] using h

theorem find?_of_mem {lease : Lease} (nodup : (ledger.outstanding.map (·.number)).Nodup)
    (h : lease ∈ ledger.outstanding) : ledger.find? lease.number = some lease := by
  rcases hfind : ledger.find? lease.number with _ | other
  · exact absurd rfl (ledger.find?_eq_none hfind lease h)
  · obtain ⟨hother, hnumber⟩ := ledger.find?_eq_some hfind
    rw [List.inj_on_of_nodup_map nodup hother h hnumber]

@[simp] theorem tokens_reclaim (number : Nat) (loss : Loss) :
    (ledger.reclaim number loss).1.tokens = ledger.tokens := by
  unfold reclaim
  split <;> rfl

@[simp] theorem dropped_reclaim (number : Nat) (loss : Loss) :
    (ledger.reclaim number loss).1.dropped = ledger.dropped := by
  unfold reclaim
  split <;> rfl

@[simp] theorem granted_reclaim (number : Nat) (loss : Loss) :
    (ledger.reclaim number loss).1.granted = ledger.granted := by
  simp [granted]

@[simp] theorem phase?_reclaim (number : Nat) (loss : Loss) :
    (ledger.reclaim number loss).1.phase? = ledger.phase? := by
  funext other
  simp [phase?]

/-- What is taken back stood on the list, and the rest of the list stays. -/
theorem perm_reclaim (nodup : (ledger.outstanding.map (·.number)).Nodup) (number : Nat)
    (loss : Loss) :
    ledger.outstanding.Perm
      ((ledger.reclaim number loss).2.map (·.lease) ++
        (ledger.reclaim number loss).1.outstanding) := by
  unfold reclaim
  split
  · exact .refl _
  · next lease hfind =>
    obtain ⟨hmem, rfl⟩ := ledger.find?_eq_some hfind
    exact ledger.perm_remove nodup hmem

theorem mem_outstanding_reclaim {number : Nat} {loss : Loss} {lease : Lease} :
    lease ∈ (ledger.reclaim number loss).1.outstanding ↔
      lease ∈ ledger.outstanding ∧ lease.number ≠ number := by
  unfold reclaim
  split
  · next hfind => exact ⟨fun h ↦ ⟨h, ledger.find?_eq_none hfind lease h⟩, And.left⟩
  · exact ledger.mem_remove

/-- What is taken back does not depend on the queue. -/
theorem reclaim_dropped (queue : List Nat) (number : Nat) (loss : Loss) :
    { ledger with dropped := queue }.reclaim number loss =
      ({ (ledger.reclaim number loss).1 with dropped := queue },
        (ledger.reclaim number loss).2) := by
  simp only [reclaim, find?, remove]
  split <;> rfl

/-- What a sweep takes up from the queue stood on the list, and the rest of the list stays. -/
theorem perm_receive (nodup : (ledger.outstanding.map (·.number)).Nodup) {changed : Ledger}
    {taken : List Reclaimed} (h : ledger.receive = some (changed, taken)) :
    ledger.outstanding.Perm (taken.map (·.lease) ++ changed.outstanding) := by
  unfold receive at h
  split at h
  · cases h
  · next number rest _ =>
    have hperm := ledger.perm_reclaim nodup number .dropped
    rw [reclaim_dropped] at h
    obtain ⟨rfl, rfl⟩ := Prod.ext_iff.mp (Option.some.inj h)
    exact hperm

theorem outstanding_claim (number : Nat) :
    (ledger.claim number).1.outstanding = ledger.outstanding := by
  unfold claim
  split
  · next hexchange =>
    obtain ⟨-, rfl⟩ := ledger.exchange_eq_some_iff.mp hexchange
    rfl
  · rfl

theorem granted_claim (number : Nat) : (ledger.claim number).1.granted = ledger.granted := by
  unfold claim
  split
  · next hexchange =>
    obtain ⟨-, rfl⟩ := ledger.exchange_eq_some_iff.mp hexchange
    exact ledger.granted_setPhase number .reconciled
  · rfl

/-! ### The queue in the course of a sweep -/

theorem dropped_receiveAll {ledger : Ledger} {numbers : List Nat}
    (h : ledger.dropped = numbers) : (ledger.receiveAll numbers).1.dropped = [] := by
  induction numbers generalizing ledger with
  | nil => exact h
  | cons number rest ih => exact ih (dropped_reclaim ..)

theorem dropped_claim (number : Nat) : (ledger.claim number).1.dropped = ledger.dropped := by
  unfold claim
  split
  · next hexchange =>
    obtain ⟨-, rfl⟩ := ledger.exchange_eq_some_iff.mp hexchange
    rfl
  · rfl

/-- What claiming a lease and taking it off the list keep, taking it back keeps. -/
theorem claimStale_keeps {motive : Ledger → Prop} {number : Nat}
    (hclaim : motive (ledger.claim number).1)
    (hreclaim : ∀ changed : Ledger, motive changed → motive (changed.reclaim number .stale).1) :
    motive (ledger.claimStale number).1 := by
  unfold claimStale
  split
  · next claimed heq =>
    rw [heq] at hclaim
    exact hreclaim claimed hclaim
  · next claimed heq =>
    rw [heq] at hclaim
    exact hclaim

theorem dropped_claimStale (number : Nat) :
    (ledger.claimStale number).1.dropped = ledger.dropped := by
  refine ledger.claimStale_keeps (motive := fun changed ↦ changed.dropped = ledger.dropped)
    (ledger.dropped_claim number) fun changed hchanged ↦ ?_
  rw [dropped_reclaim, hchanged]

theorem dropped_claimAll (stale : List Nat) :
    (ledger.claimAll stale).1.dropped = ledger.dropped := by
  induction stale generalizing ledger with
  | nil => rfl
  | cons number rest ih => exact (ih _).trans (ledger.dropped_claimStale number)

/-- A sweep takes back a lease whose number is in the queue. -/
theorem mem_receiveAll {numbers : List Nat} {lease : Lease}
    (nodup : (ledger.outstanding.map (·.number)).Nodup) (hlist : lease ∈ ledger.outstanding)
    (hqueue : lease.number ∈ numbers) : ⟨lease, .dropped⟩ ∈ (ledger.receiveAll numbers).2 := by
  induction numbers generalizing ledger with
  | nil => cases hqueue
  | cons number rest ih =>
    let queued : Ledger := { ledger with dropped := rest }
    have hperm := queued.perm_reclaim nodup number .dropped
    by_cases hnumber : lease.number = number
    · have hfind : queued.find? number = some lease := hnumber ▸ queued.find?_of_mem nodup hlist
      have htaken : ⟨lease, .dropped⟩ ∈ (queued.reclaim number .dropped).2 := by
        rw [reclaim, hfind]
        exact List.mem_singleton_self _
      exact List.mem_append_left _ htaken
    · have hleft : ((queued.reclaim number .dropped).1.outstanding.map (·.number)).Nodup := by
        have hparts := (hperm.map _).nodup_iff.mp nodup
        rw [List.map_append] at hparts
        exact hparts.of_append_right
      have hrest := (List.mem_cons.mp hqueue).resolve_left hnumber
      exact List.mem_append_right _
        (ih _ hleft (queued.mem_outstanding_reclaim.mpr ⟨hlist, hnumber⟩) hrest)

/-- A sweep leaves nothing in the queue. -/
theorem dropped_collect (now : Nat) (bound : Option Nat) :
    (ledger.collect now bound).1.dropped = [] := by
  unfold collect
  cases bound with
  | none => exact dropped_receiveAll rfl
  | some bound => exact (dropped_claimAll _ _).trans (dropped_receiveAll rfl)

/-! ### The record of leases in the course of a sweep -/

theorem granted_receiveAll (numbers : List Nat) :
    (ledger.receiveAll numbers).1.granted = ledger.granted := by
  induction numbers generalizing ledger with
  | nil => rfl
  | cons number rest ih => exact (ih _).trans (granted_reclaim { ledger with dropped := rest } ..)

theorem granted_claimStale (number : Nat) :
    (ledger.claimStale number).1.granted = ledger.granted := by
  refine ledger.claimStale_keeps (motive := fun changed ↦ changed.granted = ledger.granted)
    (ledger.granted_claim number) fun changed hchanged ↦ ?_
  rw [granted_reclaim, hchanged]

theorem granted_claimAll (stale : List Nat) :
    (ledger.claimAll stale).1.granted = ledger.granted := by
  induction stale generalizing ledger with
  | nil => rfl
  | cons number rest ih => exact (ih _).trans (ledger.granted_claimStale number)

/-- A sweep keeps the record of leases. -/
theorem granted_collect (now : Nat) (bound : Option Nat) :
    (ledger.collect now bound).1.granted = ledger.granted := by
  have hreceived := ledger.granted_receiveAll ledger.dropped
  unfold collect
  cases bound with
  | none => exact hreceived
  | some bound => exact (granted_claimAll _ _).trans hreceived

end Admission.Ledger
