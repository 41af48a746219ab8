import Admission.Proofs.Ledger

/-!
# Which leases a sweep takes, and which it leaves

A sweep takes leases from two sources, the queue of dropped numbers and the list of stale leases,
and the two need not know of each other. While nobody is in the middle of anything (`Still`) they
complement each other: a lease on the list is active, or it is dropped and its number is in the
queue. So a sweep leaves exactly the leases that are in use, and leaves their tokens as they were
(`Still.collects`). A second sweep at the same time then finds nothing to take
(`Collects.collect_again`).

Along the way the numbers in the queue may name leases that are settled already, and the list of
stale leases is made only once the queue is empty.
-/

set_option autoImplicit false
set_option relaxedAutoImplicit false

namespace Admission

/-- A lease is in use: it is active, and it is supervised or its latest sign of life is recent
enough. Without a bound every sign of life is recent enough. -/
def Token.InUse (token : Token) (now : Nat) (bound : Option Nat) : Prop :=
  token.phase = .active ∧
    (token.supervised = true ∨ ∀ limit ∈ bound, now - token.heartbeat < limit)

instance (token : Token) (now : Nat) (bound : Option Nat) : Decidable (token.InUse now bound) :=
  inferInstanceAs (Decidable (_ ∧ _))

namespace Ledger

variable {ledger : Ledger} {numbers stale : List Nat} {now limit : Nat} {bound : Option Nat}

/-- A lease is in use by its token. -/
def InUse (ledger : Ledger) (now : Nat) (bound : Option Nat) (lease : Lease) : Prop :=
  ∃ token ∈ ledger.tokens[lease.number]?, token.InUse now bound

instance (ledger : Ledger) (now : Nat) (bound : Option Nat) (lease : Lease) :
    Decidable (ledger.InUse now bound lease) :=
  inferInstanceAs (Decidable (∃ token ∈ ledger.tokens[lease.number]?, token.InUse now bound))

theorem InUse.active {lease : Lease} (h : ledger.InUse now bound lease) :
    ledger.phase? lease.number = some .active := by
  obtain ⟨token, htoken, hactive, -⟩ := h
  rw [phase?, Option.mem_def.mp htoken, Option.map_some, hactive]

/-- Without a bound the leases in use are the active ones. -/
theorem inUse_none {lease : Lease} :
    ledger.InUse now none lease ↔ ledger.phase? lease.number = some .active := by
  refine ⟨InUse.active, fun hactive ↦ ?_⟩
  rw [phase?, Option.map_eq_some_iff] at hactive
  obtain ⟨token, htoken, hphase⟩ := hactive
  exact ⟨token, htoken, hphase, .inr (by simp)⟩

/-- With a bound an active lease is either in use or stale. -/
theorem inUse_some {lease : Lease} (hactive : ledger.phase? lease.number = some .active) :
    ledger.InUse now (some limit) lease ↔ ledger.isStale now limit lease = false := by
  rw [phase?, Option.map_eq_some_iff] at hactive
  obtain ⟨token, htoken, hphase⟩ := hactive
  simp only [InUse, Token.InUse, isStale, htoken, Option.mem_def, Option.some.injEq,
    exists_eq_left', hphase, true_and]
  cases token.supervised <;> simp

/-! ### Taking one lease off the list -/

theorem outstanding_reclaim (ledger : Ledger) (number : Nat) (loss : Loss) :
    (ledger.reclaim number loss).1.outstanding =
      ledger.outstanding.filter fun lease ↦ lease.number ≠ number := by
  unfold reclaim
  split
  · next hfind =>
    refine (List.filter_eq_self.mpr fun lease hmem ↦ ?_).symm
    exact decide_eq_true (ledger.find?_eq_none hfind lease hmem)
  · rfl

/-- Leaving out a number and then others leaves out all of them. -/
theorem filter_numbers (leases : List Lease) (number : Nat) (rest : List Nat) :
    ((leases.filter fun lease ↦ lease.number ≠ number).filter fun lease ↦ lease.number ∉ rest) =
      leases.filter fun lease ↦ lease.number ∉ number :: rest := by
  rw [List.filter_filter]
  refine List.filter_congr fun lease _ ↦ ?_
  simp [Bool.and_comm]

theorem taken_reclaim (ledger : Ledger) (number : Nat) (loss : Loss) :
    ∀ reclaimed ∈ (ledger.reclaim number loss).2,
      reclaimed.loss = loss ∧ reclaimed.lease.number = number := by
  unfold reclaim
  split
  · simp
  · next lease hfind => simpa using (ledger.find?_eq_some hfind).2

theorem nodup_filter (nodup : (ledger.outstanding.map (·.number)).Nodup) (p : Lease → Bool) :
    ((ledger.outstanding.filter p).map (·.number)).Nodup :=
  nodup.sublist (List.filter_sublist.map _)

theorem nodup_reclaim (nodup : (ledger.outstanding.map (·.number)).Nodup) (number : Nat)
    (loss : Loss) : ((ledger.reclaim number loss).1.outstanding.map (·.number)).Nodup := by
  rw [outstanding_reclaim]
  exact nodup_filter nodup _

/-! ### Taking up the queue -/

theorem receiveAll_cons (ledger : Ledger) (number : Nat) (rest : List Nat) :
    ledger.receiveAll (number :: rest) =
      let first := { ledger with dropped := rest }.reclaim number .dropped
      ((first.1.receiveAll rest).1, first.2 ++ (first.1.receiveAll rest).2) :=
  rfl

@[simp] theorem tokens_receiveAll (ledger : Ledger) (numbers : List Nat) :
    (ledger.receiveAll numbers).1.tokens = ledger.tokens := by
  induction numbers generalizing ledger with
  | nil => rfl
  | cons number rest ih => exact (ih _).trans (tokens_reclaim ..)

theorem outstanding_receiveAll (ledger : Ledger) (numbers : List Nat) :
    (ledger.receiveAll numbers).1.outstanding =
      ledger.outstanding.filter fun lease ↦ lease.number ∉ numbers := by
  induction numbers generalizing ledger with
  | nil => simp [receiveAll]
  | cons number rest ih =>
    rw [receiveAll_cons, ih, outstanding_reclaim, filter_numbers]

theorem nodup_receiveAll (nodup : (ledger.outstanding.map (·.number)).Nodup)
    (numbers : List Nat) :
    ((ledger.receiveAll numbers).1.outstanding.map (·.number)).Nodup := by
  rw [outstanding_receiveAll]
  exact nodup_filter nodup _

theorem taken_receiveAll (ledger : Ledger) (numbers : List Nat) :
    ∀ reclaimed ∈ (ledger.receiveAll numbers).2,
      reclaimed.loss = .dropped ∧ reclaimed.lease.number ∈ numbers := by
  induction numbers generalizing ledger with
  | nil => simp [receiveAll]
  | cons number rest ih =>
    intro reclaimed hmem
    rw [receiveAll_cons] at hmem
    rcases List.mem_append.mp hmem with hfirst | hrest
    · obtain ⟨hloss, rfl⟩ := taken_reclaim _ _ _ reclaimed hfirst
      exact ⟨hloss, List.mem_cons_self⟩
    · obtain ⟨hloss, hnumber⟩ := ih _ reclaimed hrest
      exact ⟨hloss, List.mem_cons_of_mem _ hnumber⟩

theorem perm_receiveAll (nodup : (ledger.outstanding.map (·.number)).Nodup) (numbers : List Nat) :
    ledger.outstanding.Perm ((ledger.receiveAll numbers).2.map (·.lease) ++
      (ledger.receiveAll numbers).1.outstanding) := by
  induction numbers generalizing ledger with
  | nil => exact .refl _
  | cons number rest ih =>
    let queued : Ledger := { ledger with dropped := rest }
    have hfirst := queued.perm_reclaim nodup number .dropped
    have hrest := ih (queued.nodup_reclaim nodup number .dropped)
    refine hfirst.trans ((hrest.append_left _).trans ?_)
    rw [← List.append_assoc, ← List.map_append]
    exact .refl _

/-! ### Taking back the stale leases -/

theorem claimAll_cons (ledger : Ledger) (number : Nat) (rest : List Nat) :
    ledger.claimAll (number :: rest) =
      let first := ledger.claimStale number
      ((first.1.claimAll rest).1, first.2 ++ (first.1.claimAll rest).2) :=
  rfl

theorem claimStale_of_active {number : Nat} (h : ledger.phase? number = some .active) :
    ledger.claimStale number = (ledger.setPhase number .reconciled).reclaim number .stale := by
  rw [claimStale, claim, exchange_of_phase? _ h]

/-- Claiming one number leaves the other numbers active. -/
theorem active_claimStale {number : Nat} {rest : List Nat} (nodup : (number :: rest).Nodup)
    (h : ∀ other ∈ number :: rest, ledger.phase? other = some .active) :
    ∀ other ∈ rest, (ledger.claimStale number).1.phase? other = some .active := by
  intro other hother
  have hne : other ≠ number := fun heq ↦ (List.nodup_cons.mp nodup).1 (heq ▸ hother)
  have hnumber := h number List.mem_cons_self
  rw [claimStale_of_active hnumber, phase?_reclaim, phase?_setPhase _ hnumber, if_neg hne]
  exact h other (List.mem_cons_of_mem _ hother)

theorem tokens_setPhase (ledger : Ledger) (number other : Nat) (phase : Phase) :
    (ledger.setPhase number phase).tokens[other]? =
      if number = other then ledger.tokens[other]?.map fun token ↦ { token with phase }
      else ledger.tokens[other]? := by
  rw [setPhase, modifyToken, Array.getElem?_modify]

/-- The tokens of the claimed leases become reconciled, and the others stay as they were. -/
theorem tokens_claimAll (nodup : stale.Nodup)
    (h : ∀ number ∈ stale, ledger.phase? number = some .active) (other : Nat) :
    (ledger.claimAll stale).1.tokens[other]? =
      if other ∈ stale then
        ledger.tokens[other]?.map fun token ↦ { token with phase := .reconciled }
      else ledger.tokens[other]? := by
  induction stale generalizing ledger with
  | nil => simp [claimAll]
  | cons number rest ih =>
    have hnumber := h number List.mem_cons_self
    obtain ⟨hnot, hrest⟩ := List.nodup_cons.mp nodup
    refine (ih hrest (active_claimStale nodup h)).trans ?_
    rw [claimStale_of_active hnumber, tokens_reclaim, tokens_setPhase]
    by_cases hother : number = other
    · subst hother
      simp [hnot]
    · simp [hother, Ne.symm hother]

theorem outstanding_claimAll (nodup : stale.Nodup)
    (h : ∀ number ∈ stale, ledger.phase? number = some .active) :
    (ledger.claimAll stale).1.outstanding =
      ledger.outstanding.filter fun lease ↦ lease.number ∉ stale := by
  induction stale generalizing ledger with
  | nil => simp [claimAll]
  | cons number rest ih =>
    rw [claimAll_cons, ih nodup.of_cons (active_claimStale nodup h),
      claimStale_of_active (h number List.mem_cons_self), outstanding_reclaim,
      outstanding_setPhase, filter_numbers]

theorem taken_claimAll (nodup : stale.Nodup)
    (h : ∀ number ∈ stale, ledger.phase? number = some .active) :
    ∀ reclaimed ∈ (ledger.claimAll stale).2,
      reclaimed.loss = .stale ∧ reclaimed.lease.number ∈ stale := by
  induction stale generalizing ledger with
  | nil => simp [claimAll]
  | cons number rest ih =>
    have hnumber := h number List.mem_cons_self
    intro reclaimed hmem
    rw [claimAll_cons] at hmem
    rcases List.mem_append.mp hmem with hfirst | hrest
    · rw [claimStale_of_active hnumber] at hfirst
      obtain ⟨hloss, rfl⟩ := taken_reclaim _ _ _ reclaimed hfirst
      exact ⟨hloss, List.mem_cons_self⟩
    · obtain ⟨hloss, hlater⟩ := ih nodup.of_cons (active_claimStale nodup h) reclaimed hrest
      exact ⟨hloss, List.mem_cons_of_mem _ hlater⟩

theorem perm_claimAll (nodup : stale.Nodup)
    (h : ∀ number ∈ stale, ledger.phase? number = some .active)
    (hnumbers : (ledger.outstanding.map (·.number)).Nodup) :
    ledger.outstanding.Perm ((ledger.claimAll stale).2.map (·.lease) ++
      (ledger.claimAll stale).1.outstanding) := by
  induction stale generalizing ledger with
  | nil => exact .refl _
  | cons number rest ih =>
    have hclaim := claimStale_of_active (h number List.mem_cons_self)
    have hfirst := (ledger.setPhase number .reconciled).perm_reclaim hnumbers number .stale
    have hleft := (ledger.setPhase number .reconciled).nodup_reclaim hnumbers number .stale
    rw [← hclaim] at hfirst hleft
    have hrest := ih nodup.of_cons (active_claimStale nodup h) hleft
    refine hfirst.trans ((hrest.append_left _).trans ?_)
    rw [← List.append_assoc, ← List.map_append]
    exact .refl _

/-! ### What a sweep leaves -/

/-- Nobody is in the middle of anything: a lease on the list is active, or it is dropped and its
number is in the queue. -/
structure Still (ledger : Ledger) : Prop where
  nodup : (ledger.outstanding.map (·.number)).Nodup
  answered : ∀ lease ∈ ledger.outstanding,
    ledger.phase? lease.number = some .active ∨ lease.number ∈ ledger.dropped
  dropped : ∀ number ∈ ledger.dropped, ledger.phase? number = some .abandoned

/-- What a sweep leaves: the leases in use stay on the list, and no token changes but those of the
leases taken. A lease taken as a dropped one was abandoned and stays so, and one taken as a stale
one was active and is reconciled. -/
structure Collects (before after : Ledger) (now : Nat) (bound : Option Nat)
    (taken : List Reclaimed) : Prop where
  kept : after.outstanding = before.outstanding.filter fun lease ↦ before.InUse now bound lease
  perm : before.outstanding.Perm (taken.map (·.lease) ++ after.outstanding)
  tokens : ∀ number, (∀ reclaimed ∈ taken, reclaimed.lease.number ≠ number) →
    after.tokens[number]? = before.tokens[number]?
  phases : ∀ reclaimed ∈ taken,
    reclaimed.loss = .dropped ∧ before.phase? reclaimed.lease.number = some .abandoned ∧
        after.phase? reclaimed.lease.number = some .abandoned ∨
      reclaimed.loss = .stale ∧ before.phase? reclaimed.lease.number = some .active ∧
        after.phase? reclaimed.lease.number = some .reconciled
  queue : after.dropped = []

namespace Still

/-- A lease on the list is active unless its number is in the queue. -/
theorem active_iff (h : ledger.Still) {lease : Lease} (hmem : lease ∈ ledger.outstanding) :
    ledger.phase? lease.number = some .active ↔ lease.number ∉ ledger.dropped := by
  constructor
  · intro hactive hqueued
    rw [h.dropped _ hqueued] at hactive
    cases hactive
  · exact (h.answered lease hmem).resolve_right

/-- Taking up the queue leaves the active leases, and changes no token. -/
theorem collects_receiveAll (h : ledger.Still) (now : Nat) :
    ledger.Collects (ledger.receiveAll ledger.dropped).1 now none
      (ledger.receiveAll ledger.dropped).2 where
  kept := by
    rw [outstanding_receiveAll]
    refine List.filter_congr fun lease hmem ↦ decide_eq_decide.mpr ?_
    rw [inUse_none, h.active_iff hmem]
  perm := perm_receiveAll h.nodup _
  tokens number _ := by rw [tokens_receiveAll]
  phases reclaimed hmem := by
    obtain ⟨hloss, hqueued⟩ := taken_receiveAll _ _ reclaimed hmem
    have habandoned := h.dropped _ hqueued
    refine .inl ⟨hloss, habandoned, ?_⟩
    rwa [phase?, tokens_receiveAll]
  queue := dropped_receiveAll rfl

end Still

/-! ### A whole sweep -/

section Claiming

variable (hnumbers : (ledger.outstanding.map (·.number)).Nodup)
  (hactive : ∀ lease ∈ ledger.outstanding, ledger.phase? lease.number = some .active)

include hnumbers in
/-- The stale numbers are those of the stale leases. -/
theorem mem_staleNumbers {lease : Lease} (hlease : lease ∈ ledger.outstanding) :
    lease.number ∈ ledger.staleNumbers now limit ↔ ledger.isStale now limit lease = true := by
  constructor
  · intro hnumber
    obtain ⟨other, hother, hsame⟩ := List.mem_map.mp hnumber
    obtain ⟨hlist, hstale⟩ := List.mem_filter.mp hother
    rwa [List.inj_on_of_nodup_map hnumbers hlist hlease hsame] at hstale
  · exact fun hstale ↦ List.mem_map_of_mem (List.mem_filter.mpr ⟨hlease, hstale⟩)

include hnumbers hactive in
/-- Among active leases those that are not stale are in use, and the others are taken back. -/
theorem collects_claimAll (hqueue : ledger.dropped = []) (now limit : Nat) :
    ledger.Collects (ledger.claimAll (ledger.staleNumbers now limit)).1 now (some limit)
      (ledger.claimAll (ledger.staleNumbers now limit)).2 := by
  have hclaimable : ∀ number ∈ ledger.staleNumbers now limit,
      ledger.phase? number = some .active := by
    intro number hmem
    obtain ⟨lease, hlease, rfl⟩ := List.mem_map.mp hmem
    exact hactive lease (List.mem_filter.mp hlease).1
  have hnodup : (ledger.staleNumbers now limit).Nodup :=
    hnumbers.sublist (List.filter_sublist.map _)
  have hperm := perm_claimAll hnodup hclaimable hnumbers
  have hkept := outstanding_claimAll hnodup hclaimable
  constructor
  case kept =>
    rw [hkept]
    refine List.filter_congr fun lease hlease ↦ decide_eq_decide.mpr ?_
    rw [inUse_some (hactive lease hlease), mem_staleNumbers hnumbers hlease, Bool.not_eq_true]
  case perm => exact hperm
  case tokens =>
    intro number hothers
    rw [tokens_claimAll hnodup hclaimable, if_neg]
    -- A stale number is that of a lease that stood on the list and does not any more.
    intro hstale
    obtain ⟨lease, hlease, rfl⟩ := List.mem_map.mp hstale
    have htaken := hperm.mem_iff.mp (List.mem_filter.mp hlease).1
    rw [hkept, List.mem_append, List.mem_filter] at htaken
    rcases htaken with htaken | ⟨-, hnot⟩
    · obtain ⟨reclaimed, hreclaimed, rfl⟩ := List.mem_map.mp htaken
      exact hothers reclaimed hreclaimed rfl
    · exact of_decide_eq_true hnot hstale
  case phases =>
    intro reclaimed hreclaimed
    obtain ⟨hloss, hnumber⟩ := taken_claimAll hnodup hclaimable reclaimed hreclaimed
    have hbefore := hclaimable _ hnumber
    refine .inr ⟨hloss, hbefore, ?_⟩
    rw [phase?, tokens_claimAll hnodup hclaimable, if_pos hnumber]
    rw [phase?, Option.map_eq_some_iff] at hbefore
    obtain ⟨token, htoken, -⟩ := hbefore
    rw [htoken]
    rfl
  case queue => rw [dropped_claimAll, hqueue]

end Claiming

namespace Collects

variable {before after : Ledger} {taken : List Reclaimed}

theorem mem_iff (h : before.Collects after now bound taken) {lease : Lease} :
    lease ∈ after.outstanding ↔ lease ∈ before.outstanding ∧ before.InUse now bound lease := by
  rw [h.kept, List.mem_filter, decide_eq_true_eq]

/-- No lease is both taken and left. -/
theorem number_ne (h : before.Collects after now bound taken)
    (nodup : (before.outstanding.map (·.number)).Nodup) {reclaimed : Reclaimed} {lease : Lease}
    (hreclaimed : reclaimed ∈ taken) (hmem : lease ∈ after.outstanding) :
    reclaimed.lease.number ≠ lease.number := by
  have hparts := (h.perm.map (·.number)).nodup_iff.mp nodup
  rw [List.map_append] at hparts
  have htaken : reclaimed.lease.number ∈ (taken.map (·.lease)).map (·.number) :=
    List.mem_map_of_mem (List.mem_map_of_mem hreclaimed)
  exact (List.nodup_append.mp hparts).2.2 _ htaken _ (List.mem_map_of_mem hmem)

/-- A lease that stays on the list keeps its token. -/
theorem token_of_mem (h : before.Collects after now bound taken)
    (nodup : (before.outstanding.map (·.number)).Nodup) {lease : Lease}
    (hmem : lease ∈ after.outstanding) :
    after.tokens[lease.number]? = before.tokens[lease.number]? :=
  h.tokens lease.number fun _ hreclaimed ↦ h.number_ne nodup hreclaimed hmem

/-- A lease that is taken stood on the list. -/
theorem mem_of_taken (h : before.Collects after now bound taken) {reclaimed : Reclaimed}
    (hreclaimed : reclaimed ∈ taken) : reclaimed.lease ∈ before.outstanding :=
  h.perm.mem_iff.mpr (List.mem_append_left _ (List.mem_map_of_mem hreclaimed))

/-- A sweep without a bound that changes no token and then one with a bound are one sweep with that
bound. -/
theorem trans {middle : Ledger} {others : List Reclaimed}
    (h : before.Collects middle now none taken) (htokens : middle.tokens = before.tokens)
    (nodup : (before.outstanding.map (·.number)).Nodup)
    (h' : middle.Collects after now bound others) :
    before.Collects after now bound (taken ++ others) := by
  have hphase : middle.phase? = before.phase? := by
    funext number
    rw [phase?, htokens, phase?]
  have hinUse : middle.InUse now bound = before.InUse now bound := by
    funext lease
    rw [InUse, htokens, InUse]
  constructor
  case kept =>
    rw [h'.kept, h.kept, List.filter_filter]
    refine List.filter_congr fun lease _ ↦ ?_
    rw [← Bool.decide_and]
    refine decide_eq_decide.mpr ?_
    rw [hinUse, inUse_none]
    exact ⟨And.left, fun hused ↦ ⟨hused, hused.active⟩⟩
  case perm =>
    rw [List.map_append, List.append_assoc]
    exact h.perm.trans (h'.perm.append_left _)
  case tokens =>
    intro number hothers
    have hlater := h'.tokens number fun reclaimed hmem ↦
      hothers reclaimed (List.mem_append_right _ hmem)
    rw [hlater, htokens]
  case phases =>
    intro reclaimed hreclaimed
    rcases List.mem_append.mp hreclaimed with hfirst | hsecond
    · have hsame : after.phase? reclaimed.lease.number = middle.phase? reclaimed.lease.number := by
        refine congrArg _ (h'.tokens _ fun other hother ↦ ?_)
        exact (h.number_ne nodup hfirst (h'.mem_of_taken hother)).symm
      have hphases := h.phases reclaimed hfirst
      rw [hphase] at hphases
      rwa [hsame, hphase]
    · have hphases := h'.phases reclaimed hsecond
      rwa [hphase] at hphases
  case queue => exact h'.queue

end Collects

/-- A sweep leaves exactly the leases in use. -/
theorem Still.collects (h : ledger.Still) (now : Nat) (bound : Option Nat) :
    ledger.Collects (ledger.collect now bound).1 now bound (ledger.collect now bound).2 := by
  have hreceived := h.collects_receiveAll now
  cases bound with
  | none => exact hreceived
  | some limit =>
    have hnodup := nodup_receiveAll h.nodup
    have hactive : ∀ lease ∈ (ledger.receiveAll ledger.dropped).1.outstanding,
        (ledger.receiveAll ledger.dropped).1.phase? lease.number = some .active := by
      intro lease hmem
      rw [phase?, tokens_receiveAll]
      exact (hreceived.mem_iff.mp hmem).2.active
    exact hreceived.trans (tokens_receiveAll ..) h.nodup
      (collects_claimAll (hnodup _) hactive hreceived.queue now limit)

/-- A sweep finds nothing to take if the queue is empty and every lease on the list is in use. -/
theorem collect_of_inUse (hqueue : ledger.dropped = [])
    (h : ∀ lease ∈ ledger.outstanding, ledger.InUse now bound lease) :
    ledger.collect now bound = (ledger, []) := by
  have hreceive : ledger.receiveAll ledger.dropped = (ledger, []) := by
    rw [hqueue, receiveAll]
  cases bound with
  | none => rw [collect, hreceive]
  | some limit =>
    have hnone : ledger.staleNumbers now limit = [] := by
      rw [staleNumbers, List.map_eq_nil_iff, List.filter_eq_nil_iff]
      intro lease hmem
      rw [(inUse_some (h lease hmem).active).mp (h lease hmem)]
      exact Bool.false_ne_true
    simp only [collect, hreceive, hnone, claimAll, List.append_nil]

/-- A second sweep at the same time finds nothing. -/
theorem Collects.collect_again {before after : Ledger} {taken : List Reclaimed}
    (h : before.Collects after now bound taken)
    (nodup : (before.outstanding.map (·.number)).Nodup) :
    after.collect now bound = (after, []) := by
  refine collect_of_inUse h.queue fun lease hmem ↦ ?_
  rw [InUse, h.token_of_mem nodup hmem]
  exact (h.mem_iff.mp hmem).2

end Ledger

end Admission
