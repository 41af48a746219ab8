import Admission.Proofs.Ledger

/-!
# Who answers for a lease

Between the moment a lease is taken on by its holder or by a sweep and the moment it is settled,
other parties may act. `Hands` says what is in the hands of whom meanwhile: the leases whose release
was won but not yet settled, the numbers of dropped leases on their way to the queue, the number
that a sweep has claimed and not yet taken off the list, and the leases that are off the list.

`InCustody` is the invariant of the ledger together with these hands. It says that the leases
granted are those on the list and those off it, each once, and that every lease on the list has a
party that answers for it (`Keeper`). Each step of the ledger keeps it, whatever the others have
done before.
-/

set_option autoImplicit false
set_option relaxedAutoImplicit false

namespace Admission

/-- What is in the hands of the parties that settle leases. -/
structure Hands where
  /-- Leases whose holder has taken it on to release them, and has not settled them yet. -/
  releasing : List Lease
  /-- Numbers of dropped leases that are not in the queue yet. -/
  posting : List Nat
  /-- The number of the lease that a sweep is about to take off the list. -/
  claimed : Option Nat
  /-- Leases off the list: those that a sweep took and those that are settled. -/
  away : List Lease

namespace Ledger

/-- Somebody answers for a lease that is not settled: the sweep that claimed it, its holder, the one
who releases it, or the one who takes up its number from the queue. -/
inductive Keeper (ledger : Ledger) (hands : Hands) (lease : Lease) : Prop where
  | claimed (h : hands.claimed = some lease.number)
  | active (h : ledger.phase? lease.number = some .active)
  | releasing (h : ledger.phase? lease.number = some .released) (hmem : lease ∈ hands.releasing)
  | dropped (h : ledger.phase? lease.number = some .abandoned)
      (hmem : lease.number ∈ hands.posting ++ ledger.dropped)

/-- Whoever answers for a lease goes on doing so while its phase and the parties' hands on it stay
as they are. -/
theorem Keeper.imp {ledger changed : Ledger} {hands others : Hands} {lease : Lease}
    (h : ledger.Keeper hands lease)
    (hphase : ∀ phase, ledger.phase? lease.number = some phase →
      changed.phase? lease.number = some phase)
    (hclaimed : hands.claimed = some lease.number → others.claimed = some lease.number)
    (hreleasing : lease ∈ hands.releasing → lease ∈ others.releasing)
    (hdropped : lease.number ∈ hands.posting ++ ledger.dropped →
      lease.number ∈ others.posting ++ changed.dropped) :
    changed.Keeper others lease := by
  cases h with
  | claimed hsame => exact .claimed (hclaimed hsame)
  | active hactive => exact .active (hphase _ hactive)
  | releasing hreleased hmem => exact .releasing (hphase _ hreleased) (hreleasing hmem)
  | dropped habandoned hmem => exact .dropped (hphase _ habandoned) (hdropped hmem)

/-- The leases granted are those on the list and those off it, and every party holds what it
should. -/
structure InCustody (ledger : Ledger) (hands : Hands) : Prop where
  numbers : ledger.granted.map (·.number) = List.range ledger.tokens.size
  granted : ledger.granted.Perm (hands.away ++ ledger.outstanding)
  keeper : ∀ lease ∈ ledger.outstanding, ledger.Keeper hands lease
  active : ∀ lease ∈ ledger.granted,
    ledger.phase? lease.number = some .active → lease ∈ ledger.outstanding
  releasing_nodup : hands.releasing.Nodup
  releasing_mem : ∀ lease ∈ hands.releasing, lease ∈ ledger.outstanding
  releasing_phase : ∀ lease ∈ hands.releasing, ledger.phase? lease.number = some .released
  releasing_unclaimed : ∀ lease ∈ hands.releasing, hands.claimed ≠ some lease.number
  dropped_phase : ∀ number ∈ hands.posting ++ ledger.dropped,
    ledger.phase? number = some .abandoned
  claimed_phase : ∀ number, hands.claimed = some number → ledger.phase? number ≠ some .active

namespace InCustody

variable {ledger : Ledger} {hands : Hands}

/-! ### What follows at once -/

theorem nodup_numbers (h : ledger.InCustody hands) : (ledger.granted.map (·.number)).Nodup := by
  rw [h.numbers]
  exact List.nodup_range

theorem nodup_parts (h : ledger.InCustody hands) :
    ((hands.away ++ ledger.outstanding).map (·.number)).Nodup :=
  (h.granted.map _).nodup_iff.mp h.nodup_numbers

theorem nodup_outstanding (h : ledger.InCustody hands) :
    (ledger.outstanding.map (·.number)).Nodup := by
  have hparts := h.nodup_parts
  rw [List.map_append] at hparts
  exact hparts.of_append_right

theorem nodup_away (h : ledger.InCustody hands) : (hands.away.map (·.number)).Nodup := by
  have hparts := h.nodup_parts
  rw [List.map_append] at hparts
  exact hparts.of_append_left

/-- A lease off the list does not stand on it. -/
theorem not_mem_of_away (h : ledger.InCustody hands) {lease : Lease} (haway : lease ∈ hands.away) :
    lease ∉ ledger.outstanding := by
  have hnodup : (hands.away ++ ledger.outstanding).Nodup := List.Nodup.of_map _ h.nodup_parts
  exact fun hmem ↦ (List.nodup_append.mp hnodup).2.2 lease haway lease hmem rfl

theorem mem_granted_iff (h : ledger.InCustody hands) {lease : Lease} :
    lease ∈ ledger.granted ↔ lease ∈ hands.away ∨ lease ∈ ledger.outstanding := by
  rw [h.granted.mem_iff, List.mem_append]

theorem number_lt (h : ledger.InCustody hands) {lease : Lease} (hmem : lease ∈ ledger.granted) :
    lease.number < ledger.tokens.size := by
  have hnumber : lease.number ∈ ledger.granted.map (·.number) := List.mem_map_of_mem hmem
  rwa [h.numbers, List.mem_range] at hnumber

/-- Leases are told apart by their numbers. -/
theorem eq_of_number (h : ledger.InCustody hands) {lease other : Lease}
    (hlease : lease ∈ ledger.granted) (hother : other ∈ ledger.granted)
    (hnumber : lease.number = other.number) : lease = other :=
  List.inj_on_of_nodup_map h.nodup_numbers hlease hother hnumber

/-- A lease is found under its own number. -/
theorem number_of_lease? (h : ledger.InCustody hands) {number : Nat} {lease : Lease}
    (hlease : ledger.lease? number = some lease) : lease.number = number := by
  have hgranted : ledger.granted[number]? = some lease := by
    rw [Ledger.granted, List.getElem?_map, Array.getElem?_toList]
    exact hlease
  have hnumber : (ledger.granted.map (·.number))[number]? = some lease.number := by
    rw [List.getElem?_map, hgranted, Option.map_some]
  rw [h.numbers] at hnumber
  obtain ⟨hlt, hrange⟩ := List.getElem?_eq_some_iff.mp hnumber
  rw [← hrange, List.getElem_range]

theorem mem_granted_of_mem (h : ledger.InCustody hands) {lease : Lease}
    (hmem : lease ∈ ledger.outstanding) : lease ∈ ledger.granted :=
  h.mem_granted_iff.mpr (.inr hmem)

theorem empty : ({} : Ledger).InCustody ⟨[], [], none, []⟩ where
  numbers := rfl
  granted := .refl _
  keeper := by simp
  active := by simp [Ledger.granted]
  releasing_nodup := .nil
  releasing_mem := by simp
  releasing_phase := by simp
  releasing_unclaimed := by simp
  dropped_phase := by simp
  claimed_phase := by simp

/-! ### Steps that change no phase and no list -/

/-- Custody goes by the leases, their phases, the list and the queue alone. -/
theorem congr (h : ledger.InCustody hands) {changed : Ledger}
    (hgranted : changed.granted = ledger.granted) (hphase : changed.phase? = ledger.phase?)
    (hlist : changed.outstanding = ledger.outstanding)
    (hdropped : changed.dropped = ledger.dropped) : changed.InCustody hands := by
  have hsize : changed.tokens.size = ledger.tokens.size := by
    rw [← length_granted, ← length_granted, hgranted]
  constructor
  case numbers =>
    rw [hgranted, hsize]
    exact h.numbers
  case granted =>
    rw [hgranted, hlist]
    exact h.granted
  case keeper =>
    rw [hlist]
    intro lease hmem
    refine (h.keeper lease hmem).imp ?_ id id ?_
    · intro phase hold
      rw [hphase, hold]
    · intro hqueued
      rwa [hdropped]
  case active =>
    rw [hgranted, hphase, hlist]
    exact h.active
  case releasing_nodup => exact h.releasing_nodup
  case releasing_mem =>
    rw [hlist]
    exact h.releasing_mem
  case releasing_phase =>
    rw [hphase]
    exact h.releasing_phase
  case releasing_unclaimed => exact h.releasing_unclaimed
  case dropped_phase =>
    rw [hphase, hdropped]
    exact h.dropped_phase
  case claimed_phase =>
    rw [hphase]
    exact h.claimed_phase

theorem touch (h : ledger.InCustody hands) (number now : Nat) :
    (ledger.touch number now).InCustody hands :=
  h.congr (granted_touch ..) (phase?_touch ..) rfl rfl

theorem supervise (h : ledger.InCustody hands) (number : Nat) :
    (ledger.supervise number).InCustody hands :=
  h.congr (granted_supervise ..) (phase?_supervise ..) rfl rfl

/-! ### Granting -/

theorem grant (h : ledger.InCustody hands) (hfree : hands.claimed = none) (category now : Nat) :
    (ledger.grant category now).1.InCustody hands := by
  have hold : ∀ {number : Nat} {phase : Phase}, ledger.phase? number = some phase →
      (ledger.grant category now).1.phase? number = some phase := by
    intro number phase hphase
    have hlt := ledger.lt_of_phase? hphase
    rw [phase?_grant, if_neg (Nat.ne_of_lt hlt), hphase]
  constructor
  case numbers =>
    rw [granted_grant, List.map_append, h.numbers]
    exact (congrArg _ (Array.size_push ..)).trans List.range_succ |>.symm
  case granted =>
    rw [granted_grant, outstanding_grant]
    exact (h.granted.append_right _).trans (by
      rw [List.append_assoc]
      exact List.perm_append_comm.append_left _)
  case keeper =>
    intro lease hmem
    rcases List.mem_cons.mp hmem with hnew | hmem
    · refine .active ?_
      rw [hnew, phase?_grant]
      exact if_pos rfl
    · exact (h.keeper lease hmem).imp (fun _ ↦ hold) id id id
  case active =>
    intro lease hmem hphase
    rw [granted_grant, List.mem_append, List.mem_singleton] at hmem
    rcases hmem with hmem | rfl
    · have hlt := h.number_lt hmem
      rw [phase?_grant, if_neg (Nat.ne_of_lt hlt)] at hphase
      exact List.mem_cons_of_mem _ (h.active lease hmem hphase)
    · exact List.mem_cons_self
  case releasing_nodup => exact h.releasing_nodup
  case releasing_mem =>
    exact fun lease hmem ↦ List.mem_cons_of_mem _ (h.releasing_mem lease hmem)
  case releasing_phase => exact fun lease hmem ↦ hold (h.releasing_phase lease hmem)
  case releasing_unclaimed => exact h.releasing_unclaimed
  case dropped_phase => exact fun number hmem ↦ hold (h.dropped_phase number hmem)
  case claimed_phase =>
    intro number hclaimed
    rw [hfree] at hclaimed
    cases hclaimed

/-! ### Exchanges of phases -/

/-- An exchange from a phase in which nobody has settled the lease. Whoever makes it takes on what
the hypotheses name: leases to release, numbers to leave in the queue, or the claim of a sweep. -/
theorem setPhase (h : ledger.InCustody hands) {number : Nat} {before after : Phase}
    (hbefore : ledger.phase? number = some before) (hreleased : before ≠ .released)
    (habandoned : before ≠ .abandoned) (hafter : after ≠ .active) (taken : List Lease)
    (posted : List Nat) {claim : Option Nat} (hnodup : taken.Nodup)
    (htaken : ∀ lease ∈ taken, lease ∈ ledger.outstanding ∧ lease.number = number ∧
      after = .released ∧ claim ≠ some number)
    (hposted : ∀ other ∈ posted, other = number ∧ after = .abandoned)
    (hclaim : claim = hands.claimed ∨ claim = some number ∧ hands.claimed = none)
    (hkeeper : ∀ lease ∈ ledger.outstanding, lease.number = number →
      (ledger.setPhase number after).Keeper
        ⟨taken ++ hands.releasing, posted ++ hands.posting, claim, hands.away⟩ lease) :
    (ledger.setPhase number after).InCustody
      ⟨taken ++ hands.releasing, posted ++ hands.posting, claim, hands.away⟩ := by
  have hself : (ledger.setPhase number after).phase? number = some after := by
    rw [phase?_setPhase _ hbefore, if_pos rfl]
  have hother : ∀ {other : Nat}, other ≠ number →
      (ledger.setPhase number after).phase? other = ledger.phase? other := by
    intro other hne
    rw [phase?_setPhase _ hbefore, if_neg hne]
  have hreleasing : ∀ lease ∈ hands.releasing, lease.number ≠ number := by
    rintro lease hmem rfl
    have hphase := h.releasing_phase lease hmem
    rw [hbefore] at hphase
    exact hreleased (Option.some.inj hphase)
  have hdropped : ∀ other ∈ hands.posting ++ ledger.dropped, other ≠ number := by
    rintro other hmem rfl
    have hphase := h.dropped_phase other hmem
    rw [hbefore] at hphase
    exact habandoned (Option.some.inj hphase)
  constructor
  case numbers =>
    rw [granted_setPhase, h.numbers]
    simp [Ledger.setPhase, modifyToken]
  case granted =>
    rw [granted_setPhase, outstanding_setPhase]
    exact h.granted
  case keeper =>
    intro lease hmem
    by_cases hnumber : lease.number = number
    · exact hkeeper lease hmem hnumber
    · refine (h.keeper lease hmem).imp ?_ ?_ (List.mem_append_right _) ?_
      · intro phase hphase
        exact (hother hnumber).trans hphase
      · intro hclaimed
        rcases hclaim with hsame | ⟨-, hnone⟩
        · exact hsame.trans hclaimed
        · rw [hnone] at hclaimed
          cases hclaimed
      · intro hmem
        rw [dropped_setPhase, List.append_assoc]
        exact List.mem_append_right _ hmem
  case active =>
    intro lease hmem hphase
    rw [granted_setPhase] at hmem
    have hnumber : lease.number ≠ number := by
      rintro rfl
      rw [hself] at hphase
      exact hafter (Option.some.inj hphase)
    exact h.active lease hmem ((hother hnumber).symm.trans hphase)
  case releasing_nodup =>
    refine List.nodup_append.mpr ⟨hnodup, h.releasing_nodup, ?_⟩
    rintro lease hnew other hold rfl
    exact hreleasing lease hold (htaken lease hnew).2.1
  case releasing_mem =>
    intro lease hmem
    rcases List.mem_append.mp hmem with hnew | hold
    · exact (htaken lease hnew).1
    · exact h.releasing_mem lease hold
  case releasing_phase =>
    intro lease hmem
    rcases List.mem_append.mp hmem with hnew | hold
    · obtain ⟨-, rfl, rfl, -⟩ := htaken lease hnew
      exact hself
    · exact (hother (hreleasing lease hold)).trans (h.releasing_phase lease hold)
  case releasing_unclaimed =>
    intro lease hmem
    rcases List.mem_append.mp hmem with hnew | hold
    · obtain ⟨-, rfl, -, hunclaimed⟩ := htaken lease hnew
      exact hunclaimed
    · rcases hclaim with hsame | ⟨hsome, -⟩
      · rw [hsame]
        exact h.releasing_unclaimed lease hold
      · rw [hsome]
        exact fun heq ↦ hreleasing lease hold (Option.some.inj heq).symm
  case dropped_phase =>
    intro other hmem
    rw [dropped_setPhase, List.append_assoc] at hmem
    rcases List.mem_append.mp hmem with hnew | hold
    · obtain ⟨rfl, rfl⟩ := hposted other hnew
      exact hself
    · exact (hother (hdropped other hold)).trans (h.dropped_phase other hold)
  case claimed_phase =>
    intro other hclaimed
    by_cases hnumber : other = number
    · subst hnumber
      rw [hself]
      exact fun heq ↦ hafter (Option.some.inj heq)
    · rw [hother hnumber]
      rcases hclaim with hsame | ⟨hsome, -⟩
      · exact h.claimed_phase other (hsame ▸ hclaimed)
      · exact absurd (Option.some.inj (hclaimed.symm.trans hsome)) hnumber

/-- The holder takes it on to release an active lease. -/
theorem takeRelease (h : ledger.InCustody hands) {lease : Lease} (hmem : lease ∈ ledger.granted)
    (hphase : ledger.phase? lease.number = some .active) :
    (ledger.setPhase lease.number .released).InCustody
      { hands with releasing := lease :: hands.releasing } := by
  have hlist := h.active lease hmem hphase
  have hunclaimed : hands.claimed ≠ some lease.number := fun hclaimed ↦
    h.claimed_phase _ hclaimed hphase
  refine h.setPhase hphase (by decide) (by decide) (by decide) [lease] []
    (List.nodup_singleton lease) ?_ (by simp) (.inl rfl) ?_
  · intro other hother
    rw [List.mem_singleton] at hother
    subst hother
    exact ⟨hlist, rfl, rfl, hunclaimed⟩
  · intro other hother hnumber
    have heq := h.eq_of_number (h.mem_granted_of_mem hother) hmem hnumber
    subst heq
    refine .releasing ?_ List.mem_cons_self
    rw [phase?_setPhase _ hphase, if_pos rfl]

/-- The holder releases a lease that a sweep has taken back. -/
theorem takeLate (h : ledger.InCustody hands) {number : Nat}
    (hphase : ledger.phase? number = some .reconciled) :
    (ledger.setPhase number .released).InCustody hands := by
  refine h.setPhase hphase (by decide) (by decide) (by decide) [] [] .nil (by simp) (by simp)
    (.inl rfl) ?_
  -- A reconciled lease that still stands on the list is the one that the sweep has claimed.
  rintro lease hmem rfl
  cases h.keeper lease hmem with
  | claimed hclaimed => exact .claimed hclaimed
  | active hother => rw [hphase] at hother; cases hother
  | releasing hother _ => rw [hphase] at hother; cases hother
  | dropped hother _ => rw [hphase] at hother; cases hother

/-- The holder drops an active lease. -/
theorem takeDrop (h : ledger.InCustody hands) {number : Nat}
    (hphase : ledger.phase? number = some .active) :
    (ledger.setPhase number .abandoned).InCustody
      { hands with posting := number :: hands.posting } := by
  refine h.setPhase hphase (by decide) (by decide) (by decide) [] [number] .nil (by simp) (by simp)
    (.inl rfl) ?_
  rintro lease hmem rfl
  refine .dropped ?_ List.mem_cons_self
  rw [phase?_setPhase _ hphase, if_pos rfl]

/-- A sweep claims a lease that it saw to be stale, or leaves it to its holder. -/
theorem claim (h : ledger.InCustody hands) (hfree : hands.claimed = none) (number : Nat) :
    (ledger.claim number).1.InCustody
      { hands with claimed := if (ledger.claim number).2 then some number else none } := by
  unfold Ledger.claim
  split
  · next hexchange =>
    obtain ⟨hphase, rfl⟩ := ledger.exchange_eq_some_iff.mp hexchange
    exact h.setPhase hphase (by decide) (by decide) (by decide) [] [] .nil (by simp) (by simp)
      (.inr ⟨rfl, hfree⟩) fun lease _ hnumber ↦ .claimed (hnumber ▸ rfl)
  · by_cases hphase : ledger.phase? number = some .abandoned
    · rw [if_pos (decide_eq_true hphase)]
      refine { h with keeper := ?_, releasing_unclaimed := ?_, claimed_phase := ?_ }
      · intro lease hmem
        refine (h.keeper lease hmem).imp (fun _ ↦ id) ?_ id id
        intro hclaimed
        rw [hfree] at hclaimed
        cases hclaimed
      · intro lease hmem hclaimed
        have hreleased := h.releasing_phase lease hmem
        rw [← Option.some.inj hclaimed, hphase] at hreleased
        cases hreleased
      · intro other hclaimed hactive
        rw [← Option.some.inj hclaimed, hphase] at hactive
        cases hactive
    · rw [if_neg (by simpa using hphase), ← hfree]
      exact h

/-! ### The queue of dropped leases -/

/-- The number of a dropped lease arrives in the queue. -/
theorem post (h : ledger.InCustody hands) {number : Nat} (hmem : number ∈ hands.posting) :
    (ledger.post number).InCustody { hands with posting := hands.posting.erase number } := by
  refine { h with keeper := ?_, dropped_phase := ?_ }
  · intro lease hlist
    refine (h.keeper lease hlist).imp (fun _ ↦ id) id id ?_
    intro hdropped
    simp only [Ledger.post, List.mem_append, List.mem_singleton] at hdropped ⊢
    by_cases hnumber : lease.number = number
    · exact .inr (.inr hnumber)
    · rcases hdropped with hposting | hqueued
      · exact .inl ((List.mem_erase_of_ne hnumber).mpr hposting)
      · exact .inr (.inl hqueued)
  · intro other hother
    simp only [Ledger.post, List.mem_append, List.mem_singleton] at hother
    rcases hother with hposting | hqueued | rfl
    · exact h.dropped_phase other (List.mem_append_left _ (List.mem_of_mem_erase hposting))
    · exact h.dropped_phase other (List.mem_append_right _ hqueued)
    · exact h.dropped_phase other (List.mem_append_left _ hmem)

/-- The first number in the queue is taken up, if its lease is off the list. -/
theorem unqueue (h : ledger.InCustody hands) {number : Nat} {rest : List Nat}
    (hqueue : ledger.dropped = number :: rest)
    (hoff : ∀ lease ∈ ledger.outstanding, lease.number ≠ number) :
    { ledger with dropped := rest }.InCustody hands := by
  refine { h with keeper := ?_, dropped_phase := ?_ }
  · intro lease hlist
    refine (h.keeper lease hlist).imp (fun _ ↦ id) id id ?_
    intro hdropped
    rw [hqueue] at hdropped
    rcases List.mem_append.mp hdropped with hposting | hqueued
    · exact List.mem_append_left _ hposting
    · exact List.mem_append_right _ (List.mem_of_ne_of_mem (hoff lease hlist) hqueued)
  · intro other hother
    refine h.dropped_phase other ?_
    rw [hqueue]
    rcases List.mem_append.mp hother with hposting | hqueued
    · exact List.mem_append_left _ hposting
    · exact List.mem_append_right _ (List.mem_cons_of_mem _ hqueued)

/-! ### Taking leases off the list -/

/-- A lease that is no longer active is taken off the list. -/
theorem remove (h : ledger.InCustody hands) {lease : Lease} (hmem : lease ∈ ledger.outstanding)
    (hphase : ledger.phase? lease.number ≠ some .active) :
    (ledger.remove lease.number).InCustody
      { hands with
        releasing := hands.releasing.erase lease
        away := lease :: hands.away } := by
  have hperm := ledger.perm_remove h.nodup_outstanding hmem
  have hrest : ∀ other ∈ (ledger.remove lease.number).outstanding, other ∈ ledger.outstanding :=
    fun other hother ↦ (ledger.mem_remove.mp hother).1
  constructor
  case numbers => exact h.numbers
  case granted =>
    refine h.granted.trans ((hperm.append_left _).trans ?_)
    exact List.perm_middle
  case keeper =>
    intro other hother
    refine (h.keeper other (hrest other hother)).imp (fun _ ↦ id) id ?_ id
    intro hheld
    have hne : other ≠ lease := by
      rintro rfl
      exact (ledger.mem_remove.mp hother).2 rfl
    exact (List.mem_erase_of_ne hne).mpr hheld
  case active =>
    intro other hother hactive
    refine ledger.mem_remove.mpr ⟨h.active other hother hactive, fun hnumber ↦ hphase ?_⟩
    exact hnumber ▸ hactive
  case releasing_nodup => exact h.releasing_nodup.erase lease
  case releasing_mem =>
    intro other hother
    have hheld := List.mem_of_mem_erase hother
    have hne : other ≠ lease := by
      rintro rfl
      exact h.releasing_nodup.not_mem_erase hother
    have hlist := h.releasing_mem other hheld
    refine ledger.mem_remove.mpr ⟨hlist, fun hnumber ↦ hne ?_⟩
    exact h.eq_of_number (h.mem_granted_of_mem hlist) (h.mem_granted_of_mem hmem) hnumber
  case releasing_phase =>
    exact fun other hother ↦ h.releasing_phase other (List.mem_of_mem_erase hother)
  case releasing_unclaimed =>
    exact fun other hother ↦ h.releasing_unclaimed other (List.mem_of_mem_erase hother)
  case dropped_phase => exact h.dropped_phase
  case claimed_phase => exact h.claimed_phase

/-- A sweep takes the lease of a number off the list, if it is there, unless its holder has it. -/
theorem reclaim (h : ledger.InCustody hands) {number : Nat} (loss : Loss)
    (hphase : ledger.phase? number ≠ some .active)
    (hunheld : ∀ lease ∈ hands.releasing, lease.number ≠ number) :
    (ledger.reclaim number loss).1.InCustody
      { hands with
        away := (ledger.reclaim number loss).2.map (·.lease) ++ hands.away } := by
  unfold Ledger.reclaim
  split
  · exact h
  · next lease hfind =>
    obtain ⟨hmem, rfl⟩ := ledger.find?_eq_some hfind
    have hremoved := h.remove hmem hphase
    rwa [List.erase_of_not_mem fun hheld ↦ hunheld lease hheld rfl] at hremoved

/-- A sweep takes up the first number in the queue. -/
theorem receive (h : ledger.InCustody hands) {changed : Ledger} {taken : List Reclaimed}
    (hreceive : ledger.receive = some (changed, taken)) :
    changed.InCustody { hands with away := taken.map (·.lease) ++ hands.away } := by
  unfold Ledger.receive at hreceive
  split at hreceive
  · cases hreceive
  · next number rest hqueue =>
    have hphase : ledger.phase? number = some .abandoned := by
      refine h.dropped_phase number (List.mem_append_right _ ?_)
      rw [hqueue]
      exact List.mem_cons_self
    have hunheld : ∀ lease ∈ hands.releasing, lease.number ≠ number := by
      rintro lease hmem rfl
      have hreleased := h.releasing_phase lease hmem
      rw [hphase] at hreleased
      cases hreleased
    have htaken := h.reclaim .dropped (by rw [hphase]; decide) hunheld
    have hqueued := (ledger.dropped_reclaim number .dropped).trans hqueue
    have hoff := htaken.unqueue hqueued fun lease hmem ↦
      (ledger.mem_outstanding_reclaim.mp hmem).2
    rw [Ledger.reclaim_dropped] at hreceive
    obtain ⟨rfl, rfl⟩ := Prod.ext_iff.mp (Option.some.inj hreceive)
    exact hoff

/-- A sweep takes the lease that it claimed off the list. -/
theorem takeClaimed (h : ledger.InCustody hands) {number : Nat}
    (hclaimed : hands.claimed = some number) :
    (ledger.reclaim number .stale).1.InCustody
      { hands with
        claimed := none
        away := (ledger.reclaim number .stale).2.map (·.lease) ++ hands.away } := by
  have hunheld : ∀ lease ∈ hands.releasing, lease.number ≠ number := by
    rintro lease hmem rfl
    exact h.releasing_unclaimed lease hmem hclaimed
  have htaken := h.reclaim .stale (h.claimed_phase number hclaimed) hunheld
  refine { htaken with keeper := ?_, releasing_unclaimed := by simp, claimed_phase := by simp }
  intro lease hmem
  refine (htaken.keeper lease hmem).imp (fun _ ↦ id) ?_ id id
  intro hsame
  have hnumber : number = lease.number := Option.some.inj (hclaimed.symm.trans hsame)
  exact absurd hnumber.symm (ledger.mem_outstanding_reclaim.mp hmem).2

/-- The order of the leases off the list does not matter. -/
theorem perm_away (h : ledger.InCustody hands) {away : List Lease} (hperm : hands.away.Perm away) :
    ledger.InCustody { hands with away } := by
  refine { h with granted := h.granted.trans (hperm.append_right _), keeper := ?_ }
  intro lease hmem
  exact (h.keeper lease hmem).imp (fun _ ↦ id) id id id

end InCustody

end Ledger

end Admission
