import Admission.Proofs.Uninterrupted

/-!
# Every lease is settled at most once, whoever comes first

Releasers, droppers and sweeps race for a lease, and one of them settles it.
`Activity.settled_at_most_once` says so of every run of events, that is, of every order in which the
steps of any number of parties may come: no lease is settled twice, what is settled stays settled
and comes back nowhere, and until it is settled somebody answers for it. The counts of its category
are those of the settlements.

When nobody is at work, a lease that is not settled is either active or has its number in the queue
(`Sound.active_or_queued`), and a sweep that nobody interrupts leaves the active ones alone on the
list (`Sound.active_after_sweep`).
-/

set_option autoImplicit false
set_option relaxedAutoImplicit false

namespace Admission

/-- A sweep leaves nothing in the queue. -/
theorem Controller.dropped_sweep {R : Type} [Scalar R] (controller : Controller R)
    (settings : ControllerSettings) (now : Nat) :
    (controller.sweep settings now).controller.ledger.dropped = [] := by
  rw [ledger_sweep]
  exact controller.ledger.dropped_collect now _

namespace Activity

variable {R : Type} {activity next last : Activity R}

/-- The leases granted and not settled yet. -/
def unsettled (activity : Activity R) : List Lease :=
  activity.controller.ledger.granted.filter fun lease ↦
    lease ∉ activity.settled.map (·.lease)

/-- Nobody is at work: no sweep runs, and whoever took something on has done it. -/
structure AtRest (activity : Activity R) : Prop where
  sweep : activity.sweep = none
  releasing : activity.releasing = []
  posting : activity.posting = []

/-- Every lease granted is settled at most once, and somebody answers for it until then. -/
structure Orderly (activity : Activity R) : Prop where
  /-- No lease is settled twice, be it in one manner or in both. -/
  once : (activity.settled.map (·.lease)).Nodup
  granted : ∀ settlement ∈ activity.settled,
    settlement.lease ∈ activity.controller.ledger.granted
  /-- A lease that is settled is off the list, and no sweep is going to settle it. -/
  gone : ∀ settlement ∈ activity.settled,
    settlement.lease ∉ activity.controller.ledger.outstanding ∧ settlement.lease ∉ activity.taken
  /-- A lease that is not settled was taken by the running sweep, or stands on the list and has a
  keeper. -/
  answered : ∀ lease ∈ activity.unsettled, lease ∈ activity.taken ∨
    lease ∈ activity.controller.ledger.outstanding ∧
      activity.controller.ledger.Keeper activity.hands lease
  active : ∀ (position : Nat) (category : Category R),
    activity.controller.categories[position]? = some category →
      category.active = activity.unsettled.countP fun lease ↦ lease.category = position
  finished : ∀ (position : Nat) (category : Category R),
    activity.controller.categories[position]? = some category →
      category.durations.count = activity.settled.countP fun settlement ↦
        settlement.lease.category = position ∧ settlement.manner = .finished
  lost : ∀ (position : Nat) (category : Category R),
    activity.controller.categories[position]? = some category →
      category.abandoned = activity.settled.countP fun settlement ↦
        settlement.lease.category = position ∧ settlement.manner = .lost

namespace Sound

theorem nodup_settled (h : activity.Sound) : (activity.settled.map (·.lease)).Nodup := by
  have haway : (activity.settled.map (·.lease) ++ activity.taken).Nodup :=
    List.Nodup.of_map _ h.custody.nodup_away
  exact haway.of_append_left

/-- The leases that are not settled are those that count as held. -/
theorem mem_unsettled_iff (h : activity.Sound) {lease : Lease} :
    lease ∈ activity.unsettled ↔
      lease ∈ activity.taken ∨ lease ∈ activity.controller.ledger.outstanding := by
  have haway : (activity.settled.map (·.lease) ++ activity.taken).Nodup :=
    List.Nodup.of_map _ h.custody.nodup_away
  have hparts : lease ∈ activity.controller.ledger.granted ↔
      lease ∈ activity.hands.away ∨ lease ∈ activity.controller.ledger.outstanding :=
    h.custody.mem_granted_iff
  simp only [hands, List.mem_append] at hparts
  simp only [unsettled, List.mem_filter, decide_eq_true_eq, hparts]
  constructor
  · rintro ⟨(hsettled | htaken) | hlist, hnot⟩
    · exact absurd hsettled hnot
    · exact .inl htaken
    · exact .inr hlist
  · rintro (htaken | hlist)
    · refine ⟨.inl (.inr htaken), fun hsettled ↦ ?_⟩
      exact (List.nodup_append.mp haway).2.2 lease hsettled lease htaken rfl
    · refine ⟨.inr hlist, fun hsettled ↦ ?_⟩
      exact h.custody.not_mem_of_away (List.mem_append_left _ hsettled) hlist

theorem perm_unsettled (h : activity.Sound) : activity.unsettled.Perm activity.held := by
  have hgranted : activity.controller.ledger.granted.Nodup :=
    List.Nodup.of_map _ h.custody.nodup_numbers
  have hheld : activity.held.Nodup := by
    have hparts : (activity.settled.map (·.lease) ++ activity.taken ++
        activity.controller.ledger.outstanding).Nodup :=
      List.Nodup.of_map _ h.custody.nodup_parts
    rw [List.append_assoc] at hparts
    exact hparts.of_append_right
  refine (List.perm_ext_iff_of_nodup (hgranted.filter _) hheld).mpr fun lease ↦ ?_
  rw [held, List.mem_append]
  exact h.mem_unsettled_iff

theorem orderly (h : activity.Sound) : activity.Orderly where
  once := h.nodup_settled
  granted settlement hmem :=
    h.custody.mem_granted_iff.mpr (.inl (List.mem_append_left _ (List.mem_map_of_mem hmem)))
  gone settlement hmem := by
    have hsettled : settlement.lease ∈ activity.settled.map (·.lease) := List.mem_map_of_mem hmem
    have hnot : settlement.lease ∉ activity.unsettled := by
      intro hunsettled
      exact of_decide_eq_true (List.mem_filter.mp hunsettled).2 hsettled
    rw [h.mem_unsettled_iff, not_or] at hnot
    exact ⟨hnot.2, hnot.1⟩
  answered lease hmem := by
    rcases h.mem_unsettled_iff.mp hmem with htaken | hlist
    · exact .inl htaken
    · exact .inr ⟨hlist, h.custody.keeper lease hlist⟩
  active position category hcategory := by
    rw [h.perm_unsettled.countP_eq]
    exact congrArg Account.active (h.balanced.account position category hcategory)
  finished position category hcategory :=
    congrArg Account.finished (h.balanced.account position category hcategory)
  lost position category hcategory :=
    congrArg Account.abandoned (h.balanced.account position category hcategory)

/-! ### When nobody is at work -/

theorem active_or_queued (h : activity.Sound) (hrest : activity.AtRest) :
    ∀ lease ∈ activity.controller.ledger.outstanding,
      activity.controller.ledger.phase? lease.number = some .active ∨
        activity.controller.ledger.phase? lease.number = some .abandoned ∧
          lease.number ∈ activity.controller.ledger.dropped := by
  intro lease hmem
  cases h.custody.keeper lease hmem with
  | claimed hclaimed =>
    have hnone : activity.hands.claimed = none := claimed_of_free hrest.sweep
    rw [hnone] at hclaimed
    cases hclaimed
  | active hactive => exact .inl hactive
  | releasing _ hheld =>
    have hnobody : activity.hands.releasing = [] := hrest.releasing
    rw [hnobody] at hheld
    cases hheld
  | dropped habandoned hdropped =>
    have hnothing : activity.hands.posting = [] := hrest.posting
    rw [hnothing, List.nil_append] at hdropped
    exact .inr ⟨habandoned, hdropped⟩

variable [Scalar R]

/-- A sweep that nobody interrupts leaves nobody's lease but those of holders. -/
theorem active_after_sweep (h : activity.Sound) (hrest : activity.AtRest)
    (settings : ControllerSettings) (now : Nat) :
    ∀ lease ∈ (activity.controller.sweep settings now).controller.ledger.outstanding,
      (activity.controller.sweep settings now).controller.ledger.phase? lease.number =
        some .active := by
  intro lease hmem
  obtain ⟨events, hrun⟩ := proceeds_sweep activity hrest.sweep settings now
  rcases (h.run hrun).active_or_queued ⟨rfl, hrest.releasing, hrest.posting⟩ lease hmem with
    hactive | ⟨-, hqueued⟩
  · exact hactive
  · rw [Controller.dropped_sweep] at hqueued
    cases hqueued

end Sound

/-! ### What is settled stays settled -/

variable [Scalar R]

theorem settled_step {event : Event} (hstep : activity.step event = some next) :
    activity.settled <:+ next.settled := by
  rw [(dealt_step hstep).settled]
  exact List.suffix_append ..

theorem settled_run {events : List Event} (hrun : activity.run events = some next) :
    activity.settled <:+ next.settled :=
  run_induction (motive := fun later ↦ activity.settled <:+ later.settled)
    (fun hstep hsuffix ↦ hsuffix.trans (settled_step hstep)) hrun List.suffix_rfl

/-- In every run that starts with a fresh controller each lease is settled at most once and has
somebody who answers for it until then; once settled it stays so and comes back nowhere. Whenever
nobody is at work, the leases on the list are active or queued, and a sweep leaves the active ones.
-/
theorem settled_at_most_once (id : String) (timings : Timings) (source : Source) (now : Nat)
    {events later : List Event}
    (hrun : (quiet (.build id timings source now) []).run events = some activity)
    (hlater : activity.run later = some last) :
    activity.Orderly ∧
      activity.settled <:+ last.settled ∧
      (∀ settlement ∈ activity.settled,
        settlement.lease ∉ last.controller.ledger.outstanding ∧ settlement.lease ∉ last.taken) ∧
      (activity.AtRest →
        (∀ lease ∈ activity.controller.ledger.outstanding,
          activity.controller.ledger.phase? lease.number = some .active ∨
            activity.controller.ledger.phase? lease.number = some .abandoned ∧
              lease.number ∈ activity.controller.ledger.dropped) ∧
        ∀ (settings : ControllerSettings) (time : Nat),
          ∀ lease ∈ (activity.controller.sweep settings time).controller.ledger.outstanding,
            (activity.controller.sweep settings time).controller.ledger.phase? lease.number =
              some .active) := by
  have hsound := (Sound.start id timings source now).run hrun
  have hsuffix := settled_run hlater
  refine ⟨hsound.orderly, hsuffix, ?_, ?_⟩
  · intro settlement hmem
    exact (hsound.run hlater).orderly.gone settlement (hsuffix.subset hmem)
  · intro hrest
    exact ⟨hsound.active_or_queued hrest, hsound.active_after_sweep hrest⟩

/-- Such a run: of two leases one is dropped and its number comes late to the queue, so that the
first sweep does not find it; the other is released after that sweep saw it to be stale and before
it could claim it. -/
theorem settled_at_most_once_race :
    ∃ (source : Source) (events later : List Event) (activity last : Activity Rat),
      (quiet (.build "main" {} source 0) []).run events = some activity ∧
      activity.run later = some last ∧
      last.settled = [⟨⟨0, 0, 0⟩, .lost⟩, ⟨⟨1, 0, 0⟩, .finished⟩] ∧
      activity.Orderly := by
  let source : Source := ⟨fun _ ↦ ⟨0, {}⟩, fun _ _ ↦ none⟩
  let events : List Event :=
    [.lookUp source 0 "a", .answer source { enabled := false } 0 0,
      .answer source { enabled := false } 0 0, .takeDrop ⟨0, 0, 0⟩, .beginSweep {} 3600000,
      .sweepOn, .sweepOn, .takeRelease ⟨1, 0, 0⟩, .post 0, .sweepOn, .sweepOn, .sweepOn]
  let later : List Event :=
    [.settle {} 3600000 ⟨1, 0, 0⟩, .beginSweep {} 3600000, .sweepOn, .sweepOn, .sweepOn, .sweepOn,
      .sweepOn, .sweepOn]
  have hsettled : ((quiet (.build "main" {} source 0 : Controller Rat) []).run
      (events ++ later)).map (·.settled) =
        some [⟨⟨0, 0, 0⟩, .lost⟩, ⟨⟨1, 0, 0⟩, .finished⟩] := by
    decide +kernel
  obtain ⟨last, hlast, hsettled⟩ := Option.map_eq_some_iff.mp hsettled
  rw [run_append] at hlast
  obtain ⟨activity, hrun, hlater⟩ := Option.bind_eq_some_iff.mp hlast
  exact ⟨source, events, later, activity, last, hrun, hlater, hsettled,
    (settled_at_most_once _ _ _ _ hrun hlater).1⟩

end Activity

end Admission
