import Admission.Proofs.Activity

/-!
# Operations that nobody interrupts

The operations of a controller are written as if nothing else happened meanwhile. Each is a run of
events all the same: a sweep takes up the numbers in the queue one by one, claims the stale leases
one by one and settles what it took one by one, and a request or a release is a few events around
its own. So a controller that one party after another acts on is an activity that comes to rest
after every operation, and what holds in the course of every run holds in the course of every
operation.
-/

set_option autoImplicit false
set_option relaxedAutoImplicit false

namespace Admission

open Ledger (Reclaimed)

/-- The settlement of a lease that a sweep took back. -/
def Ledger.Reclaimed.settlement (reclaimed : Reclaimed) : Settlement := ⟨reclaimed.lease, .lost⟩

/-- What a caller can ask of a controller. Leases are named by their numbers, and any that was ever
granted may be named. -/
inductive Operation where
  /-- Looks up a category, which is created if need be. -/
  | lookUp (name : String)
  /-- Asks for a lease of a category that was looked up before. -/
  | requestAt (position : Nat)
  /-- Looks up a category and asks for a lease of it. -/
  | request (name : String)
  | release (number : Nat)
  | drop (number : Nat)
  /-- Gives up a lease without a trace. -/
  | forget (number : Nat)
  | heartbeat (number : Nat)
  | supervise (number : Nat)
  | reconcile
  /-- Reads the settings if the copy is old. -/
  | refresh
  /-- Reads the settings. -/
  | readSettings
deriving DecidableEq

/-- An operation, with the source and the clock as they are at the time. From one move to the next
the source may change in any way, and the clock may go forwards or backwards. -/
structure Move where
  operation : Operation
  source : Source
  now : Nat

namespace Controller

variable {R : Type}

/-- Does something with the lease of a number, if it was granted. -/
def onLease (controller : Controller R) (number : Nat) (action : Lease → Controller R) :
    Controller R :=
  match controller.ledger.lease? number with
  | none => controller
  | some lease => action lease

variable [Scalar R]

/-- The controller after a move. -/
def perform (controller : Controller R) (move : Move) : Controller R :=
  match move.operation with
  | .lookUp name => (controller.getCategory move.source move.now name).1
  | .requestAt position => (controller.requestAt move.source move.now position).controller
  | .request name => (controller.request move.source move.now name).controller
  | .release number => controller.onLease number fun lease ↦
      (controller.release move.source move.now lease).controller
  | .drop number => controller.onLease number fun lease ↦ (controller.drop lease).controller
  | .forget _ => controller
  | .heartbeat number => controller.onLease number fun lease ↦ controller.heartbeat move.now lease
  | .supervise number => controller.onLease number controller.supervise
  | .reconcile => (controller.reconcile move.source move.now).controller
  | .refresh => controller.refreshSettings move.source move.now
  | .readSettings => controller.readSettings move.source move.now

/-- The controller after several moves. -/
def run (controller : Controller R) (moves : List Move) : Controller R :=
  moves.foldl perform controller

end Controller

namespace Activity

variable {R : Type} [Scalar R]

/-- Some run leads from one activity to the other. -/
def Proceeds (activity next : Activity R) : Prop := ∃ events, activity.run events = some next

namespace Proceeds

theorem refl (activity : Activity R) : activity.Proceeds activity := ⟨[], rfl⟩

theorem trans {first second third : Activity R} (h : first.Proceeds second)
    (h' : second.Proceeds third) : first.Proceeds third := by
  obtain ⟨events, hevents⟩ := h
  obtain ⟨others, hothers⟩ := h'
  refine ⟨events ++ others, ?_⟩
  rw [run_append, hevents]
  exact hothers

theorem of_step {activity next : Activity R} (event : Event)
    (h : activity.step event = some next) : activity.Proceeds next := by
  refine ⟨[event], ?_⟩
  rw [run_cons, h]
  rfl

/-- One step of the running sweep, and what follows it. -/
theorem of_sweepOn {activity next : Activity R} {sweep : Sweep}
    (hsweep : activity.sweep = some sweep) (h : (activity.sweepOn sweep).Proceeds next) :
    activity.Proceeds next := by
  refine trans (of_step .sweepOn ?_) h
  rw [step, hsweep]
  rfl

end Proceeds

/-! ### A sweep -/

section Sweep

variable (activity : Activity R) (settings : ControllerSettings) (now : Nat)

/-- The sweep takes up every number in the queue. -/
theorem proceeds_receiveAll {numbers : List Nat} {ledger : Ledger} (taken : List Reclaimed)
    (h : ledger.dropped = numbers) :
    (activity.goOn ledger ⟨settings, now, .receiving, taken⟩).Proceeds
      (activity.goOn (ledger.receiveAll numbers).1
        ⟨settings, now, .receiving, taken ++ (ledger.receiveAll numbers).2⟩) := by
  induction numbers generalizing ledger taken with
  | nil =>
    rw [Ledger.receiveAll, List.append_nil]
    exact .refl _
  | cons number rest ih =>
    have hqueue : ({ ledger with dropped := rest }.reclaim number .dropped).1.dropped = rest :=
      Ledger.dropped_reclaim ..
    have hrest := ih (taken ++ ({ ledger with dropped := rest }.reclaim number .dropped).2) hqueue
    refine .of_sweepOn rfl ?_
    simp only [sweepOn, goOn, withLedger, withController, Ledger.receive, h,
      Ledger.receiveAll] at hrest ⊢
    rw [← List.append_assoc]
    exact hrest

/-- The sweep takes back every lease that it saw to be stale and that nobody has released. -/
theorem proceeds_claimAll {stale : List Nat} (ledger : Ledger) (taken : List Reclaimed) :
    (activity.goOn ledger ⟨settings, now, .claiming stale, taken⟩).Proceeds
      (activity.goOn (ledger.claimAll stale).1
        ⟨settings, now, .claiming [], taken ++ (ledger.claimAll stale).2⟩) := by
  induction stale generalizing ledger taken with
  | nil =>
    rw [Ledger.claimAll, List.append_nil]
    exact .refl _
  | cons number rest ih =>
    rcases hclaim : ledger.claim number with ⟨claimed, _ | _⟩
    · have hstale : ledger.claimStale number = (claimed, []) := by
        rw [Ledger.claimStale, hclaim]
      have hrest := ih claimed taken
      refine .of_sweepOn rfl ?_
      simp only [sweepOn, goOn, withLedger, withController, hclaim, Ledger.claimAll, hstale,
        List.nil_append] at hrest ⊢
      exact hrest
    · have hstale : ledger.claimStale number = claimed.reclaim number .stale := by
        rw [Ledger.claimStale, hclaim]
      have hrest := ih (claimed.reclaim number .stale).1
        (taken ++ (claimed.reclaim number .stale).2)
      have hclaims :
          (activity.goOn ledger ⟨settings, now, .claiming (number :: rest), taken⟩).sweepOn
              ⟨settings, now, .claiming (number :: rest), taken⟩ =
            activity.goOn claimed ⟨settings, now, .taking number rest, taken⟩ := by
        simp only [sweepOn, goOn, withLedger, withController, hclaim]
      refine .of_sweepOn rfl ?_
      rw [hclaims]
      refine .of_sweepOn rfl ?_
      simp only [Ledger.claimAll, hstale]
      rw [← List.append_assoc]
      exact hrest

/-- The sweep takes every lost lease off the list. -/
theorem proceeds_collect (ledger : Ledger) :
    (activity.goOn ledger ⟨settings, now, .receiving, []⟩).Proceeds
      (activity.goOn (ledger.collect now activity.controller.timings.abandonAfter).1
        ⟨settings, now, .settling,
          (ledger.collect now activity.controller.timings.abandonAfter).2⟩) := by
  have hreceive := activity.proceeds_receiveAll settings now [] (rfl : ledger.dropped = _)
  have hempty : (ledger.receiveAll ledger.dropped).1.receive = none := by
    rw [Ledger.receive, Ledger.dropped_receiveAll rfl]
  refine hreceive.trans ?_
  rcases hbound : activity.controller.timings.abandonAfter with _ | bound
  · have hsettle : (activity.goOn (ledger.receiveAll ledger.dropped).1
        ⟨settings, now, .receiving, [] ++ (ledger.receiveAll ledger.dropped).2⟩).sweepOn
          ⟨settings, now, .receiving, [] ++ (ledger.receiveAll ledger.dropped).2⟩ =
        activity.goOn (ledger.collect now none).1
          ⟨settings, now, .settling, (ledger.collect now none).2⟩ := by
      simp only [sweepOn, goOn, withLedger, withController, hempty, hbound, Ledger.collect,
        List.nil_append]
    refine .of_sweepOn rfl ?_
    rw [hsettle]
    exact .refl _
  · have hlist : (activity.goOn (ledger.receiveAll ledger.dropped).1
        ⟨settings, now, .receiving, [] ++ (ledger.receiveAll ledger.dropped).2⟩).sweepOn
          ⟨settings, now, .receiving, [] ++ (ledger.receiveAll ledger.dropped).2⟩ =
        activity.goOn (ledger.receiveAll ledger.dropped).1
          ⟨settings, now, .listing bound, (ledger.receiveAll ledger.dropped).2⟩ := by
      simp only [sweepOn, goOn, withLedger, withController, hempty, hbound, List.nil_append]
    refine .of_sweepOn rfl ?_
    rw [hlist]
    -- The list of stale leases is read, gone through to its end, and found to be at its end.
    refine .of_sweepOn rfl ((proceeds_claimAll activity settings now _ _).trans ?_)
    exact .of_sweepOn rfl (.refl _)

/-- The sweep settles everything it has taken, and ends. -/
theorem proceeds_abandonAll (taken : List Reclaimed) (activity : Activity R) :
    { activity with sweep := some ⟨settings, now, .settling, taken⟩ }.Proceeds
      { activity with
        controller := activity.controller.abandonAll settings now taken
        sweep := none
        settled := (taken.map Ledger.Reclaimed.settlement).reverse ++ activity.settled } := by
  induction taken generalizing activity with
  | nil => exact .of_sweepOn rfl (.refl _)
  | cons reclaimed rest ih =>
    have hrest := ih
      { activity with
        controller := activity.controller.abandonOne settings now reclaimed
        settled := reclaimed.settlement :: activity.settled }
    refine .of_sweepOn rfl ?_
    rw [List.map_cons, List.reverse_cons, List.append_assoc]
    exact hrest

end Sweep

/-- A sweep that nobody interrupts takes back what `Ledger.collect` does, and settles it. -/
theorem proceeds_sweep (activity : Activity R) (hfree : activity.sweep = none)
    (settings : ControllerSettings) (now : Nat) :
    activity.Proceeds
      { activity with
        controller := (activity.controller.sweep settings now).controller
        sweep := none
        settled := ((activity.controller.sweep settings now).answer.map
          Ledger.Reclaimed.settlement).reverse ++ activity.settled } := by
  have hbegin : activity.step (.beginSweep settings now) = some
      { activity with
        controller := { activity.controller with lastSweepAt := now }
        sweep := some ⟨settings, now, .receiving, []⟩ } :=
    locked_eq_some_iff.mpr ⟨hfree, rfl⟩
  have hcollect := proceeds_collect
    (activity.withController { activity.controller with lastSweepAt := now }) settings now
    activity.controller.ledger
  have habandon := proceeds_abandonAll settings now
    (activity.controller.ledger.collect now activity.controller.timings.abandonAfter).2
    (activity.withController { activity.controller with
      ledger := (activity.controller.ledger.collect now activity.controller.timings.abandonAfter).1
      lastSweepAt := now })
  exact .trans (.of_step _ hbegin) (hcollect.trans habandon)

/-! ### The other operations -/

/-- A party that comes and goes leaves a quiet controller behind. -/
def LeadsTo (controller next : Controller R) : Prop :=
  ∀ settled, ∃ settled', (quiet controller settled).Proceeds (quiet next settled')

namespace LeadsTo

theorem refl (controller : Controller R) : LeadsTo controller controller :=
  fun settled ↦ ⟨settled, .refl _⟩

theorem trans {first second third : Controller R} (h : LeadsTo first second)
    (h' : LeadsTo second third) : LeadsTo first third := by
  intro settled
  obtain ⟨middle, hmiddle⟩ := h settled
  obtain ⟨last, hlast⟩ := h' middle
  exact ⟨last, hmiddle.trans hlast⟩

theorem of_step {controller next : Controller R} (event : Event)
    (h : ∀ settled, (quiet controller settled).step event = some (quiet next settled)) :
    LeadsTo controller next :=
  fun settled ↦ ⟨settled, .of_step event (h settled)⟩

variable (controller : Controller R)

theorem sweep (settings : ControllerSettings) (now : Nat) :
    LeadsTo controller (controller.sweep settings now).controller :=
  fun settled ↦ ⟨_, proceeds_sweep (quiet controller settled) rfl settings now⟩

theorem refreshSettings (source : Source) (now : Nat) :
    LeadsTo controller (controller.refreshSettings source now) :=
  of_step (.refresh source now) fun _ ↦ rfl

theorem getCategory (source : Source) (now : Nat) (name : String) :
    LeadsTo controller (controller.getCategory source now name).1 :=
  of_step (.lookUp source now name) fun _ ↦ rfl

theorem count (now position : Nat) :
    LeadsTo controller (controller.countSubmission now position) :=
  of_step (.count now position) fun _ ↦ rfl

theorem answerAt (source : Source) (settings : ControllerSettings) (now position : Nat) :
    LeadsTo controller (controller.answerAt source settings now position).controller :=
  of_step (.answer source settings now position) fun _ ↦ rfl

theorem sweepIfDue (settings : ControllerSettings) (now : Nat) :
    LeadsTo controller (controller.sweepIfDue settings now).controller := by
  unfold Controller.sweepIfDue
  split
  · exact sweep controller settings now
  · exact refl controller

/-- A request refreshes the settings, is counted, sweeps if it is time, and is answered. -/
theorem requestAt (source : Source) (now position : Nat) :
    LeadsTo controller (controller.requestAt source now position).controller :=
  (refreshSettings controller source now).trans
    ((count _ now position).trans ((sweepIfDue _ _ now).trans (answerAt _ source _ now position)))

theorem request (source : Source) (now : Nat) (name : String) :
    LeadsTo controller (controller.request source now name).controller :=
  (getCategory controller source now name).trans (requestAt _ source now _)

theorem reconcile (source : Source) (now : Nat) :
    LeadsTo controller (controller.reconcile source now).controller :=
  (refreshSettings controller source now).trans (sweep _ _ now)

/-- A holder who takes it on to release a lease settles it, and one who comes late does not. -/
theorem release (source : Source) (now : Nat) {lease : Lease}
    (hmem : lease ∈ controller.ledger.granted) :
    LeadsTo controller (controller.release source now lease).controller := by
  unfold Controller.release
  split
  · next ledger hexchange =>
    intro settled
    let taken : Controller R := { controller with ledger }
    let releasing : Activity R := { quiet taken settled with releasing := [lease] }
    have htake : (quiet controller settled).step (.takeRelease lease) = some releasing := by
      simp only [step, quiet, if_pos hmem, hexchange]
      rfl
    have hrefresh : releasing.step (.refresh source now) =
        some (releasing.withController (taken.refreshSettings source now)) := rfl
    have hsettle : (releasing.withController (taken.refreshSettings source now)).step
        (.settle (taken.refreshSettings source now).current now lease) =
          some (quiet (taken.finish source now lease).1 (⟨lease, .finished⟩ :: settled)) := by
      simp [step, releasing, withController, quiet, locked, Controller.finish]
    exact ⟨_, .trans (.of_step _ htake) (.trans (.of_step _ hrefresh) (.of_step _ hsettle))⟩
  · split
    · next ledger hexchange =>
      refine of_step (.takeLate lease.number) fun settled ↦ ?_
      simp only [step, quiet, hexchange]
      rfl
    · exact refl controller

/-- A holder who drops a lease leaves its number in the queue. -/
theorem drop {lease : Lease} (hmem : lease ∈ controller.ledger.granted) :
    LeadsTo controller (controller.drop lease).controller := by
  unfold Controller.drop
  split
  · next ledger hexchange =>
    intro settled
    let posting : Activity R :=
      { quiet { controller with ledger } settled with posting := [lease.number] }
    have htake : (quiet controller settled).step (.takeDrop lease) = some posting := by
      simp only [step, quiet, if_pos hmem, hexchange]
      rfl
    have hpost : posting.step (.post lease.number) =
        some (quiet { controller with ledger := ledger.post lease.number } settled) := by
      simp [step, posting, quiet, withLedger, withController]
    exact ⟨_, .trans (.of_step _ htake) (.of_step _ hpost)⟩
  · exact refl controller

/-- What is done with a lease leads somewhere if it does so for every lease granted. -/
theorem onLease (number : Nat) {action : Lease → Controller R}
    (h : ∀ lease ∈ controller.ledger.granted, LeadsTo controller (action lease)) :
    LeadsTo controller (controller.onLease number action) := by
  unfold Controller.onLease
  split
  · exact refl controller
  · next lease hlease => exact h lease (controller.ledger.mem_granted_of_lease? hlease)

/-- Every move is a run of events. -/
theorem perform (move : Move) : LeadsTo controller (controller.perform move) := by
  rcases move with ⟨operation, source, now⟩
  cases operation with
  | lookUp name => exact getCategory controller source now name
  | requestAt position => exact requestAt controller source now position
  | request name => exact request controller source now name
  | release number =>
    exact onLease controller number fun lease hmem ↦ release controller source now hmem
  | drop number => exact onLease controller number fun lease hmem ↦ drop controller hmem
  | forget number => exact refl controller
  | heartbeat number =>
    exact onLease controller number fun lease _ ↦ of_step (.touch lease.number now) fun _ ↦ rfl
  | supervise number =>
    exact onLease controller number fun lease _ ↦ of_step (.supervise lease.number) fun _ ↦ rfl
  | reconcile => exact reconcile controller source now
  | refresh => exact refreshSettings controller source now
  | readSettings => exact of_step (.readSettings source now) fun _ ↦ rfl

theorem run (moves : List Move) : LeadsTo controller (controller.run moves) := by
  induction moves generalizing controller with
  | nil => exact refl controller
  | cons move moves ih => exact (perform controller move).trans (ih _)

end LeadsTo

end Activity

end Admission
