import Admission.Proofs.Balance
import Admission.Proofs.Custody
import Admission.Proofs.Runs

/-!
# Many parties at work

The parties of a controller act at the same time: requests, holders that release, drop and show
signs of life, and sweeps. An `Activity` is a controller in the middle of this, with what each party
has in hand, and an `Event` is one step of one party that the others may come before or after. A
sweep holds the controller's lock from its beginning to its end, and so does a request while it
counts and answers and a release while it settles: such events wait for the sweep that is running.
Signs of life, exchanges of phases and the way of a number to the queue wait for nobody.

Events are taken apart further than the lock would let them be. A request counts in one event and
answers in another, and settings may be any that anybody ever read. So there are more runs here than
can happen, and what holds for all of them holds for those that can.

`Sound` is the invariant: the ledger is in custody and the books are balanced. `Sound.step` is what
one event keeps of it and `Sound.run` what any run keeps.
-/

set_option autoImplicit false
set_option relaxedAutoImplicit false

namespace Admission

open Ledger (Reclaimed)

/-- How far a sweep has come. -/
inductive Activity.Stage where
  /-- It takes up the numbers in the queue. -/
  | receiving
  /-- It is about to see which leases are stale. -/
  | listing (bound : Nat)
  /-- It goes through the numbers that it saw to be stale. -/
  | claiming (stale : List Nat)
  /-- It has claimed a lease and is about to take it off the list. -/
  | taking (number : Nat) (stale : List Nat)
  /-- It settles what it has taken. -/
  | settling
deriving DecidableEq

/-- The number of the lease that a sweep has claimed and not yet taken off the list. -/
def Activity.Stage.claimed : Activity.Stage → Option Nat
  | .taking number _ => some number
  | _ => none

/-- A sweep that is running. -/
structure Activity.Sweep where
  settings : ControllerSettings
  now : Nat
  stage : Activity.Stage
  /-- What it has taken off the list and not settled yet. -/
  taken : List Reclaimed

/-- A controller with what its parties have in hand. -/
structure Activity (R : Type) where
  controller : Controller R
  /-- Leases whose holder has taken it on to release them and has not settled them yet. -/
  releasing : List Lease
  /-- Numbers of dropped leases on their way to the queue. -/
  posting : List Nat
  /-- The sweep that holds the lock. -/
  sweep : Option Activity.Sweep
  /-- The leases settled, the latest first. -/
  settled : List Settlement

/-- One step of one party. -/
inductive Activity.Event where
  /-- A category is looked up, and created if need be. -/
  | lookUp (source : Source) (now : Nat) (name : String)
  | refresh (source : Source) (now : Nat)
  | readSettings (source : Source) (now : Nat)
  /-- A request is counted. -/
  | count (now position : Nat)
  /-- A request is granted or refused. -/
  | answer (source : Source) (settings : ControllerSettings) (now position : Nat)
  | touch (number now : Nat)
  | supervise (number : Nat)
  /-- A holder takes it on to release a lease. -/
  | takeRelease (lease : Lease)
  /-- The lease is settled. -/
  | settle (settings : ControllerSettings) (now : Nat) (lease : Lease)
  /-- A holder releases a lease that a sweep has taken back. -/
  | takeLate (number : Nat)
  /-- A holder drops a lease. -/
  | takeDrop (lease : Lease)
  /-- The number of a dropped lease arrives in the queue. -/
  | post (number : Nat)
  | beginSweep (settings : ControllerSettings) (now : Nat)
  /-- The running sweep makes its next step. -/
  | sweepOn

namespace Activity

variable {R : Type}

/-- A controller that nobody is at work on. -/
def quiet (controller : Controller R) (settled : List Settlement) : Activity R :=
  ⟨controller, [], [], none, settled⟩

/-- The number of the lease that the running sweep is about to take off the list. -/
def claimed (activity : Activity R) : Option Nat :=
  activity.sweep.bind fun sweep ↦ sweep.stage.claimed

/-- The leases that the running sweep has taken and not settled. -/
def taken (activity : Activity R) : List Lease :=
  match activity.sweep with
  | some sweep => sweep.taken.map (·.lease)
  | none => []

/-- What is in the hands of the parties. -/
def hands (activity : Activity R) : Hands where
  releasing := activity.releasing
  posting := activity.posting
  claimed := activity.claimed
  away := activity.settled.map (·.lease) ++ activity.taken

/-- The leases that are counted as held. -/
def held (activity : Activity R) : List Lease :=
  activity.taken ++ activity.controller.ledger.outstanding

/-- The activity with another controller. -/
def withController (activity : Activity R) (controller : Controller R) : Activity R :=
  { activity with controller }

/-- The activity with another ledger. -/
def withLedger (activity : Activity R) (ledger : Ledger) : Activity R :=
  activity.withController { activity.controller with ledger }

/-- The running sweep goes on with another ledger. -/
def goOn (activity : Activity R) (ledger : Ledger) (sweep : Sweep) : Activity R :=
  { activity.withLedger ledger with sweep := some sweep }

/-- What happens under the lock waits for the running sweep. -/
def locked (activity next : Activity R) : Option (Activity R) :=
  if activity.sweep.isNone then some next else none

section Steps

variable [Scalar R]

/-- The next step of a sweep. -/
def sweepOn (activity : Activity R) (sweep : Sweep) : Activity R :=
  let ledger := activity.controller.ledger
  match sweep.stage with
  | .receiving =>
    match ledger.receive with
    | some (ledger, taken) => activity.goOn ledger { sweep with taken := sweep.taken ++ taken }
    | none =>
      match activity.controller.timings.abandonAfter with
      | some bound => activity.goOn ledger { sweep with stage := .listing bound }
      | none => activity.goOn ledger { sweep with stage := .settling }
  | .listing bound =>
    activity.goOn ledger { sweep with stage := .claiming (ledger.staleNumbers sweep.now bound) }
  | .claiming [] => activity.goOn ledger { sweep with stage := .settling }
  | .claiming (number :: stale) =>
    match ledger.claim number with
    | (ledger, true) => activity.goOn ledger { sweep with stage := .taking number stale }
    | (ledger, false) => activity.goOn ledger { sweep with stage := .claiming stale }
  | .taking number stale =>
    let (ledger, taken) := ledger.reclaim number .stale
    activity.goOn ledger { sweep with stage := .claiming stale, taken := sweep.taken ++ taken }
  | .settling =>
    match sweep.taken with
    | [] => { activity with sweep := none }
    | reclaimed :: rest =>
      { activity with
        controller := activity.controller.abandonOne sweep.settings sweep.now reclaimed
        sweep := some { sweep with taken := rest }
        settled := ⟨reclaimed.lease, .lost⟩ :: activity.settled }

/-- What an event makes of an activity, if it can happen. -/
def step (activity : Activity R) : Event → Option (Activity R)
  | .lookUp source now name =>
    activity.locked (activity.withController (activity.controller.getCategory source now name).1)
  | .refresh source now =>
    some (activity.withController (activity.controller.refreshSettings source now))
  | .readSettings source now =>
    some (activity.withController (activity.controller.readSettings source now))
  | .count now position =>
    activity.locked (activity.withController (activity.controller.countSubmission now position))
  | .answer source settings now position =>
    activity.locked
      (activity.withController
        (activity.controller.answerAt source settings now position).controller)
  | .touch number now => some (activity.withLedger (activity.controller.ledger.touch number now))
  | .supervise number => some (activity.withLedger (activity.controller.ledger.supervise number))
  | .takeRelease lease =>
    if lease ∈ activity.controller.ledger.granted then
      (activity.controller.ledger.exchange lease.number .active .released).map fun ledger ↦
        { activity.withLedger ledger with releasing := lease :: activity.releasing }
    else none
  | .settle settings now lease =>
    if lease ∈ activity.releasing then
      activity.locked
        { activity with
          controller := activity.controller.settle settings now lease
          releasing := activity.releasing.erase lease
          settled := ⟨lease, .finished⟩ :: activity.settled }
    else none
  | .takeLate number =>
    (activity.controller.ledger.exchange number .reconciled .released).map activity.withLedger
  | .takeDrop lease =>
    if lease ∈ activity.controller.ledger.granted then
      (activity.controller.ledger.exchange lease.number .active .abandoned).map fun ledger ↦
        { activity.withLedger ledger with posting := lease.number :: activity.posting }
    else none
  | .post number =>
    if number ∈ activity.posting then
      some { activity.withLedger (activity.controller.ledger.post number) with
        posting := activity.posting.erase number }
    else none
  | .beginSweep settings now =>
    activity.locked
      { activity with
        controller := { activity.controller with lastSweepAt := now }
        sweep := some ⟨settings, now, .receiving, []⟩ }
  | .sweepOn => activity.sweep.map activity.sweepOn

/-- What a run of events makes of an activity, if it can happen. -/
def run (activity : Activity R) (events : List Event) : Option (Activity R) :=
  events.foldlM step activity

/-! ### Runs -/

variable {activity next : Activity R}

theorem run_cons (activity : Activity R) (event : Event) (events : List Event) :
    activity.run (event :: events) = (activity.step event).bind (·.run events) :=
  rfl

theorem run_append (activity : Activity R) (first second : List Event) :
    activity.run (first ++ second) = (activity.run first).bind (·.run second) :=
  List.foldlM_append

/-- What every event keeps, every run keeps. -/
theorem run_induction {motive : Activity R → Prop}
    (hstep : ∀ {activity next event}, activity.step event = some next →
      motive activity → motive next) {events : List Event} (hrun : activity.run events = some next)
    (h : motive activity) : motive next :=
  foldlM_keeps hstep hrun h

end Steps

variable {activity next : Activity R}

theorem locked_eq_some_iff {last : Activity R} :
    activity.locked next = some last ↔ activity.sweep = none ∧ next = last := by
  unfold locked
  cases activity.sweep <;> simp

/-! ### What an event deals with -/

/-- What an event does to the categories. Everything else about it concerns the leases or the copy
of the settings. -/
inductive Dealing where
  | nothing
  | lookUp (source : Source) (now : Nat) (name : String)
  | count (now position : Nat)
  | answer (source : Source) (settings : ControllerSettings) (now position : Nat)
  /-- A released lease is settled. -/
  | finish (settings : ControllerSettings) (now : Nat) (lease : Lease)
  /-- A lost lease is settled. -/
  | lose (settings : ControllerSettings) (now : Nat) (reclaimed : Reclaimed)

/-- The leases that are settled. -/
def Dealing.settled : Dealing → List Settlement
  | finish _ _ lease => [⟨lease, .finished⟩]
  | lose _ _ reclaimed => [⟨reclaimed.lease, .lost⟩]
  | _ => []

/-- The lost lease that a sweep settles next. -/
def Sweep.dealing : Sweep → Dealing
  | ⟨settings, now, .settling, reclaimed :: _⟩ => .lose settings now reclaimed
  | _ => .nothing

/-- What an event does to the categories at a time. -/
def dealing (activity : Activity R) : Event → Dealing
  | .lookUp source now name => .lookUp source now name
  | .count now position => .count now position
  | .answer source settings now position => .answer source settings now position
  | .settle settings now lease => .finish settings now lease
  | .sweepOn => activity.sweep.elim .nothing Sweep.dealing
  | _ => .nothing

/-- A sweep settles a lost lease, at its own time, or deals with nothing. -/
theorem cases_dealing_sweep (sweep : Option Sweep) :
    sweep.elim .nothing Sweep.dealing = .nothing ∨
      ∃ running reclaimed, sweep = some running ∧
        sweep.elim .nothing Sweep.dealing = .lose running.settings running.now reclaimed := by
  cases sweep with
  | none => exact .inl rfl
  | some running =>
    rw [Option.elim_some]
    unfold Sweep.dealing
    split
    · exact .inr ⟨_, _, rfl, rfl⟩
    · exact .inl rfl

section Dealing

variable [Scalar R]

/-- The controller after a dealing. -/
def Dealing.act (controller : Controller R) : Dealing → Controller R
  | nothing => controller
  | lookUp source now name => (controller.getCategory source now name).1
  | count now position => controller.countSubmission now position
  | answer source settings now position =>
    (controller.answerAt source settings now position).controller
  | finish settings now lease => controller.settle settings now lease
  | lose settings now reclaimed => controller.abandonOne settings now reclaimed

/-- An event does what it deals with, and only that settles leases. -/
structure Dealt (activity next : Activity R) (dealing : Dealing) : Prop where
  categories : next.controller.categories = (dealing.act activity.controller).categories
  index : next.controller.index = (dealing.act activity.controller).index
  totals : next.controller.totals = (dealing.act activity.controller).totals
  /-- Unless it leaves the categories alone, the event does nothing else to the leases either. -/
  ledger : dealing ≠ .nothing → next.controller.ledger = (dealing.act activity.controller).ledger
  settled : next.settled = dealing.settled ++ activity.settled

/-- What leaves the categories and what is settled alone deals with nothing. -/
theorem Dealt.of_nothing (hcategories : next.controller.categories = activity.controller.categories)
    (hindex : next.controller.index = activity.controller.index)
    (htotals : next.controller.totals = activity.controller.totals)
    (hsettled : next.settled = activity.settled) : Dealt activity next .nothing :=
  ⟨hcategories, hindex, htotals, fun hdeals ↦ absurd rfl hdeals, hsettled⟩

theorem dealt_sweepOn (activity : Activity R) (sweep : Sweep) :
    activity.Dealt (activity.sweepOn sweep) sweep.dealing := by
  rcases sweep with ⟨settings, now, stage, taken⟩
  cases stage with
  | receiving =>
    dsimp only [sweepOn, Sweep.dealing]
    split
    · exact .of_nothing rfl rfl rfl rfl
    · split <;> exact .of_nothing rfl rfl rfl rfl
  | listing bound => exact .of_nothing rfl rfl rfl rfl
  | claiming stale =>
    cases stale with
    | nil => exact .of_nothing rfl rfl rfl rfl
    | cons number stale =>
      dsimp only [sweepOn, Sweep.dealing]
      split <;> exact .of_nothing rfl rfl rfl rfl
  | taking number stale => exact .of_nothing rfl rfl rfl rfl
  | settling =>
    cases taken with
    | nil => exact .of_nothing rfl rfl rfl rfl
    | cons reclaimed rest => exact ⟨rfl, rfl, rfl, fun _ ↦ rfl, rfl⟩

theorem dealt_step {event : Event} (hstep : activity.step event = some next) :
    activity.Dealt next (activity.dealing event) := by
  cases event with
  | lookUp | count | answer =>
    obtain ⟨-, rfl⟩ := locked_eq_some_iff.mp hstep
    exact ⟨rfl, rfl, rfl, fun _ ↦ rfl, rfl⟩
  | refresh source now =>
    cases hstep
    exact .of_nothing (Controller.categories_refreshSettings ..)
      (Controller.index_refreshSettings ..) (Controller.totals_refreshSettings ..) rfl
  | readSettings | touch | supervise =>
    cases hstep
    exact .of_nothing rfl rfl rfl rfl
  | takeRelease | takeDrop =>
    simp only [step] at hstep
    split at hstep
    · obtain ⟨ledger, -, rfl⟩ := Option.map_eq_some_iff.mp hstep
      exact .of_nothing rfl rfl rfl rfl
    · cases hstep
  | settle settings now lease =>
    simp only [step] at hstep
    split at hstep
    · obtain ⟨-, rfl⟩ := locked_eq_some_iff.mp hstep
      exact ⟨rfl, rfl, rfl, fun _ ↦ rfl, rfl⟩
    · cases hstep
  | takeLate =>
    obtain ⟨ledger, -, rfl⟩ := Option.map_eq_some_iff.mp hstep
    exact .of_nothing rfl rfl rfl rfl
  | post =>
    simp only [step] at hstep
    split at hstep <;> cases hstep
    exact .of_nothing rfl rfl rfl rfl
  | beginSweep =>
    obtain ⟨-, rfl⟩ := locked_eq_some_iff.mp hstep
    exact .of_nothing rfl rfl rfl rfl
  | sweepOn =>
    obtain ⟨sweep, hsweep, rfl⟩ := Option.map_eq_some_iff.mp hstep
    rw [dealing, hsweep]
    exact activity.dealt_sweepOn sweep

end Dealing

/-! ### The invariant -/

theorem claimed_of_free (h : activity.sweep = none) : activity.claimed = none := by
  simp [claimed, h]

theorem claimed_of_sweep {sweep : Sweep} (h : activity.sweep = some sweep) :
    activity.claimed = sweep.stage.claimed := by
  simp [claimed, h]

theorem taken_of_sweep {sweep : Sweep} (h : activity.sweep = some sweep) :
    activity.taken = sweep.taken.map (·.lease) := by
  simp [taken, h]

theorem taken_of_free (h : activity.sweep = none) : activity.taken = [] := by
  simp [taken, h]

/-- The ledger is in custody and the books are balanced. -/
structure Sound (activity : Activity R) : Prop where
  custody : activity.controller.ledger.InCustody activity.hands
  balanced : activity.controller.Balanced activity.held activity.settled

namespace Sound

theorem withController (controller : Controller R)
    (hcustody : controller.ledger.InCustody activity.hands)
    (hbalanced : controller.Balanced (activity.taken ++ controller.ledger.outstanding)
      activity.settled) : (activity.withController controller).Sound :=
  ⟨hcustody, hbalanced⟩

/-- An event of the ledger that leaves the list of leases as it is. -/
theorem withLedger (h : activity.Sound) {ledger : Ledger}
    (hcontroller : next.controller = { activity.controller with ledger })
    (hlist : ledger.outstanding = activity.controller.ledger.outstanding)
    (hcustody : ledger.InCustody next.hands) (htaken : next.taken = activity.taken)
    (hsettled : next.settled = activity.settled) : next.Sound where
  custody := by
    rw [hcontroller]
    exact hcustody
  balanced := by
    have hheld : next.held = activity.held := by
      rw [held, htaken, hcontroller]
      exact congrArg _ hlist
    rw [hheld, hsettled, hcontroller]
    exact h.balanced.congr rfl rfl

/-- A sweep holds the leases that it takes off the list until it settles them. -/
theorem goOn (h : activity.Sound) {sweep : Sweep} (hsweep : activity.sweep = some sweep)
    {ledger : Ledger} {stage : Stage} (found : List Reclaimed)
    (hcustody : ledger.InCustody
      { activity.hands with
        claimed := stage.claimed
        away := found.map (·.lease) ++ activity.hands.away })
    (hlist : activity.controller.ledger.outstanding.Perm
      (found.map (·.lease) ++ ledger.outstanding)) :
    (activity.goOn ledger { sweep with stage, taken := sweep.taken ++ found }).Sound := by
  have htaken := taken_of_sweep hsweep
  constructor
  · refine hcustody.perm_away ?_
    rw [hands, htaken]
    refine List.perm_append_comm.trans ?_
    rw [List.append_assoc, ← List.map_append]
    exact .refl _
  · have hperm : activity.held.Perm
        ((sweep.taken ++ found).map (·.lease) ++ ledger.outstanding) := by
      rw [held, htaken, List.map_append, List.append_assoc]
      exact hlist.append_left _
    exact (h.balanced.perm hperm).congr rfl rfl

/-- A step of a sweep that takes nothing off the list. -/
theorem toStage (h : activity.Sound) {sweep : Sweep} (hsweep : activity.sweep = some sweep)
    {ledger : Ledger} {stage : Stage}
    (hcustody : ledger.InCustody { activity.hands with claimed := stage.claimed })
    (hlist : ledger.outstanding = activity.controller.ledger.outstanding) :
    (activity.goOn ledger { sweep with stage }).Sound := by
  have hgone := h.goOn hsweep [] hcustody (.of_eq hlist.symm)
  rwa [List.append_nil] at hgone

/-- A sweep that has settled everything ends. -/
theorem endSweep (h : activity.Sound) {sweep : Sweep} (hsweep : activity.sweep = some sweep)
    (hstage : sweep.stage = .settling) (htaken : sweep.taken = []) :
    { activity with sweep := none }.Sound := by
  have hheld : activity.taken = [] := by
    rw [taken_of_sweep hsweep, htaken, List.map_nil]
  constructor
  · have hcustody := h.custody
    rw [hands, hheld, claimed_of_sweep hsweep, hstage] at hcustody
    exact hcustody
  · have hbalanced := h.balanced
    rw [held, hheld] at hbalanced
    exact hbalanced

theorem refresh (h : activity.Sound) (source : Source) (now : Nat) :
    (activity.withController (activity.controller.refreshSettings source now)).Sound := by
  apply withController
  · rw [Controller.ledger_refreshSettings]
    exact h.custody
  · rw [Controller.ledger_refreshSettings]
    exact h.balanced.congr (Controller.categories_refreshSettings ..)
      (Controller.totals_refreshSettings ..)

variable [Scalar R]

/-- A fresh controller is in order. -/
theorem start (id : String) (timings : Timings) (source : Source) (now : Nat) :
    (quiet (.build id timings source now : Controller R) []).Sound where
  custody := .empty
  balanced :=
    { held_lt := by simp [held, taken, quiet, Controller.build]
      settled_lt := by simp [quiet]
      account := by simp [quiet, Controller.build]
      totalActive := rfl
      activeCategories := rfl }

/-! ### Requests -/

/-- Looking up a category enters a category without leases at most. -/
theorem lookUp (h : activity.Sound) (source : Source) (now : Nat) (name : String) :
    (activity.withController (activity.controller.getCategory source now name).1).Sound := by
  apply withController
  · rw [Controller.ledger_getCategory]
    exact h.custody
  · rw [Controller.ledger_getCategory]
    exact h.balanced.getCategory source now name

theorem count (h : activity.Sound) (now position : Nat) :
    (activity.withController (activity.controller.countSubmission now position)).Sound := by
  unfold Controller.countSubmission
  apply withController
  · rw [Controller.ledger_updateCategory]
    exact h.custody
  · rw [Controller.ledger_updateCategory]
    refine h.balanced.updateCategory position fun category ↦ ?_
    exact category.keepsCounts_recordSubmission ..

/-- A granted lease is held from now on, and a refusal changes nothing. -/
theorem answer (h : activity.Sound) (hfree : activity.sweep = none) (source : Source)
    (settings : ControllerSettings) (now position : Nat) :
    (activity.withController
      (activity.controller.answerAt source settings now position).controller).Sound := by
  have hbalanced := h.balanced
  unfold Controller.answerAt
  split
  · exact h
  · next category hcategory =>
    have hkeep := activity.controller.keepsCounts_decideFor source settings now category
    dsimp only
    split
    · apply withController
      · exact h.custody.grant (claimed_of_free hfree) position now
      · rw [held, taken_of_free hfree] at hbalanced
        rw [taken_of_free hfree]
        exact hbalanced.enterLease hcategory hkeep now
    · exact withController _ h.custody (hbalanced.refuse hcategory hkeep)

/-! ### Holders -/

/-- A lease that its holder took on to release is settled as finished. -/
theorem settle (h : activity.Sound) (hfree : activity.sweep = none) {lease : Lease}
    (hmem : lease ∈ activity.releasing) (settings : ControllerSettings) (now : Nat) :
    { activity with
      controller := activity.controller.settle settings now lease
      releasing := activity.releasing.erase lease
      settled := ⟨lease, .finished⟩ :: activity.settled }.Sound := by
  have hlist := h.custody.releasing_mem lease hmem
  have hphase : activity.controller.ledger.phase? lease.number ≠ some .active := by
    rw [h.custody.releasing_phase lease hmem]
    decide
  constructor
  · rw [Controller.ledger_settle]
    exact h.custody.remove hlist hphase
  · have hperm := activity.controller.ledger.perm_remove h.custody.nodup_outstanding hlist
    have hbalanced := h.balanced
    rw [held, taken_of_free hfree] at hbalanced
    rw [held, taken_of_free (by exact hfree), Controller.ledger_settle]
    exact (hbalanced.perm hperm).settle settings now

/-! ### The sweep -/

/-- A lost lease is settled. -/
theorem abandonOne (h : activity.Sound) {sweep : Sweep} (hsweep : activity.sweep = some sweep)
    {reclaimed : Reclaimed} {rest : List Reclaimed} (htaken : sweep.taken = reclaimed :: rest) :
    { activity with
      controller := activity.controller.abandonOne sweep.settings sweep.now reclaimed
      sweep := some { sweep with taken := rest }
      settled := ⟨reclaimed.lease, .lost⟩ :: activity.settled }.Sound := by
  have hheld : activity.taken = reclaimed.lease :: rest.map (·.lease) := by
    rw [taken_of_sweep hsweep, htaken, List.map_cons]
  have hledger : (activity.controller.abandonOne sweep.settings sweep.now reclaimed).ledger =
      activity.controller.ledger :=
    Controller.ledger_updateCategory ..
  constructor
  · have hperm : activity.hands.away.Perm
        (reclaimed.lease :: (activity.settled.map (·.lease) ++ rest.map (·.lease))) := by
      rw [hands, hheld]
      exact List.perm_middle
    have hcustody := h.custody.perm_away hperm
    rw [hands, claimed_of_sweep hsweep] at hcustody
    rw [hledger]
    exact hcustody
  · have hbalanced := h.balanced
    rw [held, hheld, List.cons_append] at hbalanced
    rw [held, hledger]
    exact hbalanced.abandonOne sweep.settings sweep.now

/-- Every step of a sweep, stage by stage. -/
theorem sweepOn (h : activity.Sound) {sweep : Sweep} (hsweep : activity.sweep = some sweep) :
    (activity.sweepOn sweep).Sound := by
  rcases sweep with ⟨settings, now, stage, taken⟩
  have hclaimed : activity.hands.claimed = stage.claimed := claimed_of_sweep hsweep
  have hcustody : activity.controller.ledger.InCustody
      { activity.hands with claimed := stage.claimed } := by
    rw [← hclaimed]
    exact h.custody
  have hnodup := hcustody.nodup_outstanding
  cases stage with
  | receiving =>
    dsimp only [Activity.sweepOn]
    split
    · next ledger found hreceive =>
      exact h.goOn hsweep found (hcustody.receive hreceive) (Ledger.perm_receive _ hnodup hreceive)
    · split
      · exact h.toStage hsweep hcustody rfl
      · exact h.toStage hsweep hcustody rfl
  | listing bound => exact h.toStage hsweep hcustody rfl
  | claiming stale =>
    cases stale with
    | nil => exact h.toStage hsweep hcustody rfl
    | cons number stale =>
      have hclaim := hcustody.claim rfl number
      have hlist := activity.controller.ledger.outstanding_claim number
      dsimp only [Activity.sweepOn]
      split
      · next ledger heq =>
        rw [heq] at hclaim hlist
        exact h.toStage hsweep hclaim hlist
      · next ledger heq =>
        rw [heq] at hclaim hlist
        exact h.toStage hsweep hclaim hlist
  | taking number stale =>
    exact h.goOn hsweep _ (hcustody.takeClaimed rfl) (Ledger.perm_reclaim _ hnodup number .stale)
  | settling =>
    cases taken with
    | nil => exact h.endSweep hsweep rfl rfl
    | cons reclaimed rest => exact h.abandonOne hsweep rfl

/-! ### Every event and every run -/

theorem step (h : activity.Sound) {event : Event} (hstep : activity.step event = some next) :
    next.Sound := by
  cases event with
  | lookUp source now name =>
    obtain ⟨-, rfl⟩ := locked_eq_some_iff.mp hstep
    exact h.lookUp source now name
  | refresh source now =>
    cases hstep
    exact h.refresh source now
  | readSettings source now =>
    cases hstep
    exact ⟨h.custody, h.balanced.congr rfl rfl⟩
  | count now position =>
    obtain ⟨-, rfl⟩ := locked_eq_some_iff.mp hstep
    exact h.count now position
  | answer source settings now position =>
    obtain ⟨hfree, rfl⟩ := locked_eq_some_iff.mp hstep
    exact h.answer hfree source settings now position
  | touch number now =>
    cases hstep
    exact h.withLedger rfl rfl (h.custody.touch number now) rfl rfl
  | supervise number =>
    cases hstep
    exact h.withLedger rfl rfl (h.custody.supervise number) rfl rfl
  | takeRelease lease =>
    simp only [Activity.step] at hstep
    split at hstep
    · next hmem =>
      obtain ⟨ledger, hexchange, rfl⟩ := Option.map_eq_some_iff.mp hstep
      obtain ⟨hphase, rfl⟩ := Ledger.exchange_eq_some_iff _ |>.mp hexchange
      exact h.withLedger rfl rfl (h.custody.takeRelease hmem hphase) rfl rfl
    · cases hstep
  | settle settings now lease =>
    simp only [Activity.step] at hstep
    split at hstep
    · next hmem =>
      obtain ⟨hfree, rfl⟩ := locked_eq_some_iff.mp hstep
      exact h.settle hfree hmem settings now
    · cases hstep
  | takeLate number =>
    obtain ⟨ledger, hexchange, rfl⟩ := Option.map_eq_some_iff.mp hstep
    obtain ⟨hphase, rfl⟩ := Ledger.exchange_eq_some_iff _ |>.mp hexchange
    exact h.withLedger rfl rfl (h.custody.takeLate hphase) rfl rfl
  | takeDrop lease =>
    simp only [Activity.step] at hstep
    split at hstep
    · obtain ⟨ledger, hexchange, rfl⟩ := Option.map_eq_some_iff.mp hstep
      obtain ⟨hphase, rfl⟩ := Ledger.exchange_eq_some_iff _ |>.mp hexchange
      exact h.withLedger rfl rfl (h.custody.takeDrop hphase) rfl rfl
    · cases hstep
  | post number =>
    simp only [Activity.step] at hstep
    split at hstep
    · next hmem =>
      cases hstep
      exact h.withLedger rfl rfl (h.custody.post hmem) rfl rfl
    · cases hstep
  | beginSweep settings now =>
    obtain ⟨hfree, rfl⟩ := locked_eq_some_iff.mp hstep
    have hcustody := h.custody
    have hbalanced := h.balanced
    rw [hands, claimed_of_free hfree, taken_of_free hfree] at hcustody
    rw [held, taken_of_free hfree] at hbalanced
    exact ⟨hcustody, hbalanced.congr rfl rfl⟩
  | sweepOn =>
    obtain ⟨sweep, hsweep, rfl⟩ := Option.map_eq_some_iff.mp hstep
    exact h.sweepOn hsweep

theorem run (h : activity.Sound) {events : List Event} (hrun : activity.run events = some next) :
    next.Sound :=
  run_induction (fun hstep h ↦ h.step hstep) hrun h

end Sound

end Activity

end Admission
