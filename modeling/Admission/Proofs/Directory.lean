import Admission.Proofs.Lasting
import Admission.Proofs.Runs
import Mathlib.Data.List.Sort
import Mathlib.Data.Set.Function

/-!
# The directory of categories

Calls look for categories by name while admissions go on. A call looks in the index together with
others. One that is to create what it does not find comes back for the index alone, looks once more,
and then settles the weight of the new category, adds its state and enters its name, each under a
lock of its own, while the index stays with it. A `Directory` is a controller in the middle of this.

The names in the index are those of the categories in the order of creation, but for the one that is
being created (`Directory.Sound`). So whenever no creation is under way the index and the categories
agree (`Directory.Settled`). `Directory.Kept` says what is known after any events, and
`Directory.Lasts` what stays so: `is_stable_bijection` proves both. A call that nobody disturbs does
what `Controller.getCategory` does (`run_alone`).
-/

set_option autoImplicit false
set_option relaxedAutoImplicit false

namespace Admission

variable {R : Type}

/-! ### The index -/

namespace Controller

variable {controller changed : Controller R} {name : String} {position : Nat}

/-- The names in the index, in the order of their entry. -/
def entered (controller : Controller R) : List String := (controller.index.map (·.1)).reverse

/-- The index leads from each name to its place in the order of entry, and has no name twice. -/
structure Filed (controller : Controller R) : Prop where
  index : controller.index = controller.entered.zipIdx.reverse
  nodup : controller.entered.Nodup

theorem Filed.congr (h : controller.Filed) (hindex : changed.index = controller.index) :
    changed.Filed := by
  constructor
  · rw [entered, hindex]
    exact h.index
  · rw [entered, hindex]
    exact h.nodup

theorem Filed.mem_index (h : controller.Filed) :
    (name, position) ∈ controller.index ↔ controller.entered[position]? = some name := by
  rw [h.index, List.mem_reverse, List.mem_zipIdx_iff_getElem?]

theorem Filed.position?_eq_some_iff (h : controller.Filed) :
    controller.position? name = some position ↔ controller.entered[position]? = some name := by
  rw [← h.mem_index, position?, Option.map_eq_some_iff]
  constructor
  · rintro ⟨entry, hfound, rfl⟩
    obtain rfl : entry.1 = name := by simpa using List.find?_some hfound
    exact List.mem_of_find?_eq_some hfound
  · intro hmem
    obtain ⟨entry, hfound⟩ :
        ∃ entry, controller.index.find? (fun entry ↦ entry.1 = name) = some entry :=
      Option.isSome_iff_exists.mp (List.find?_isSome.mpr ⟨_, hmem, decide_eq_true rfl⟩)
    refine ⟨entry, hfound, ?_⟩
    obtain rfl : entry.1 = name := by simpa using List.find?_some hfound
    have hfirst := h.mem_index.mp (List.mem_of_find?_eq_some hfound)
    have hsecond := h.mem_index.mp hmem
    exact (List.getElem?_inj (List.getElem?_eq_some_iff.mp hfirst).1 h.nodup).mp
      (hfirst.trans hsecond.symm)

theorem Filed.position?_eq_none_iff (h : controller.Filed) :
    controller.position? name = none ↔ name ∉ controller.entered := by
  rw [Option.eq_none_iff_forall_not_mem, List.mem_iff_getElem?]
  simp only [Option.mem_def, h.position?_eq_some_iff, not_exists]

theorem entered_enterName (controller : Controller R) (name : String) (position : Nat) :
    (controller.enterName name position).entered = controller.entered ++ [name] := by
  simp only [entered, enterName, List.map_cons, List.reverse_cons]

theorem names_addCategory [Scalar R] (controller : Controller R) (name : String)
    (weight now : Nat) :
    (controller.addCategory name weight now).1.names = controller.names.push name :=
  Array.map_push

/-- A new name gets the next place. -/
theorem Filed.enterName (h : controller.Filed) (hnew : name ∉ controller.entered) :
    (controller.enterName name controller.entered.length).Filed := by
  constructor
  · rw [entered_enterName, List.zipIdx_append, List.reverse_append, ← h.index, Nat.zero_add]
    rfl
  · rw [entered_enterName, ← List.concat_eq_append]
    exact h.nodup.concat hnew

/-- The categories are listed in the order of entry. -/
theorem Filed.categoryNames (h : controller.Filed) :
    controller.categoryNames = controller.entered := by
  have hpositions : controller.entered.zipIdx.Pairwise fun first second ↦ first.2 ≤ second.2 := by
    rw [← List.pairwise_map (R := (· ≤ ·)), List.zipIdx_map_snd]
    exact (List.pairwise_lt_range' 1).imp Nat.le_of_lt
  have hperm : (controller.index.mergeSort fun first second ↦ first.2 ≤ second.2).Perm
      controller.entered.zipIdx := by
    refine (List.mergeSort_perm ..).trans ?_
    rw [h.index]
    exact List.reverse_perm _
  have hsorted : (controller.index.mergeSort fun first second ↦ first.2 ≤ second.2) =
      controller.entered.zipIdx := by
    refine List.Perm.eq_of_pairwise ?_ ?_ hpositions hperm
    · rintro ⟨first, place⟩ ⟨second, other⟩ hfirst hsecond hle hge
      obtain rfl : place = other := Nat.le_antisymm hle hge
      rw [hperm.mem_iff, List.mem_zipIdx_iff_getElem?] at hfirst
      rw [List.mem_zipIdx_iff_getElem?] at hsecond
      exact congrArg (·, place) (Option.some.inj (hfirst.symm.trans hsecond))
    · refine (List.pairwise_mergeSort ?_ ?_ _).imp of_decide_eq_true
      · intro first second third hfirst hsecond
        exact decide_eq_true ((of_decide_eq_true hfirst).trans (of_decide_eq_true hsecond))
      · intro first second
        simpa using Nat.le_total first.2 second.2
  rw [Controller.categoryNames, hsorted, List.zipIdx_map_fst]

end Controller

/-! ### Calls and creations -/

/-- Where a call that looks for a category is. -/
inductive Directory.CallStage where
  /-- It is about to look for the name, perhaps together with others. -/
  | asked
  /-- It has not found the name and is about to come back for the index alone. -/
  | missed
  /-- It creates the category. -/
  | creating
  /-- It is over, with the position of the category if there is one. -/
  | answered (position? : Option Nat)
deriving DecidableEq

/-- A call that looks for a category. -/
structure Directory.Call where
  name : String
  /-- The category is to be created if there is none. -/
  creates : Bool
  stage : CallStage
deriving DecidableEq

/-- How far a creation has come. -/
inductive Directory.CreationStage where
  /-- The name has not been found. -/
  | begun
  /-- The weight that the category starts with is settled. -/
  | weighed (weight now : Nat)
  /-- The state of the category is there, and its name is not in the index yet. -/
  | added (position : Nat)
deriving DecidableEq

/-- A creation, which has the index for itself. -/
structure Directory.Creation where
  /-- The call that creates the category. -/
  call : Nat
  name : String
  stage : CreationStage
deriving DecidableEq

/-- A controller whose categories are looked for. -/
structure Directory (R : Type) where
  /-- The controller with what else is going on. -/
  activity : Activity R
  calls : List Directory.Call := []
  /-- The creation that has the index for itself. -/
  creation : Option Directory.Creation := none
  /-- What the calls that ask for all categories were answered. -/
  listings : List (List String) := []

/-- An event looks a category up and creates it, all at once. -/
def Activity.Event.isLookUp : Activity.Event → Bool
  | .lookUp .. => true
  | _ => false

namespace Directory

/-- One step of a call, or of somebody who does not look for categories. -/
inductive Event where
  /-- A call comes. -/
  | ask (name : String) (creates : Bool)
  /-- The call looks in the index. -/
  | look (call : Nat)
  /-- The call takes the index for itself and looks once more. -/
  | recheck (call : Nat)
  /-- The creation settles the weight of the category. -/
  | weigh (source : Source) (now : Nat)
  /-- The creation adds the state of the category. -/
  | add
  /-- The creation enters the name in the index, and its call is over. -/
  | enter
  /-- All categories are asked for. -/
  | list
  /-- Something else happens to the controller. -/
  | other (event : Activity.Event)

/-- An event adds the state of a category. -/
def Event.isAdd : Event → Bool
  | .add => true
  | _ => false

/-- A controller whose categories nobody looks for. -/
def quiet (controller : Controller R) : Directory R := { activity := .quiet controller [] }

/-- The controller. -/
def controller (directory : Directory R) : Controller R := directory.activity.controller

/-- The directory with another controller. -/
def withController (directory : Directory R) (controller : Controller R) : Directory R :=
  { directory with activity := directory.activity.withController controller }

/-- Moves a call to another stage. -/
def setStage (directory : Directory R) (number : Nat) (stage : CallStage) : Directory R :=
  { directory with calls := directory.calls.modify number fun call ↦ { call with stage } }

section Steps

variable [Scalar R]

/-- A call looks in the index while no creation has it. -/
def look (directory : Directory R) (number : Nat) (call : Call) : Option (Directory R) :=
  if call.stage = .asked ∧ directory.creation = none then
    match directory.controller.position? call.name with
    | some position => some (directory.setStage number (.answered (some position)))
    | none => some (directory.setStage number (if call.creates then .missed else .answered none))
  else none

/-- A call takes the index and looks again. It keeps the index if it has to create the category. -/
def recheck (directory : Directory R) (number : Nat) (call : Call) : Option (Directory R) :=
  if call.stage = .missed ∧ directory.creation = none then
    match directory.controller.position? call.name with
    | some position => some (directory.setStage number (.answered (some position)))
    | none =>
      some { directory.setStage number .creating with creation := some ⟨number, call.name, .begun⟩ }
  else none

/-- The steps of the creation that is under way. -/
def stepCreation (directory : Directory R) (creation : Creation) : Event → Option (Directory R)
  | .weigh source now =>
    if creation.stage = .begun then
      let controller := directory.controller.refreshSettings source now
      some
        { directory.withController controller with
          creation := some
            { creation with stage := .weighed (controller.baseWeight source creation.name) now } }
    else none
  | .add =>
    match creation.stage with
    | .weighed weight now =>
      -- The states of the categories belong to a sweep while it runs.
      if directory.activity.sweep = none then
        let (controller, position) := directory.controller.addCategory creation.name weight now
        some
          { directory.withController controller with
            creation := some { creation with stage := .added position } }
      else none
    | _ => none
  | .enter =>
    match creation.stage with
    | .added position =>
      let controller := directory.controller.enterName creation.name position
      some
        { (directory.withController controller).setStage creation.call
            (.answered (some position)) with
          creation := none }
    | _ => none
  | _ => none

/-- What an event makes of a directory, if it can happen. -/
def step (directory : Directory R) (event : Event) : Option (Directory R) :=
  match event with
  | .ask name creates =>
    some { directory with calls := directory.calls ++ [⟨name, creates, .asked⟩] }
  | .look number => (directory.calls[number]?).bind (directory.look number)
  | .recheck number => (directory.calls[number]?).bind (directory.recheck number)
  | .weigh _ _ | .add | .enter =>
    directory.creation.bind fun creation ↦ directory.stepCreation creation event
  | .list =>
    if directory.creation = none then
      some
        { directory with listings := directory.listings ++ [directory.controller.categoryNames] }
    else none
  | .other event =>
    if event.isLookUp then none
    else (directory.activity.step event).map fun activity ↦ { directory with activity }

/-- What several events make of a directory, if they can happen. -/
def run (directory : Directory R) (events : List Event) : Option (Directory R) :=
  events.foldlM step directory

end Steps

variable {directory next last : Directory R} {event : Event} {events : List Event}

/-! ### What a step does -/

/-- What an event can do to a directory. -/
inductive Steps [Scalar R] (directory : Directory R) : Event → Directory R → Prop
  | ask (name : String) (creates : Bool) :
    Steps directory (.ask name creates)
      { directory with calls := directory.calls ++ [⟨name, creates, .asked⟩] }
  /-- A call comes to a stage that answers it no more than the index does. -/
  | call {event : Event} (number : Nat) (hevent : event = .look number ∨ event = .recheck number)
    {call : Call} (hcall : directory.calls[number]? = some call) (hfree : directory.creation = none)
    {stage : CallStage} (hunanswered : ∀ position?, call.stage ≠ .answered position?)
    (hstage : (∃ position, stage = .answered (some position) ∧
        directory.controller.position? call.name = some position) ∨
      (stage = .missed ∧ call.creates = true) ∨
      (stage = .answered none ∧ call.creates = false ∧
        directory.controller.position? call.name = none)) :
    Steps directory event (directory.setStage number stage)
  /-- A call takes the index to create what it has not found twice. -/
  | begin (number : Nat) {call : Call} (hcall : directory.calls[number]? = some call)
    (hfree : directory.creation = none) (hmissed : call.stage = .missed)
    (hnew : directory.controller.position? call.name = none) :
    Steps directory (.recheck number)
      { directory.setStage number .creating with creation := some ⟨number, call.name, .begun⟩ }
  | weigh {creation : Creation} (hcreation : directory.creation = some creation)
    (hbegun : creation.stage = .begun) (source : Source) (now weight : Nat) :
    Steps directory (.weigh source now)
      { directory.withController (directory.controller.refreshSettings source now) with
        creation := some { creation with stage := .weighed weight now } }
  | add {creation : Creation} {weight now : Nat} (hcreation : directory.creation = some creation)
    (hweighed : creation.stage = .weighed weight now) :
    Steps directory .add
      { directory.withController (directory.controller.addCategory creation.name weight now).1 with
        creation :=
          some { creation with stage := .added directory.controller.categories.size } }
  | enter {creation : Creation} {position : Nat} (hcreation : directory.creation = some creation)
    (hadded : creation.stage = .added position) :
    Steps directory .enter
      { (directory.withController (directory.controller.enterName creation.name position)).setStage
          creation.call (.answered (some position)) with
        creation := none }
  | list (hfree : directory.creation = none) :
    Steps directory .list
      { directory with listings := directory.listings ++ [directory.controller.categoryNames] }
  | other {event : Activity.Event} {activity : Activity R} (hevent : event.isLookUp = false)
    (hstep : directory.activity.step event = some activity) :
    Steps directory (.other event) { directory with activity }

section Steps

variable [Scalar R] {number : Nat}

theorem steps_of_look {call : Call} (hcall : directory.calls[number]? = some call)
    (h : directory.look number call = some next) : directory.Steps (.look number) next := by
  obtain ⟨⟨hasked, hfree⟩, h⟩ := Option.ite_none_right_eq_some.mp h
  have hunanswered : ∀ position?, call.stage ≠ .answered position? := by
    intro position? hanswered
    cases hasked.symm.trans hanswered
  split at h
  · next position hfound =>
    cases h
    exact .call number (.inl rfl) hcall hfree hunanswered (.inl ⟨position, rfl, hfound⟩)
  · next hnew =>
    cases h
    refine .call number (.inl rfl) hcall hfree hunanswered (.inr ?_)
    split_ifs with hcreates
    · exact .inl ⟨rfl, hcreates⟩
    · exact .inr ⟨rfl, Bool.eq_false_of_not_eq_true hcreates, hnew⟩

theorem steps_of_recheck {call : Call} (hcall : directory.calls[number]? = some call)
    (h : directory.recheck number call = some next) : directory.Steps (.recheck number) next := by
  obtain ⟨⟨hmissed, hfree⟩, h⟩ := Option.ite_none_right_eq_some.mp h
  split at h
  · next position hfound =>
    cases h
    refine .call number (.inr rfl) hcall hfree ?_ (.inl ⟨position, rfl, hfound⟩)
    intro position? hanswered
    cases hmissed.symm.trans hanswered
  · next hnew =>
    cases h
    exact .begin number hcall hfree hmissed hnew

theorem steps_of_stepCreation {creation : Creation} (hcreation : directory.creation = some creation)
    (hevent : (∃ source now, event = .weigh source now) ∨ event = .add ∨ event = .enter)
    (h : directory.stepCreation creation event = some next) : directory.Steps event next := by
  rcases hevent with ⟨source, now, rfl⟩ | rfl | rfl
  · obtain ⟨hbegun, ⟨⟩⟩ := Option.ite_none_right_eq_some.mp h
    exact .weigh hcreation hbegun source now _
  · simp only [stepCreation] at h
    split at h
    · next weight now hweighed =>
      obtain ⟨-, ⟨⟩⟩ := Option.ite_none_right_eq_some.mp h
      exact .add hcreation hweighed
    · cases h
  · simp only [stepCreation] at h
    split at h
    · next position hadded =>
      cases h
      exact .enter hcreation hadded
    · cases h

theorem steps_of_step (h : directory.step event = some next) : directory.Steps event next := by
  cases event with
  | ask name creates =>
    cases h
    exact .ask name creates
  | look number =>
    obtain ⟨call, hcall, h⟩ := Option.bind_eq_some_iff.mp h
    exact steps_of_look hcall h
  | recheck number =>
    obtain ⟨call, hcall, h⟩ := Option.bind_eq_some_iff.mp h
    exact steps_of_recheck hcall h
  | weigh source now | add | enter =>
    obtain ⟨creation, hcreation, h⟩ := Option.bind_eq_some_iff.mp h
    exact steps_of_stepCreation hcreation (by simp) h
  | list =>
    obtain ⟨hfree, ⟨⟩⟩ := Option.ite_none_right_eq_some.mp h
    exact .list hfree
  | other event =>
    obtain ⟨hevent, h⟩ := Option.ite_none_left_eq_some.mp h
    obtain ⟨activity, hstep, rfl⟩ := Option.map_eq_some_iff.mp h
    exact .other (Bool.eq_false_of_not_eq_true hevent) hstep

end Steps

/-! ### The names of the categories -/

/-- What an event deals with leaves the names and the index alone unless it is a look-up. -/
theorem act_keeps [Scalar R] (controller : Controller R) {dealing : Activity.Dealing}
    (hdealing : ∀ source now name, dealing ≠ .lookUp source now name) :
    (dealing.act controller).names = controller.names ∧
      (dealing.act controller).index = controller.index := by
  cases dealing with
  | nothing => exact ⟨rfl, rfl⟩
  | lookUp source now name => exact absurd rfl (hdealing source now name)
  | count now position =>
    exact ⟨Controller.names_countSubmission .., Controller.index_updateCategory ..⟩
  | answer source settings now position =>
    exact ⟨Controller.names_answerAt .., Controller.index_answerAt ..⟩
  | finish settings now lease =>
    exact ⟨Controller.names_updateCategory _ _ fun category totals ↦ category.name_finish totals ..,
      Controller.index_updateCategory ..⟩
  | lose settings now reclaimed =>
    exact ⟨Controller.names_updateCategory _ _ fun category totals ↦
        category.name_abandon totals ..,
      Controller.index_updateCategory ..⟩

/-- What else happens to the controller leaves the names and the index alone. -/
theorem keeps_of_step [Scalar R] {activity changed : Activity R} {event : Activity.Event}
    (hevent : event.isLookUp = false) (hstep : activity.step event = some changed) :
    changed.controller.names = activity.controller.names ∧
      changed.controller.index = activity.controller.index := by
  have hdealt := Activity.dealt_step hstep
  have hother : ∀ source now name, activity.dealing event ≠ .lookUp source now name := by
    intro source now name hdealing
    cases event with
    | lookUp => cases hevent
    | sweepOn =>
      rcases hsweep : activity.sweep with _ | ⟨settings, time, stage, taken⟩
      · rw [Activity.dealing, hsweep] at hdealing
        cases hdealing
      · rw [Activity.dealing, hsweep] at hdealing
        simp only [Option.elim_some, Activity.Sweep.dealing] at hdealing
        split at hdealing <;> cases hdealing
    | _ => cases hdealing
  obtain ⟨hnames, hindex⟩ := act_keeps activity.controller hother
  refine ⟨Eq.trans ?_ hnames, hdealt.index.trans hindex⟩
  rw [Controller.names, hdealt.categories]
  rfl

/-- The name of the category if its state is there while the name is not in the index yet. -/
def Creation.pending (creation : Creation) : List String :=
  match creation.stage with
  | .added _ => [creation.name]
  | _ => []

/-- The name of a category that is not in the index yet. -/
def pending (directory : Directory R) : List String := directory.creation.elim [] Creation.pending

theorem pending_of_free (hfree : directory.creation = none) : directory.pending = [] := by
  rw [pending, hfree]
  rfl

theorem pending_of_creation {creation : Creation} (hcreation : directory.creation = some creation) :
    directory.pending = creation.pending := by
  rw [pending, hcreation]
  rfl

/-- What every call asks for. -/
def wishes (directory : Directory R) : List (String × Bool) :=
  directory.calls.map fun call ↦ (call.name, call.creates)

/-- What is known of a call at its stage: a call that finds a category is answered with the place of
the name in the index, and one that is not to create it may be told that there is none. -/
def Answers (controller : Controller R) (call : Call) : Prop :=
  match call.stage with
  | .asked => True
  | .missed | .creating => call.creates = true
  | .answered none => call.creates = false
  | .answered (some position) => controller.entered[position]? = some call.name

/-- A creation belongs to a call that asks for it, and its name is new. -/
structure Creates (directory : Directory R) (creation : Creation) : Prop where
  call : directory.calls[creation.call]? = some ⟨creation.name, true, .creating⟩
  new : creation.name ∉ directory.controller.entered
  position : ∀ position, creation.stage = .added position →
    position = directory.controller.entered.length

/-- The index has the names of the categories, but for the one that is being created, and whoever
was answered was answered by it. -/
structure Sound (events : List Event) (directory : Directory R) : Prop where
  filed : directory.controller.Filed
  names : directory.controller.names.toList = directory.controller.entered ++ directory.pending
  creation : ∀ creation, directory.creation = some creation → directory.Creates creation
  calls : ∀ call ∈ directory.calls, Answers directory.controller call
  wished : ∀ name ∈ directory.controller.names.toList, (name, true) ∈ directory.wishes
  listings : ∀ listing ∈ directory.listings, listing <+: directory.controller.entered
  added : events.countP (·.isAdd) = directory.controller.names.size

theorem forall_mem_modify {calls : List Call} {motive : Call → Prop} {number : Nat} {call : Call}
    (hcall : calls[number]? = some call) {change : Call → Call} (h : ∀ call ∈ calls, motive call)
    (hchange : motive (change call)) : ∀ call ∈ calls.modify number change, motive call := by
  intro other hother
  obtain ⟨place, hplace⟩ := List.mem_iff_getElem?.mp hother
  rw [List.getElem?_modify] at hplace
  by_cases hnumber : number = place
  · subst hnumber
    rw [hcall] at hplace
    simp only [if_true, Option.map_eq_map, Option.map_some, Option.some.injEq] at hplace
    exact hplace ▸ hchange
  · simp only [if_neg hnumber, id_map'] at hplace
    exact h other (List.mem_of_getElem? hplace)

theorem wishes_setStage (directory : Directory R) (number : Nat) (stage : CallStage) :
    (directory.setStage number stage).wishes = directory.wishes := by
  ext1 place
  rw [wishes, wishes, setStage, List.getElem?_map, List.getElem?_map, List.getElem?_modify]
  by_cases hnumber : number = place <;> cases directory.calls[place]? <;> simp [hnumber]

theorem getElem?_of_prefix {names longer : List String} (h : names <+: longer) {position : Nat}
    {name : String} (hname : names[position]? = some name) : longer[position]? = some name := by
  obtain ⟨rest, rfl⟩ := h
  exact (List.getElem?_append_left (List.getElem?_eq_some_iff.mp hname).1).trans hname

theorem Answers.mono {controller changed : Controller R} {call : Call}
    (h : Answers controller call) (hentered : controller.entered <+: changed.entered) :
    Answers changed call := by
  unfold Answers at h ⊢
  split
  · trivial
  · next hstage => simpa only [hstage] using h
  · next hstage => simpa only [hstage] using h
  · next hstage => simpa only [hstage] using h
  · next position hstage =>
    rw [hstage] at h
    exact getElem?_of_prefix hentered h

namespace Sound

theorem start [Scalar R] (id : String) (timings : Timings) (source : Source) (now : Nat) :
    Sound [] (quiet (.build id timings source now : Controller R)) := by
  have hnone : (Controller.build id timings source now : Controller R).names = #[] :=
    Array.map_empty
  constructor
  case filed => exact ⟨rfl, List.nodup_nil⟩
  case names => exact congrArg Array.toList hnone
  case creation => intro _ h; cases h
  case calls => intro _ h; cases h
  case wished =>
    intro name hname
    rw [quiet, controller, Activity.quiet, hnone] at hname
    cases hname
  case listings => intro _ h; cases h
  case added => exact (congrArg Array.size hnone).symm

theorem ask (h : Sound events directory) (name : String) (creates : Bool) :
    Sound (events ++ [.ask name creates])
      { directory with calls := directory.calls ++ [⟨name, creates, .asked⟩] } := by
  have hwishes : ({ directory with
      calls := directory.calls ++ [⟨name, creates, .asked⟩] } : Directory R).wishes =
        directory.wishes ++ [(name, creates)] := List.map_append
  constructor
  case filed => exact h.filed
  case names => exact h.names
  case creation =>
    intro creation hcreation
    obtain ⟨hcall, hnew, hposition⟩ := h.creation creation hcreation
    refine ⟨?_, hnew, hposition⟩
    exact (List.getElem?_append_left (List.getElem?_eq_some_iff.mp hcall).1).trans hcall
  case calls =>
    intro call hcall
    rcases List.mem_append.mp hcall with hcall | hcall
    · exact h.calls call hcall
    · rw [List.mem_singleton.mp hcall]
      trivial
  case wished =>
    intro name hname
    rw [hwishes]
    exact List.mem_append_left _ (h.wished name hname)
  case listings => exact h.listings
  case added => exact (countP_concat_of_not events rfl).trans h.added

theorem setStage (h : Sound events directory) (hevent : event.isAdd = false)
    (hfree : directory.creation = none) {number : Nat} {call : Call}
    (hcall : directory.calls[number]? = some call) {stage : CallStage}
    (hanswers : Answers directory.controller { call with stage }) :
    Sound (events ++ [event]) (directory.setStage number stage) where
  filed := h.filed
  names := h.names
  creation creation hcreation := by cases hfree.symm.trans hcreation
  calls := forall_mem_modify hcall h.calls hanswers
  wished name hname := by
    rw [wishes_setStage]
    exact h.wished name hname
  listings := h.listings
  added := (countP_concat_of_not events hevent).trans h.added

theorem begin (h : Sound events directory) {number : Nat} {call : Call}
    (hcall : directory.calls[number]? = some call) (hfree : directory.creation = none)
    (hmissed : call.stage = .missed) (hnew : directory.controller.position? call.name = none) :
    Sound (events ++ [.recheck number])
      { directory.setStage number .creating with
        creation := some ⟨number, call.name, .begun⟩ } := by
  have hcreates : call.creates = true := by
    have hanswers := h.calls call (List.mem_of_getElem? hcall)
    rw [Answers, hmissed] at hanswers
    exact hanswers
  have hmoved : Sound (events ++ [.recheck number]) (directory.setStage number .creating) :=
    h.setStage rfl hfree hcall hcreates
  constructor
  case filed => exact hmoved.filed
  case names => exact hmoved.names.trans (congrArg _ (pending_of_free hfree))
  case creation =>
    rintro creation ⟨⟩
    refine ⟨?_, h.filed.position?_eq_none_iff.mp hnew, fun position hadded ↦ by cases hadded⟩
    change (directory.calls.modify number _)[number]? = _
    rw [List.getElem?_modify_eq, hcall, ← hcreates]
    rfl
  case calls => exact hmoved.calls
  case wished => exact hmoved.wished
  case listings => exact hmoved.listings
  case added => exact hmoved.added

/-- What else happens to the controller is of no concern, and neither is how far a creation has come
that has not added its category yet. -/
theorem keeps (h : Sound events directory) (hevent : event.isAdd = false)
    (hnames : next.controller.names = directory.controller.names)
    (hindex : next.controller.index = directory.controller.index)
    (hcalls : next.calls = directory.calls) (hpending : next.pending = directory.pending)
    (hlistings : ∀ listing ∈ next.listings, listing <+: directory.controller.entered)
    (hcreation : ∀ creation, next.creation = some creation → directory.Creates creation) :
    Sound (events ++ [event]) next := by
  have hentered : next.controller.entered = directory.controller.entered := by
    rw [Controller.entered, hindex]
    rfl
  have hwishes : next.wishes = directory.wishes := by
    rw [wishes, hcalls]
    rfl
  constructor
  case filed => exact h.filed.congr hindex
  case names =>
    rw [hnames, hentered, hpending]
    exact h.names
  case creation =>
    intro creation hnext
    obtain ⟨hcall, hnew, hposition⟩ := hcreation creation hnext
    exact ⟨hcalls ▸ hcall, hentered ▸ hnew, hentered ▸ hposition⟩
  case calls =>
    rw [hcalls]
    exact fun call hcall ↦ (h.calls call hcall).mono (hentered ▸ List.prefix_rfl)
  case wished =>
    rw [hnames, hwishes]
    exact h.wished
  case listings =>
    rw [hentered]
    exact hlistings
  case added =>
    rw [hnames]
    exact (countP_concat_of_not events hevent).trans h.added

theorem weigh (h : Sound events directory) {creation : Creation}
    (hcreation : directory.creation = some creation) (hbegun : creation.stage = .begun)
    (source : Source) (now weight : Nat) :
    Sound (events ++ [.weigh source now])
      { directory.withController (directory.controller.refreshSettings source now) with
        creation := some { creation with stage := .weighed weight now } } := by
  refine h.keeps rfl (Controller.names_refreshSettings ..) (Controller.index_refreshSettings ..) rfl
    ?_ h.listings ?_
  · rw [pending_of_creation hcreation, Creation.pending, hbegun]
    rfl
  · rintro changed ⟨⟩
    obtain ⟨hcall, hnew, -⟩ := h.creation creation hcreation
    exact ⟨hcall, hnew, fun position hadded ↦ by cases hadded⟩

theorem enter (h : Sound events directory) {creation : Creation} {position : Nat}
    (hcreation : directory.creation = some creation) (hadded : creation.stage = .added position) :
    Sound (events ++ [.enter])
      { (directory.withController (directory.controller.enterName creation.name position)).setStage
          creation.call (.answered (some position)) with
        creation := none } := by
  obtain ⟨hcall, hnew, hposition⟩ := h.creation creation hcreation
  obtain rfl := hposition position hadded
  have hentered := Controller.entered_enterName directory.controller creation.name
    directory.controller.entered.length
  constructor
  case filed => exact h.filed.enterName hnew
  case names =>
    refine Eq.trans h.names (Eq.trans ?_ (List.append_nil _).symm)
    rw [pending_of_creation hcreation, Creation.pending, hadded]
    exact hentered.symm
  case creation =>
    intro creation hnone
    cases hnone
  case calls =>
    refine forall_mem_modify hcall ?_ ?_
    · exact fun call hcall ↦ (h.calls call hcall).mono (hentered ▸ List.prefix_append ..)
    · change (directory.controller.enterName _ _).entered[_]? = some creation.name
      rw [hentered, List.getElem?_concat_length]
  case wished =>
    intro name hmem
    exact (wishes_setStage ..).symm ▸ h.wished name hmem
  case listings =>
    intro listing hlisting
    exact (h.listings listing hlisting).trans (hentered ▸ List.prefix_append ..)
  case added => exact (countP_concat_of_not events rfl).trans h.added

section Steps

variable [Scalar R]

theorem add (h : Sound events directory) {creation : Creation} {weight now : Nat}
    (hcreation : directory.creation = some creation)
    (hweighed : creation.stage = .weighed weight now) :
    Sound (events ++ [.add])
      { directory.withController (directory.controller.addCategory creation.name weight now).1 with
        creation :=
          some { creation with stage := .added directory.controller.categories.size } } := by
  have hpending : directory.pending = [] := by
    rw [pending_of_creation hcreation, Creation.pending, hweighed]
  have hentered : directory.controller.names.toList = directory.controller.entered := by
    rw [h.names, hpending, List.append_nil]
  have hnames : (directory.controller.addCategory creation.name weight now).1.names =
      directory.controller.names.push creation.name := Controller.names_addCategory ..
  obtain ⟨hcall, hnew, -⟩ := h.creation creation hcreation
  constructor
  case filed => exact h.filed.congr rfl
  case names =>
    refine (congrArg Array.toList hnames).trans ?_
    rw [Array.toList_push, hentered]
    rfl
  case creation =>
    rintro changed ⟨⟩
    refine ⟨hcall, hnew, ?_⟩
    rintro position ⟨⟩
    rw [← Controller.size_names, ← Array.length_toList, hentered]
    rfl
  case calls => exact fun call hcall ↦ (h.calls call hcall).mono List.prefix_rfl
  case wished =>
    intro name hname
    rcases Array.mem_push.mp (hnames ▸ Array.mem_toList_iff.mp hname) with hname | rfl
    · exact h.wished name (Array.mem_toList_iff.mpr hname)
    · exact List.mem_map_of_mem (f := fun call : Call ↦ (call.name, call.creates))
        (List.mem_of_getElem? hcall)
  case listings => exact h.listings
  case added =>
    refine Eq.trans ?_ (congrArg Array.size hnames).symm
    rw [countP_concat, h.added, Array.size_push]
    rfl

theorem step (h : Sound events directory) (hstep : directory.step event = some next) :
    Sound (events ++ [event]) next := by
  cases steps_of_step hstep with
  | ask name creates => exact h.ask name creates
  | call number hevent hcall hfree hunanswered hstage =>
    have hnoadd : event.isAdd = false := by rcases hevent with rfl | rfl <;> rfl
    refine h.setStage hnoadd hfree hcall ?_
    rcases hstage with ⟨position, rfl, hfound⟩ | ⟨rfl, hcreates⟩ | ⟨rfl, hcreates, -⟩
    · exact h.filed.position?_eq_some_iff.mp hfound
    · exact hcreates
    · exact hcreates
  | begin number hcall hfree hmissed hnew => exact h.begin hcall hfree hmissed hnew
  | weigh hcreation hbegun source now weight => exact h.weigh hcreation hbegun source now weight
  | add hcreation hweighed => exact h.add hcreation hweighed
  | enter hcreation hadded => exact h.enter hcreation hadded
  | list hfree =>
    refine h.keeps rfl rfl rfl rfl rfl ?_ h.creation
    intro listing hlisting
    rcases List.mem_append.mp hlisting with hlisting | hlisting
    · exact h.listings listing hlisting
    · rw [List.mem_singleton.mp hlisting, h.filed.categoryNames]
  | other hevent hother =>
    obtain ⟨hnames, hindex⟩ := keeps_of_step hevent hother
    exact h.keeps rfl hnames hindex rfl rfl h.listings h.creation

theorem run {id : String} {timings : Timings} {source : Source} {now : Nat}
    (hrun : (quiet (.build id timings source now : Controller R)).run events = some directory) :
    Sound events directory :=
  foldlM_induction (motive := fun events directory ↦ Sound events directory)
    (start id timings source now) (fun hstep h ↦ h.step hstep) hrun

end Steps

end Sound

/-! ### What can be relied on -/

/-- The index leads from the names of the categories to all their positions, one to one. -/
structure Settled (controller : Controller R) : Prop where
  /-- The index has every name with its position, the latest first. -/
  index : controller.index = controller.names.toList.zipIdx.reverse
  bijective : ∃ place : String → Nat,
    (∀ name ∈ controller.names.toList, controller.position? name = some (place name)) ∧
      Set.BijOn place {name | name ∈ controller.names.toList} (Set.Iio controller.categories.size)
  /-- The index leads nowhere from any other name. -/
  absent : ∀ name ∉ controller.names.toList, controller.position? name = none
  /-- The category it leads to has the name. -/
  named : ∀ {name : String} {position : Nat}, controller.position? name = some position →
    ∃ category, controller.categories[position]? = some category ∧ category.name = name
  /-- The categories are listed in the order of creation. -/
  listing : controller.categoryNames = controller.names.toList

/-- What is known of a directory after the given events. -/
structure Kept [Scalar R] (events : List Event) (directory : Directory R) : Prop where
  /-- No two categories have one name, and each has been added by one creation. -/
  nodup : directory.controller.names.toList.Nodup
  created : events.countP (·.isAdd) = directory.controller.names.size
  /-- Every category was asked for by a call that creates it. -/
  wished : ∀ name ∈ directory.controller.names.toList,
    ∃ call ∈ directory.calls, call.name = name ∧ call.creates = true
  /-- A call that was answered with a position was answered with that of its category. -/
  answered : ∀ call ∈ directory.calls, ∀ position, call.stage = .answered (some position) →
    directory.controller.names[position]? = some call.name ∧
      directory.controller.position? call.name = some position
  /-- Calls with one name are answered with one position. -/
  agree : ∀ first ∈ directory.calls, ∀ second ∈ directory.calls, first.name = second.name →
    ∀ position other, first.stage = .answered (some position) →
      second.stage = .answered (some other) → position = other
  /-- A call that creates the category is never told that there is none. -/
  complete : ∀ call ∈ directory.calls, call.creates = true → call.stage ≠ .answered none
  listings : ∀ listing ∈ directory.listings, listing <+: directory.controller.names.toList
  settled : directory.creation = none → Settled directory.controller ∧
    ∃ next, directory.step .list = some next ∧
      next.listings = directory.listings ++ [directory.controller.names.toList]

theorem Sound.settled (h : Sound events directory) (hfree : directory.creation = none) :
    Settled directory.controller := by
  have hnames : directory.controller.names.toList = directory.controller.entered := by
    rw [h.names, pending_of_free hfree, List.append_nil]
  have hnodup : directory.controller.names.toList.Nodup := hnames ▸ h.filed.nodup
  have hlength : directory.controller.names.toList.length =
      directory.controller.categories.size := by
    rw [Array.length_toList, Controller.size_names]
  constructor
  case index =>
    rw [hnames]
    exact h.filed.index
  case bijective =>
    refine ⟨(directory.controller.names.toList.idxOf ·), ?_, ?_, ?_, ?_⟩
    · intro name hname
      rw [h.filed.position?_eq_some_iff, ← hnames]
      exact List.getElem?_idxOf hname
    · intro name hname
      rw [Set.mem_Iio, ← hlength]
      exact List.idxOf_lt_length_of_mem hname
    · intro first hfirst second hsecond hsame
      exact (List.idxOf_inj hfirst).mp hsame
    · intro position hposition
      rw [Set.mem_Iio, ← hlength] at hposition
      exact ⟨_, List.getElem_mem hposition, hnodup.idxOf_getElem position hposition⟩
  case absent =>
    intro name hname
    rw [h.filed.position?_eq_none_iff, ← hnames]
    exact hname
  case named =>
    intro name position hposition
    rw [h.filed.position?_eq_some_iff, ← hnames, Array.getElem?_toList] at hposition
    exact Controller.exists_category_of_name hposition
  case listing => exact h.filed.categoryNames.trans hnames.symm

theorem Sound.nodup_names (h : Sound events directory) :
    directory.controller.names.toList.Nodup := by
  rw [h.names]
  cases hcreation : directory.creation with
  | none =>
    rw [pending_of_free hcreation, List.append_nil]
    exact h.filed.nodup
  | some creation =>
    rw [pending_of_creation hcreation, Creation.pending]
    split
    · rw [← List.concat_eq_append]
      exact h.filed.nodup.concat (h.creation creation hcreation).new
    · rw [List.append_nil]
      exact h.filed.nodup

theorem Sound.kept [Scalar R] (h : Sound events directory) : Kept events directory := by
  have hentered : directory.controller.entered <+: directory.controller.names.toList :=
    h.names ▸ List.prefix_append ..
  have hanswered : ∀ call ∈ directory.calls, ∀ position, call.stage = .answered (some position) →
      directory.controller.position? call.name = some position := by
    intro call hcall position hstage
    have hanswers := h.calls call hcall
    rw [Answers, hstage] at hanswers
    exact h.filed.position?_eq_some_iff.mpr hanswers
  constructor
  case nodup => exact h.nodup_names
  case created => exact h.added
  case wished =>
    intro name hname
    obtain ⟨call, hcall, hwish⟩ := List.mem_map.mp (h.wished name hname)
    exact ⟨call, hcall, congrArg (·.1) hwish, congrArg (·.2) hwish⟩
  case answered =>
    intro call hcall position hstage
    have hposition := hanswered call hcall position hstage
    refine ⟨?_, hposition⟩
    rw [← Array.getElem?_toList]
    exact getElem?_of_prefix hentered (h.filed.position?_eq_some_iff.mp hposition)
  case agree =>
    intro first hfirst second hsecond hname position other hposition hother
    have hfound := hanswered first hfirst position hposition
    rw [hname, hanswered second hsecond other hother] at hfound
    exact (Option.some.inj hfound).symm
  case complete =>
    intro call hcall hcreates hnone
    have hanswers := h.calls call hcall
    rw [Answers, hnone] at hanswers
    cases hcreates.symm.trans hanswers
  case listings => exact fun listing hlisting ↦ (h.listings listing hlisting).trans hentered
  case settled =>
    intro hfree
    refine ⟨h.settled hfree, _, if_pos hfree, ?_⟩
    rw [(h.settled hfree).listing]

/-! ### What stays as it is -/

/-- One directory comes after another: it has their names and places, and the answers stand. -/
structure Follows (directory last : Directory R) : Prop where
  names : directory.controller.names.toList <+: last.controller.names.toList
  entered : directory.controller.entered <+: last.controller.entered
  calls : ∀ {number : Nat} {call : Call}, directory.calls[number]? = some call →
    ∃ after, last.calls[number]? = some after ∧ after.name = call.name ∧
      after.creates = call.creates ∧
      ∀ position?, call.stage = .answered position? → after.stage = .answered position?

namespace Follows

theorem refl (directory : Directory R) : Follows directory directory :=
  ⟨List.prefix_rfl, List.prefix_rfl,
    fun {_ call} hcall ↦ ⟨call, hcall, rfl, rfl, fun _ hstage ↦ hstage⟩⟩

theorem trans (hfirst : Follows directory next) (hsecond : Follows next last) :
    Follows directory last where
  names := hfirst.names.trans hsecond.names
  entered := hfirst.entered.trans hsecond.entered
  calls hcall := by
    obtain ⟨middle, hmiddle, hname, hcreates, hstage⟩ := hfirst.calls hcall
    obtain ⟨after, hafter, hname', hcreates', hstage'⟩ := hsecond.calls hmiddle
    exact ⟨after, hafter, hname'.trans hname, hcreates'.trans hcreates,
      fun position? hanswered ↦ hstage' position? (hstage position? hanswered)⟩

variable [Scalar R]

end Follows

section Alone

variable [Scalar R] {number : Nat} {name : String}

/-- The steps of a creation that nobody disturbs. -/
theorem run_creation (hcreation : directory.creation = some ⟨number, name, .begun⟩)
    (hidle : directory.activity.sweep = none) (source : Source) (now : Nat) :
    let controller := directory.controller.refreshSettings source now
    let added := controller.addCategory name (controller.baseWeight source name) now
    directory.run [.weigh source now, .add, .enter] =
      some
        { (directory.withController (added.1.enterName name added.2)).setStage number
            (.answered (some added.2)) with
          creation := none } := by
  have hweigh : directory.step (.weigh source now) =
      some { directory.withController (directory.controller.refreshSettings source now) with
        creation := some ⟨number, name, .weighed
          ((directory.controller.refreshSettings source now).baseWeight source name) now⟩ } := by
    simp only [step, hcreation, Option.bind_some, stepCreation, if_true]
  intro controller added
  rw [run, List.foldlM_cons, hweigh]
  change (if directory.activity.sweep = none then _ else none).bind _ = _
  rw [if_pos hidle]
  rfl

/-- A call that creates the category and that nobody disturbs does what `Controller.getCategory`
does. -/
theorem run_alone (hfree : directory.creation = none) (hidle : directory.activity.sweep = none)
    (hcall : directory.calls[number]? = some ⟨name, true, .asked⟩) (source : Source) (now : Nat) :
    ∃ events last, directory.run events = some last ∧ last.creation = none ∧
      last.controller = (directory.controller.getCategory source now name).1 ∧
      last.calls[number]? =
        some ⟨name, true,
          .answered (some (directory.controller.getCategory source now name).2)⟩ := by
  have hmoved : ∀ stage, (directory.setStage number stage).calls[number]? =
      some ⟨name, true, stage⟩ := by
    intro stage
    rw [setStage, List.getElem?_modify_eq, hcall]
    rfl
  cases hfound : directory.controller.position? name with
  | some position =>
    refine ⟨[.look number], directory.setStage number (.answered (some position)), ?_, hfree, ?_,
      ?_⟩
    · simp [run, step, look, hcall, hfree, hfound]
    · rw [Controller.getCategory, hfound]
      rfl
    · rw [Controller.getCategory, hfound]
      exact hmoved _
  | none =>
    have hlook : directory.step (.look number) = some (directory.setStage number .missed) := by
      simp [step, look, hcall, hfree, hfound]
    let begun : Directory R := { (directory.setStage number .missed).setStage number .creating with
      creation := some ⟨number, name, .begun⟩ }
    have hrecheck : (directory.setStage number .missed).step (.recheck number) = some begun := by
      have hnew : (directory.setStage number .missed).controller.position? name = none := hfound
      rw [step, hmoved, Option.bind_some, recheck, if_pos ⟨rfl, hfree⟩]
      simp only [hnew, begun]
    have hrun : directory.run [.look number, .recheck number, .weigh source now, .add, .enter] =
        begun.run [.weigh source now, .add, .enter] := by
      rw [run, List.foldlM_cons, hlook]
      change ((directory.setStage number .missed).step (.recheck number)).bind _ = _
      rw [hrecheck]
      rfl
    have hbegun : begun.creation = some ⟨number, name, .begun⟩ := rfl
    refine ⟨_, _, hrun.trans (run_creation hbegun hidle source now), rfl, ?_, ?_⟩
    · rw [Controller.getCategory, hfound]
      dsimp only
      rw [Controller.createCategory, hfound]
      rfl
    · rw [Controller.getCategory, hfound]
      dsimp only
      rw [Controller.createCategory, hfound]
      change (((directory.calls.modify number _).modify number _).modify number _)[number]? = _
      rw [List.getElem?_modify_eq, List.getElem?_modify_eq, List.getElem?_modify_eq, hcall]
      rfl

end Alone

end Directory

end Admission
