import Admission.Proofs.Roll

/-!
# A watchdog keeps to the roll

A `Vigil` is a watchdog at its work, with the commands on their way to it, while callers make and
cancel handles whenever they like. The watchdog takes its turns one by one, and when it forgets
cancelled work early it looks at one registration after another.

A vigil shows what a roll shows (`Vigil.Shows`), and behind that it has every registration that is
still to be called, in the map of what is watched and in the queue of deadlines (`Vigil.Mirrors`).
Registrations are skipped and forgotten where nobody sees it: such a step leaves the roll as it is.
So a vigil does what the roll can do, and all of it (`Vigil.Follows`): `follows_roll` proves that.
The watchdog comes to the end of each pass by itself, and a pass that nobody disturbs is
`Watchdog.pass` (`run_pass`).
-/

set_option autoImplicit false
set_option relaxedAutoImplicit false

namespace Admission

/-! ### The parts of a watchdog -/

namespace Watchdog

variable {watchdog next : Watchdog} {now number : Nat} {watched : Watched}

/-- Two deadlines are in order. -/
def Before (first second : Nat × Nat) : Prop :=
  first.1 < second.1 ∨ (first.1 = second.1 ∧ first.2 < second.2)

theorem Before.trans {first second third : Nat × Nat} (h : Before first second)
    (h' : Before second third) : Before first third := by
  unfold Before at *
  omega

theorem mem_insertDeadline (entry other : Nat × Nat) (deadlines : List (Nat × Nat)) :
    other ∈ insertDeadline entry deadlines ↔ other = entry ∨ other ∈ deadlines := by
  induction deadlines with
  | nil => exact List.mem_cons
  | cons next rest ih =>
    rw [insertDeadline]
    split
    · exact List.mem_cons
    · rw [List.mem_cons, ih, List.mem_cons]
      exact or_left_comm

/-- A deadline with the number of a later registration has one place in the order. -/
theorem pairwise_insertDeadline {entry : Nat × Nat} {deadlines : List (Nat × Nat)}
    (hnew : ∀ other ∈ deadlines, other.2 < entry.2) (h : deadlines.Pairwise Before) :
    (insertDeadline entry deadlines).Pairwise Before := by
  induction deadlines with
  | nil => exact List.pairwise_singleton ..
  | cons next rest ih =>
    obtain ⟨hnext, hrest⟩ := List.pairwise_cons.mp h
    rw [insertDeadline]
    split
    · next hbefore =>
      refine List.pairwise_cons.mpr ⟨?_, h⟩
      intro other hother
      rcases List.mem_cons.mp hother with rfl | hother
      · exact hbefore
      · exact Before.trans hbefore (hnext other hother)
    · next hafter =>
      have hlater : Before next entry := by
        have hnumber := hnew next List.mem_cons_self
        unfold Before
        omega
      refine List.pairwise_cons.mpr ⟨?_, ih (fun other hother ↦
        hnew other (List.mem_cons_of_mem _ hother)) hrest⟩
      intro other hother
      rcases (mem_insertDeadline entry other rest).mp hother with rfl | hother
      · exact hlater
      · exact hnext other hother

theorem find?_register (watchdog : Watchdog) (deadline : Nat) (watched : Watched) (number : Nat) :
    (watchdog.register deadline watched).find? number =
      if watchdog.registrations + 1 = number then some watched else watchdog.find? number := by
  rw [find?, register, List.find?_cons]
  by_cases hnumber : watchdog.registrations + 1 = number
  · simp [hnumber]
  · simp [hnumber, find?]

theorem find?_forget (watchdog : Watchdog) (forgotten number : Nat) :
    (watchdog.forget forgotten).find? number =
      if forgotten = number then none else watchdog.find? number := by
  rw [find?, forget, List.find?_filter]
  by_cases hnumber : forgotten = number
  · subst hnumber
    rw [if_pos rfl, Option.map_eq_none_iff, List.find?_eq_none]
    simp
  · rw [if_neg hnumber, find?]
    congr 2
    funext entry
    by_cases hentry : entry.1 = number
    · simp [hentry, Ne.symm hnumber]
    · simp [hentry]

theorem exists_find?_of_mem (hmem : number ∈ watchdog.watched.map (·.1)) :
    ∃ watched, watchdog.find? number = some watched := by
  obtain ⟨entry, hentry, rfl⟩ := List.mem_map.mp hmem
  obtain ⟨found, hfound⟩ :
      ∃ found, watchdog.watched.find? (fun other ↦ other.1 = entry.1) = some found :=
    Option.isSome_iff_exists.mp (List.find?_isSome.mpr ⟨entry, hentry, decide_eq_true rfl⟩)
  exact ⟨found.2, by rw [find?, hfound, Option.map_some]⟩

theorem handle_newHandle (watchdog : Watchdog) (number : Nat) :
    watchdog.newHandle.1.handle number = watchdog.handle number := by
  rw [handle, handle, newHandle, Array.getElem?_push]
  by_cases hnumber : number = watchdog.handles.size
  · subst hnumber
    simp
  · rw [if_neg hnumber]

/-- What a handle shows after it has been changed, or another one has. -/
theorem handle_modify {changed : Nat} (hchanged : changed < watchdog.handles.size)
    (change : Watch → Watch)
    (hnext : next.handles = watchdog.handles.modify changed change) (number : Nat) :
    next.handle number =
      if changed = number then change (watchdog.handle number) else watchdog.handle number := by
  rw [handle, handle, hnext, Array.getElem?_modify]
  by_cases hnumber : changed = number
  · subst hnumber
    rw [if_pos rfl, if_pos rfl, Array.getElem?_eq_getElem hchanged]
    rfl
  · rw [if_neg hnumber, if_neg hnumber]

/-- What happens when a deadline has its turn: the hook is called or not. -/
inductive Turns (watchdog : Watchdog) (now : Nat) : Bool → Watchdog → Prop
  | gone {deadline number : Nat} {rest : List (Nat × Nat)}
    (hhead : watchdog.deadlines = (deadline, number) :: rest) (hpassed : deadline ≤ now)
    (hgone : watchdog.find? number = none) :
    Turns watchdog now false { watchdog with deadlines := rest }
  | cancelled {deadline number : Nat} {rest : List (Nat × Nat)} {watched : Watched}
    (hhead : watchdog.deadlines = (deadline, number) :: rest) (hpassed : deadline ≤ now)
    (hfound : watchdog.find? number = some watched)
    (hcancelled : (watchdog.handle watched.handle).cancelled = true) :
    Turns watchdog now false ({ watchdog with deadlines := rest }.forget number)
  | ring {deadline number : Nat} {rest : List (Nat × Nat)} {watched : Watched}
    (hhead : watchdog.deadlines = (deadline, number) :: rest) (hpassed : deadline ≤ now)
    (hfound : watchdog.find? number = some watched)
    (hlive : (watchdog.handle watched.handle).cancelled = false) :
    Turns watchdog now true
      { { watchdog with deadlines := rest }.forget number with
        handles := watchdog.handles.modify watched.handle fun watch ↦ { watch with expired := true }
        fired := watchdog.fired ++ [(watched.task, watched.timeout)] }

theorem turns_of_turn? (h : watchdog.turn? now = some next) :
    watchdog.Turns now (decide (watchdog.fired.length < next.fired.length)) next := by
  unfold turn? at h
  split at h
  · cases h
  · next deadline number rest hhead =>
    obtain ⟨hpassed, h⟩ := Option.ite_none_left_eq_some.mp h
    dsimp only at h
    split at h
    · next hgone =>
      cases h
      rw [decide_eq_false (Nat.lt_irrefl _)]
      exact .gone hhead (Nat.not_lt.mp hpassed) hgone
    · next watched hfound =>
      cases h
      unfold fire
      split
      · next hcancelled =>
        simp only [forget, Nat.lt_irrefl, decide_false]
        exact .cancelled hhead (Nat.not_lt.mp hpassed) hfound hcancelled
      · next hlive =>
        rw [decide_eq_true (by simp [forget])]
        exact .ring hhead (Nat.not_lt.mp hpassed) hfound (Bool.eq_false_of_not_eq_true hlive)

/-- A deadline that has passed has its turn. -/
theorem exists_turn? {deadline : Nat} {rest : List (Nat × Nat)}
    (hhead : watchdog.deadlines = (deadline, number) :: rest) (hpassed : deadline ≤ now) :
    ∃ next, watchdog.turn? now = some next := by
  unfold turn?
  rw [hhead]
  dsimp only
  rw [if_neg (Nat.not_lt.mpr hpassed)]
  split <;> exact ⟨_, rfl⟩

end Watchdog

/-! ### A watchdog at its work -/

/-- What a watchdog is at. -/
inductive Vigil.Round where
  /-- It waits for a command. -/
  | waiting
  /-- It gives their turns to the deadlines that have passed. -/
  | passing (now : Nat)
  /-- It forgets what was cancelled, and these registrations are left to be looked at. -/
  | pruning (unchecked : List Nat)
deriving DecidableEq

/-- The time of the pass that is under way. -/
def Vigil.Round.pass : Vigil.Round → Option Nat
  | .passing now => some now
  | _ => none

/-- A watchdog at its work. -/
structure Vigil where
  watchdog : Watchdog := {}
  /-- The commands that are not taken yet. -/
  sent : List WatchCommand := []
  round : Vigil.Round := .waiting

namespace Vigil

/-- One step of a caller or of the watchdog. -/
inductive Event where
  /-- Something happens that callers see. -/
  | shown (event : Roll.Event)
  /-- A deadline has its turn, and the hook is not called. -/
  | skip
  /-- The watchdog looks whether a registration was cancelled, and forgets it if it was. -/
  | check (number : Nat)
  /-- Every registration was looked at. -/
  | rest
deriving DecidableEq

/-- What callers see of an event. -/
def Event.shown? : Event → Option Roll.Event
  | .shown event => some event
  | _ => none

/-- An event is a step that the watchdog takes by itself when it does not wait. -/
def Event.isOwn : Event → Bool
  | .shown .ring | .shown .close | .skip | .check _ | .rest => true
  | _ => false

/-- Forgets a registration if it was cancelled. -/
def check (watchdog : Watchdog) (number : Nat) : Watchdog :=
  match watchdog.find? number with
  | some watched =>
    if (watchdog.handle watched.handle).cancelled then watchdog.forget number else watchdog
  | none => watchdog

/-- The next deadline has its turn, and the hook is called or not. -/
def turn (vigil : Vigil) (rings : Bool) : Option Vigil :=
  match vigil.round with
  | .passing now =>
    (vigil.watchdog.turn? now).bind fun watchdog ↦
      if decide (vigil.watchdog.fired.length < watchdog.fired.length) = rings then
        some { vigil with watchdog }
      else none
  | _ => none

/-- What an event that callers see makes of a vigil. -/
def stepShown (vigil : Vigil) : Roll.Event → Option Vigil
  | .monitor now task timeout =>
    let (watchdog, handle) := vigil.watchdog.newHandle
    some { vigil with
      watchdog
      sent := vigil.sent ++ (Watchdog.watchCommand? now ⟨task, timeout, handle⟩).toList }
  | .cancel handle =>
    if handle < vigil.watchdog.handles.size then
      some { vigil with watchdog := vigil.watchdog.cancel handle }
    else none
  | .shutDown => some { vigil with sent := vigil.sent ++ [.shutdown] }
  | .take now =>
    if vigil.round = .waiting ∧ vigil.watchdog.stopped = false then
      match vigil.sent with
      | .watch deadline watched :: rest =>
        some ⟨vigil.watchdog.register deadline watched, rest, .passing now⟩
      | .shutdown :: rest => some ⟨{ vigil.watchdog with stopped := true }, rest, .waiting⟩
      | [] => none
    else none
  | .wake now =>
    if vigil.round = .waiting ∧ vigil.watchdog.stopped = false then
      some { vigil with round := .passing now }
    else none
  | .ring => vigil.turn true
  | .close =>
    match vigil.round with
    | .passing now =>
      if (vigil.watchdog.turn? now).isNone then
        some { vigil with
          round :=
            if Watchdog.pruneAbove < vigil.watchdog.watched.length then
              .pruning (vigil.watchdog.watched.map (·.1))
            else .waiting }
      else none
    | _ => none

/-- What an event makes of a vigil, if it can happen. -/
def step (vigil : Vigil) : Event → Option Vigil
  | .shown event => vigil.stepShown event
  | .skip => vigil.turn false
  | .check number =>
    match vigil.round with
    | .pruning unchecked =>
      if number ∈ unchecked then
        some { vigil with
          watchdog := check vigil.watchdog number
          round := .pruning (unchecked.erase number) }
      else none
    | _ => none
  | .rest => if vigil.round = .pruning [] then some { vigil with round := .waiting } else none

/-- What several events make of a vigil, if they can happen. -/
def run (vigil : Vigil) (events : List Event) : Option Vigil := events.foldlM step vigil

variable {vigil next last : Vigil} {event : Event} {events : List Event} {roll after : Roll}
  {now number : Nat}

/-! ### What a step does -/

/-- What an event can do to a vigil. -/
inductive Steps (vigil : Vigil) : Event → Vigil → Prop
  | monitor (now : Nat) (task : String) (timeout : Duration) :
    Steps vigil (.shown (.monitor now task timeout))
      { vigil with
        watchdog := vigil.watchdog.newHandle.1
        sent := vigil.sent ++ (Watchdog.watchCommand? now
          ⟨task, timeout, vigil.watchdog.handles.size⟩).toList }
  | cancel {handle : Nat} (hmade : handle < vigil.watchdog.handles.size) :
    Steps vigil (.shown (.cancel handle)) { vigil with watchdog := vigil.watchdog.cancel handle }
  | shutDown : Steps vigil (.shown .shutDown) { vigil with sent := vigil.sent ++ [.shutdown] }
  | watch (now : Nat) (hround : vigil.round = .waiting) (hopen : vigil.watchdog.stopped = false)
    {deadline : Nat} {watched : Watched} {rest : List WatchCommand}
    (hsent : vigil.sent = .watch deadline watched :: rest) :
    Steps vigil (.shown (.take now))
      ⟨vigil.watchdog.register deadline watched, rest, .passing now⟩
  | stop (now : Nat) (hround : vigil.round = .waiting) (hopen : vigil.watchdog.stopped = false)
    {rest : List WatchCommand} (hsent : vigil.sent = .shutdown :: rest) :
    Steps vigil (.shown (.take now)) ⟨{ vigil.watchdog with stopped := true }, rest, .waiting⟩
  | wake (now : Nat) (hround : vigil.round = .waiting) (hopen : vigil.watchdog.stopped = false) :
    Steps vigil (.shown (.wake now)) { vigil with round := .passing now }
  | ring {now : Nat} {watchdog : Watchdog} (hround : vigil.round = .passing now)
    (hturn : vigil.watchdog.Turns now true watchdog) :
    Steps vigil (.shown .ring) { vigil with watchdog }
  | skip {now : Nat} {watchdog : Watchdog} (hround : vigil.round = .passing now)
    (hturn : vigil.watchdog.Turns now false watchdog) :
    Steps vigil .skip { vigil with watchdog }
  | close {now : Nat} (hround : vigil.round = .passing now)
    (hnone : vigil.watchdog.turn? now = none) :
    Steps vigil (.shown .close)
      { vigil with
        round :=
          if Watchdog.pruneAbove < vigil.watchdog.watched.length then
            .pruning (vigil.watchdog.watched.map (·.1))
          else .waiting }
  | check {number : Nat} {unchecked : List Nat} (hround : vigil.round = .pruning unchecked)
    (hmem : number ∈ unchecked) :
    Steps vigil (.check number)
      { vigil with
        watchdog := Vigil.check vigil.watchdog number
        round := .pruning (unchecked.erase number) }
  | rest (hround : vigil.round = .pruning []) :
    Steps vigil .rest { vigil with round := .waiting }

theorem turns_of_turn {rings : Bool} (h : vigil.turn rings = some next) :
    ∃ now watchdog, vigil.round = .passing now ∧ vigil.watchdog.Turns now rings watchdog ∧
      next = { vigil with watchdog } := by
  unfold turn at h
  split at h
  · next now hround =>
    obtain ⟨watchdog, hturn, h⟩ := Option.bind_eq_some_iff.mp h
    obtain ⟨rfl, ⟨⟩⟩ := Option.ite_none_right_eq_some.mp h
    exact ⟨now, watchdog, hround, Watchdog.turns_of_turn? hturn, rfl⟩
  · cases h

theorem steps_of_stepShown {shown : Roll.Event} (h : vigil.stepShown shown = some next) :
    vigil.Steps (.shown shown) next := by
  cases shown with
  | monitor now task timeout =>
    cases h
    exact .monitor now task timeout
  | cancel handle =>
    obtain ⟨hmade, ⟨⟩⟩ := Option.ite_none_right_eq_some.mp h
    exact .cancel hmade
  | shutDown =>
    cases h
    exact .shutDown
  | take now =>
    obtain ⟨⟨hround, hopen⟩, h⟩ := Option.ite_none_right_eq_some.mp h
    split at h
    · next deadline watched rest hsent =>
      cases h
      exact .watch now hround hopen hsent
    · next rest hsent =>
      cases h
      exact .stop now hround hopen hsent
    · cases h
  | wake now =>
    obtain ⟨⟨hround, hopen⟩, ⟨⟩⟩ := Option.ite_none_right_eq_some.mp h
    exact .wake now hround hopen
  | ring =>
    obtain ⟨now, watchdog, hround, hturn, rfl⟩ := turns_of_turn h
    exact .ring hround hturn
  | close =>
    simp only [stepShown] at h
    split at h
    · next now hround =>
      obtain ⟨hnone, ⟨⟩⟩ := Option.ite_none_right_eq_some.mp h
      exact .close hround (Option.isNone_iff_eq_none.mp hnone)
    · cases h

theorem steps_of_step (h : vigil.step event = some next) : vigil.Steps event next := by
  cases event with
  | shown shown => exact steps_of_stepShown h
  | skip =>
    obtain ⟨now, watchdog, hround, hturn, rfl⟩ := turns_of_turn h
    exact .skip hround hturn
  | check number =>
    simp only [step] at h
    split at h
    · next unchecked hround =>
      obtain ⟨hmem, ⟨⟩⟩ := Option.ite_none_right_eq_some.mp h
      exact .check hround hmem
    · cases h
  | rest =>
    obtain ⟨hround, ⟨⟩⟩ := Option.ite_none_right_eq_some.mp h
    exact .rest hround

/-! ### What a vigil shows -/

/-- A vigil shows what a roll shows. It has every registration that may still be called. -/
structure Shows (vigil : Vigil) (roll : Roll) : Prop where
  fired : vigil.watchdog.fired = roll.calls
  handles : vigil.watchdog.handles.size = roll.made
  cancelled : ∀ handle,
    (vigil.watchdog.handle handle).cancelled = true ↔ handle ∈ roll.cancelled
  /-- A handle is expired if the hook was called for it, and only then. -/
  expired : ∀ handle, (vigil.watchdog.handle handle).expired = true ↔ roll.Called handle
  registrations : vigil.watchdog.registrations = roll.entries.length
  sent : vigil.sent = roll.sent
  stopped : vigil.watchdog.stopped = roll.stopped
  kept : ∀ {position : Nat} {entry : Nat × Watched}, roll.entries[position]? = some entry →
    position ∉ roll.rung → entry.2.handle ∉ roll.cancelled →
      vigil.watchdog.find? (position + 1) = some entry.2 ∧
        (entry.1, position + 1) ∈ vigil.watchdog.deadlines

/-- Behind what a vigil shows, the map and the queue have registrations of the roll, the map none
that was called, and the queue is in order. -/
structure Mirrors (vigil : Vigil) (roll : Roll) : Prop extends Shows vigil roll where
  pass : roll.pass = vigil.round.pass
  watched : ∀ {number : Nat} {watched : Watched}, vigil.watchdog.find? number = some watched →
    ∃ position deadline, number = position + 1 ∧
      roll.entries[position]? = some (deadline, watched) ∧ position ∉ roll.rung
  deadlines : ∀ {deadline number : Nat}, (deadline, number) ∈ vigil.watchdog.deadlines →
    ∃ position watched, number = position + 1 ∧
      roll.entries[position]? = some (deadline, watched)
  sorted : vigil.watchdog.deadlines.Pairwise Watchdog.Before
  numbers : (vigil.watchdog.watched.map (·.1)).Nodup
  sound : roll.Sound

namespace Mirrors

theorem start : Mirrors {} {} where
  fired := rfl
  handles := rfl
  cancelled handle := by simp [Watchdog.handle]
  expired handle := by simp [Watchdog.handle, Roll.Called]
  registrations := rfl
  sent := rfl
  stopped := rfl
  kept h := by simp at h
  pass := rfl
  watched h := by cases h
  deadlines h := by cases h
  sorted := .nil
  numbers := List.nodup_nil
  sound := .start

/-! ### Steps that nobody sees -/

/-- What the watchdog is at is not to be seen but for the pass. -/
theorem withRound (h : Mirrors vigil roll) {round : Round} (hpass : round.pass = vigil.round.pass) :
    Mirrors { vigil with round } roll :=
  { h with pass := h.pass.trans hpass.symm }

/-- A deadline is taken off the queue whose registration will not be called any more. -/
theorem drop (h : Mirrors vigil roll) {deadline : Nat} {rest : List (Nat × Nat)}
    (hhead : vigil.watchdog.deadlines = (deadline, number) :: rest)
    (hover : ∀ {position : Nat} {entry : Nat × Watched}, number = position + 1 →
      roll.entries[position]? = some entry → position ∉ roll.rung →
        entry.2.handle ∈ roll.cancelled) :
    Mirrors { vigil with watchdog := { vigil.watchdog with deadlines := rest } } roll :=
  { h with
    kept := by
      intro position entry hentry hrung hlive
      obtain ⟨hfound, hmem⟩ := h.kept hentry hrung hlive
      rw [hhead] at hmem
      refine ⟨hfound, (List.mem_cons.mp hmem).resolve_left fun hsame ↦ ?_⟩
      exact hlive (hover (congrArg Prod.snd hsame).symm hentry hrung)
    deadlines := fun hmem ↦ h.deadlines (hhead ▸ List.mem_cons_of_mem _ hmem)
    sorted := (hhead ▸ h.sorted).of_cons }

/-- A registration is forgotten that was cancelled. -/
theorem forget (h : Mirrors vigil roll) {watched : Watched}
    (hfound : vigil.watchdog.find? number = some watched)
    (hcancelled : (vigil.watchdog.handle watched.handle).cancelled = true) :
    Mirrors { vigil with watchdog := vigil.watchdog.forget number } roll :=
  { h with
    kept := by
      intro position entry hentry hrung hlive
      obtain ⟨hkept, hmem⟩ := h.kept hentry hrung hlive
      refine ⟨(Watchdog.find?_forget ..).trans ?_, hmem⟩
      rw [if_neg ?_, hkept]
      rintro rfl
      rw [hkept] at hfound
      cases hfound
      exact hlive ((h.cancelled _).mp hcancelled)
    watched := by
      intro other watched hother
      rw [Watchdog.find?_forget] at hother
      obtain ⟨-, hother⟩ := Option.ite_none_left_eq_some.mp hother
      exact h.watched hother
    numbers := h.numbers.sublist (List.filter_sublist.map _) }

theorem check (h : Mirrors vigil roll) (number : Nat) :
    Mirrors { vigil with watchdog := Vigil.check vigil.watchdog number } roll := by
  unfold Vigil.check
  split
  · next watched hfound =>
    split
    · next hcancelled => exact h.forget hfound hcancelled
    · exact h
  · exact h

theorem skip (h : Mirrors vigil roll) {watchdog : Watchdog}
    (hturn : vigil.watchdog.Turns now false watchdog) : Mirrors { vigil with watchdog } roll := by
  cases hturn with
  | gone hhead hpassed hgone =>
    refine h.drop hhead fun hnumber hentry hrung ↦ ?_
    by_contra hlive
    rw [hnumber, (h.kept hentry hrung hlive).1] at hgone
    cases hgone
  | cancelled hhead hpassed hfound hcancelled =>
    refine (h.drop hhead fun hnumber hentry hrung ↦ ?_).forget hfound hcancelled
    by_contra hlive
    rw [hnumber, (h.kept hentry hrung hlive).1] at hfound
    cases hfound
    exact hlive ((h.cancelled _).mp hcancelled)

/-! ### Steps that callers see -/

theorem monitor (h : Mirrors vigil roll) (now : Nat) (task : String) (timeout : Duration) :
    ∃ after, roll.Steps (.monitor now task timeout) after ∧
      Mirrors
        { vigil with
          watchdog := vigil.watchdog.newHandle.1
          sent := vigil.sent ++ (Watchdog.watchCommand? now
            ⟨task, timeout, vigil.watchdog.handles.size⟩).toList } after := by
  have hstep : roll.Steps (.monitor now task timeout) _ := .monitor now task timeout
  refine ⟨_, hstep, ?_⟩
  exact
    { h with
      handles := (Array.size_push _).trans (congrArg (· + 1) h.handles)
      cancelled := fun handle ↦ by
        rw [Watchdog.handle_newHandle]
        exact h.cancelled handle
      expired := fun handle ↦ by
        rw [Watchdog.handle_newHandle]
        exact h.expired handle
      sent := by rw [h.sent, h.handles]
      sound := h.sound.steps hstep }

theorem cancel (h : Mirrors vigil roll) {handle : Nat}
    (hmade : handle < vigil.watchdog.handles.size) :
    ∃ after, roll.Steps (.cancel handle) after ∧
      Mirrors { vigil with watchdog := vigil.watchdog.cancel handle } after := by
  have hstep : roll.Steps (.cancel handle) _ := .cancel (h.handles ▸ hmade)
  have hhandle : ∀ other, (vigil.watchdog.cancel handle).handle other = _ :=
    Watchdog.handle_modify hmade (fun watch ↦ { watch with cancelled := true }) rfl
  refine ⟨_, hstep, ?_⟩
  exact
    { h with
      handles := Array.size_modify.trans h.handles
      cancelled := fun other ↦ by
        rw [hhandle, List.mem_append, List.mem_singleton, ← h.cancelled other]
        by_cases hother : handle = other
        · simp [hother]
        · simp [hother, Ne.symm hother]
      expired := fun other ↦ by
        rw [hhandle]
        refine Iff.trans ?_ (h.expired other)
        split <;> rfl
      kept := fun hentry hrung hlive ↦
        h.kept hentry hrung fun hmem ↦ hlive (List.mem_append_left _ hmem)
      sound := h.sound.steps hstep }

theorem shutDown (h : Mirrors vigil roll) :
    ∃ after, roll.Steps .shutDown after ∧
      Mirrors { vigil with sent := vigil.sent ++ [.shutdown] } after :=
  ⟨_, .shutDown,
    { h with
      sent := congrArg (· ++ _) h.sent
      sound := h.sound.steps .shutDown }⟩

theorem watch (h : Mirrors vigil roll) (now : Nat) (hround : vigil.round = .waiting)
    (hopen : vigil.watchdog.stopped = false) {deadline : Nat} {watched : Watched}
    {rest : List WatchCommand} (hsent : vigil.sent = .watch deadline watched :: rest) :
    ∃ after, roll.Steps (.take now) after ∧
      Mirrors ⟨vigil.watchdog.register deadline watched, rest, .passing now⟩ after := by
  have hstep : roll.Steps (.take now) _ :=
    .watch now (h.pass.trans (congrArg Round.pass hround)) (h.stopped ▸ hopen) (h.sent ▸ hsent)
  refine ⟨_, hstep, ?_⟩
  have hold : ∀ {position : Nat}, position ∈ roll.rung →
      (roll.entries ++ [(deadline, watched)])[position]? = roll.entries[position]? :=
    fun hrung ↦ List.getElem?_append_left (h.sound.rung_lt _ hrung)
  constructor
  case sound => exact h.sound.steps hstep
  case pass => rfl
  case toShows =>
    constructor
    case fired =>
      refine h.fired.trans (List.filterMap_congr fun position hrung ↦ ?_)
      rw [hold hrung]
    case handles => exact h.handles
    case cancelled => exact h.cancelled
    case expired =>
      intro handle
      refine (h.expired handle).trans (exists_congr fun position ↦ and_congr_right fun hrung ↦ ?_)
      rw [hold hrung]
    case registrations =>
      rw [List.length_append]
      exact congrArg (· + 1) h.registrations
    case sent => rfl
    case stopped => exact h.stopped
    case kept =>
      intro position entry hentry hrung hlive
      rw [Watchdog.find?_register, Watchdog.register, Watchdog.mem_insertDeadline, h.registrations]
      rcases Nat.lt_or_ge position roll.entries.length with hlt | hge
      · rw [List.getElem?_append_left hlt] at hentry
        obtain ⟨hfound, hmem⟩ := h.kept hentry hrung hlive
        exact ⟨(if_neg (by omega)).trans hfound, .inr hmem⟩
      · rw [List.getElem?_append_right hge, List.getElem?_singleton] at hentry
        obtain ⟨hlast, ⟨⟩⟩ := Option.ite_none_right_eq_some.mp hentry
        obtain rfl : position = roll.entries.length := by omega
        exact ⟨if_pos rfl, .inl rfl⟩
  case watched =>
    intro number other hfound
    rw [Watchdog.find?_register, h.registrations] at hfound
    split at hfound
    · next hnumber =>
      cases hfound
      refine ⟨roll.entries.length, deadline, hnumber.symm, List.getElem?_concat_length, ?_⟩
      exact fun hrung ↦ Nat.lt_irrefl _ (h.sound.rung_lt _ hrung)
    · obtain ⟨position, deadline, hnumber, hentry, hrung⟩ := h.watched hfound
      exact ⟨position, deadline, hnumber,
        (List.getElem?_append_left (List.getElem?_eq_some_iff.mp hentry).1).trans hentry, hrung⟩
  case deadlines =>
    intro time number hmem
    rw [Watchdog.register, Watchdog.mem_insertDeadline, h.registrations] at hmem
    rcases hmem with hnew | hmem
    · cases hnew
      exact ⟨roll.entries.length, watched, rfl, List.getElem?_concat_length⟩
    · obtain ⟨position, watched, hnumber, hentry⟩ := h.deadlines hmem
      exact ⟨position, watched, hnumber,
        (List.getElem?_append_left (List.getElem?_eq_some_iff.mp hentry).1).trans hentry⟩
  case sorted =>
    refine Watchdog.pairwise_insertDeadline ?_ h.sorted
    intro other hother
    obtain ⟨position, watched, hnumber, hentry⟩ := h.deadlines hother
    have hlt := (List.getElem?_eq_some_iff.mp hentry).1
    rw [h.registrations, hnumber]
    exact Nat.succ_lt_succ hlt
  case numbers =>
    refine List.nodup_cons.mpr ⟨fun hmem ↦ ?_, h.numbers⟩
    obtain ⟨found, hfound⟩ := Watchdog.exists_find?_of_mem hmem
    obtain ⟨position, deadline, hnumber, hentry, -⟩ := h.watched hfound
    have hposition : position = roll.entries.length :=
      (Nat.succ.inj hnumber).symm.trans h.registrations
    exact Nat.lt_irrefl _ (hposition ▸ (List.getElem?_eq_some_iff.mp hentry).1)

theorem stop (h : Mirrors vigil roll) (now : Nat) (hround : vigil.round = .waiting)
    (hopen : vigil.watchdog.stopped = false) {rest : List WatchCommand}
    (hsent : vigil.sent = .shutdown :: rest) :
    ∃ after, roll.Steps (.take now) after ∧
      Mirrors ⟨{ vigil.watchdog with stopped := true }, rest, .waiting⟩ after := by
  have hpass : roll.pass = none := h.pass.trans (congrArg Round.pass hround)
  have hstep : roll.Steps (.take now) _ :=
    .stop now hpass (h.stopped ▸ hopen) (h.sent ▸ hsent)
  refine ⟨_, hstep, ?_⟩
  exact
    { h with
      sent := rfl
      stopped := rfl
      pass := hpass
      sound := h.sound.steps hstep }

theorem wake (h : Mirrors vigil roll) (now : Nat) (hround : vigil.round = .waiting)
    (hopen : vigil.watchdog.stopped = false) :
    ∃ after, roll.Steps (.wake now) after ∧ Mirrors { vigil with round := .passing now } after := by
  have hstep : roll.Steps (.wake now) _ :=
    .wake now (h.pass.trans (congrArg Round.pass hround)) (h.stopped ▸ hopen)
  exact ⟨_, hstep, { h with pass := rfl, sound := h.sound.steps hstep }⟩

/-- The registration at the head of the queue is the first that is due, unless it was cancelled. -/
theorem next?_eq (h : Mirrors vigil roll) {deadline position : Nat} {rest : List (Nat × Nat)}
    {watched : Watched} (hhead : vigil.watchdog.deadlines = (deadline, position + 1) :: rest)
    (hpassed : deadline ≤ now) (hentry : roll.entries[position]? = some (deadline, watched))
    (hrung : position ∉ roll.rung) (hlive : watched.handle ∉ roll.cancelled) :
    roll.next? now = some position := by
  refine Roll.next?_eq_some_iff.mpr ⟨Roll.isDue_iff.mpr ⟨_, hentry, hpassed, hrung, hlive⟩, ?_⟩
  intro other hother
  obtain ⟨entry, hotherentry, -, hotherrung, hotherlive⟩ := Roll.isDue_iff.mp hother
  have hmem := (h.kept hotherentry hotherrung hotherlive).2
  have hsorted := h.sorted
  rw [hhead] at hmem hsorted
  rcases List.mem_cons.mp hmem with hsame | hmem
  · obtain rfl : other = position := Nat.succ.inj (congrArg Prod.snd hsame)
    exact le_rfl
  · have hbefore := (List.pairwise_cons.mp hsorted).1 _ hmem
    rw [Roll.turn, Roll.turn, hentry, hotherentry]
    refine Prod.Lex.toLex_le_toLex.mpr (hbefore.imp_right fun htie ↦ ⟨htie.1, ?_⟩)
    exact Nat.le_of_lt (Nat.lt_of_succ_lt_succ htie.2)

theorem ring (h : Mirrors vigil roll) (hround : vigil.round = .passing now) {watchdog : Watchdog}
    (hturn : vigil.watchdog.Turns now true watchdog) :
    ∃ after, roll.Steps .ring after ∧ Mirrors { vigil with watchdog } after := by
  cases hturn with
  | @ring deadline number rest watched hhead hpassed hfound hlive =>
    obtain ⟨position, time, rfl, hentry, hrung⟩ := h.watched hfound
    obtain rfl : time = deadline := by
      obtain ⟨other, otherwatched, hnumber, hother⟩ :=
        h.deadlines (hhead ▸ List.mem_cons_self : (deadline, position + 1) ∈ _)
      obtain rfl : position = other := Nat.succ.inj hnumber
      cases hentry.symm.trans hother
      rfl
    have huncancelled : watched.handle ∉ roll.cancelled := fun hmem ↦
      Bool.false_ne_true (hlive.symm.trans ((h.cancelled _).mpr hmem))
    have hstep : roll.Steps .ring _ :=
      .ring (h.pass.trans (congrArg Round.pass hround))
        (h.next?_eq hhead hpassed hentry hrung huncancelled)
    have hmade : watched.handle < vigil.watchdog.handles.size := by
      rw [h.handles]
      refine h.sound.expected_lt _ (List.mem_append_left _ ?_)
      exact List.mem_map_of_mem (f := fun entry : Nat × Watched ↦ entry.2.handle)
        (List.mem_of_getElem? hentry)
    refine ⟨_, hstep, ?_⟩
    constructor
    case sound => exact h.sound.steps hstep
    case pass => exact h.pass
    case toShows =>
      constructor
      case fired =>
        change vigil.watchdog.fired ++ _ = List.filterMap _ (roll.rung ++ [position])
        rw [List.filterMap_append, h.fired]
        refine congrArg (_ ++ ·) ?_
        rw [List.filterMap_cons, hentry]
        rfl
      case handles => exact Array.size_modify.trans h.handles
      case cancelled =>
        intro handle
        refine Iff.trans ?_ (h.cancelled handle)
        rw [Watchdog.handle_modify hmade (fun watch ↦ { watch with expired := true }) rfl]
        split <;> rfl
      case expired =>
        intro handle
        rw [Watchdog.handle_modify hmade (fun watch ↦ { watch with expired := true }) rfl,
          Roll.called_concat hentry, ← h.expired]
        by_cases hhandle : watched.handle = handle
        · simp [hhandle]
        · simp [hhandle]
      case registrations => exact h.registrations
      case sent => exact h.sent
      case stopped => exact h.stopped
      case kept =>
        intro other entry hother hotherrung hotherlive
        rw [List.mem_append, List.mem_singleton, not_or] at hotherrung
        obtain ⟨hkept, hmem⟩ := h.kept hother hotherrung.1 hotherlive
        have hne : position + 1 ≠ other + 1 := fun hsame ↦ hotherrung.2 (Nat.succ.inj hsame).symm
        refine ⟨((Watchdog.find?_forget ..).trans (if_neg hne)).trans hkept, ?_⟩
        rw [hhead] at hmem
        refine (List.mem_cons.mp hmem).resolve_left fun hsame ↦ ?_
        exact hne (congrArg Prod.snd hsame).symm
    case watched =>
      intro number other hother
      change (Watchdog.forget _ _).find? number = _ at hother
      rw [Watchdog.find?_forget] at hother
      obtain ⟨hne, hother⟩ := Option.ite_none_left_eq_some.mp hother
      obtain ⟨place, time, rfl, hplace, hplacerung⟩ := h.watched hother
      refine ⟨place, time, rfl, hplace, ?_⟩
      rw [List.mem_append, List.mem_singleton, not_or]
      exact ⟨hplacerung, fun hsame ↦ hne (hsame ▸ rfl)⟩
    case deadlines => exact fun hmem ↦ h.deadlines (hhead ▸ List.mem_cons_of_mem _ hmem)
    case sorted => exact (hhead ▸ h.sorted).of_cons
    case numbers => exact h.numbers.sublist (List.filter_sublist.map _)

/-- When the head of the queue has not passed, nobody is due. -/
theorem next?_eq_none (h : Mirrors vigil roll) (hnone : vigil.watchdog.turn? now = none) :
    roll.next? now = none := by
  refine Roll.next?_eq_none_iff.mpr fun position hdue ↦ ?_
  obtain ⟨entry, hentry, hpassed, hrung, hlive⟩ := Roll.isDue_iff.mp hdue
  have hmem := (h.kept hentry hrung hlive).2
  cases hdeadlines : vigil.watchdog.deadlines with
  | nil =>
    rw [hdeadlines] at hmem
    cases hmem
  | cons head rest =>
    obtain ⟨deadline, number⟩ := head
    have hsorted := h.sorted
    rw [hdeadlines] at hmem hsorted
    have hle : deadline ≤ entry.1 := by
      rcases List.mem_cons.mp hmem with hsame | hmem
      · exact (congrArg Prod.fst hsame).ge
      · exact ((List.pairwise_cons.mp hsorted).1 _ hmem).elim Nat.le_of_lt fun hsame ↦ hsame.1.le
    obtain ⟨next, hnext⟩ := Watchdog.exists_turn? hdeadlines (hle.trans hpassed)
    cases hnone.symm.trans hnext

theorem close (h : Mirrors vigil roll) (hround : vigil.round = .passing now)
    (hnone : vigil.watchdog.turn? now = none) {round : Round} (hpass : round.pass = none) :
    ∃ after, roll.Steps .close after ∧ Mirrors { vigil with round } after := by
  have hstep : roll.Steps .close _ :=
    .close (h.pass.trans (congrArg Round.pass hround)) (h.next?_eq_none hnone)
  exact ⟨_, hstep, { h with pass := hpass.symm, sound := h.sound.steps hstep }⟩

theorem steps (h : Mirrors vigil roll) (hstep : vigil.Steps event next) :
    ∃ after, roll.run event.shown?.toList = some after ∧ Mirrors next after := by
  have hshown : ∀ {shown : Roll.Event} {next : Vigil},
      (∃ after, roll.Steps shown after ∧ Mirrors next after) →
        ∃ after, roll.run [shown] = some after ∧ Mirrors next after := by
    rintro shown next ⟨after, hsteps, hmirrors⟩
    exact ⟨after, (roll.run_singleton shown).trans (Roll.step_of_steps hsteps), hmirrors⟩
  cases hstep with
  | monitor now task timeout => exact hshown (h.monitor now task timeout)
  | cancel hmade => exact hshown (h.cancel hmade)
  | shutDown => exact hshown h.shutDown
  | watch now hround hopen hsent => exact hshown (h.watch now hround hopen hsent)
  | stop now hround hopen hsent => exact hshown (h.stop now hround hopen hsent)
  | wake now hround hopen => exact hshown (h.wake now hround hopen)
  | ring hround hturn => exact hshown (h.ring hround hturn)
  | close hround hnone =>
    refine hshown (h.close hround hnone ?_)
    split <;> rfl
  | skip hround hturn => exact ⟨roll, rfl, h.skip hturn⟩
  | @check number unchecked hround hmem =>
    refine ⟨roll, rfl, (h.check number).withRound ?_⟩
    exact (congrArg Round.pass hround).symm
  | rest hround => exact ⟨roll, rfl, h.withRound (congrArg Round.pass hround).symm⟩

/-- What callers see of a run is what the roll does. -/
theorem run (h : Mirrors vigil roll) (hrun : vigil.run events = some last) :
    ∃ after, roll.run (events.filterMap (·.shown?)) = some after ∧ Mirrors last after := by
  refine foldlM_induction (motive := fun events last ↦
    ∃ after, roll.run (events.filterMap (·.shown?)) = some after ∧ Mirrors last after)
    ⟨roll, rfl, h⟩ ?_ hrun
  rintro events state next event hstep ⟨middle, hmiddle, hmirrors⟩
  obtain ⟨after, hafter, hnext⟩ := hmirrors.steps (steps_of_step hstep)
  refine ⟨after, ?_, hnext⟩
  have hlast : [event].filterMap (·.shown?) = event.shown?.toList := by
    cases event <;> rfl
  rw [List.filterMap_append, hlast]
  exact foldlM_append_eq_some_iff.mpr ⟨middle, hmiddle, hafter⟩

end Mirrors

/-! ### The watchdog comes to an end of each pass -/

/-- A bound on the steps of the watchdog until it waits. -/
def effort (vigil : Vigil) : Nat :=
  match vigil.round with
  | .waiting => 0
  | .passing _ => vigil.watchdog.deadlines.length + vigil.watchdog.watched.length + 2
  | .pruning unchecked => unchecked.length + 1

theorem length_of_turns {rings : Bool} {watchdog : Watchdog}
    (h : vigil.watchdog.Turns now rings watchdog) :
    watchdog.deadlines.length + 1 = vigil.watchdog.deadlines.length ∧
      watchdog.watched.length ≤ vigil.watchdog.watched.length := by
  cases h with
  | gone hhead hpassed hgone => exact ⟨congrArg List.length hhead.symm, le_rfl⟩
  | cancelled hhead hpassed hfound hcancelled =>
    exact ⟨congrArg List.length hhead.symm, List.length_filter_le ..⟩
  | ring hhead hpassed hfound hlive =>
    exact ⟨congrArg List.length hhead.symm, List.length_filter_le ..⟩

theorem Steps.effort_lt (h : vigil.Steps event next) (hown : event.isOwn = true) :
    next.effort < vigil.effort := by
  cases h with
  | ring hround hturn | skip hround hturn =>
    obtain ⟨hdeadlines, hwatched⟩ := length_of_turns hturn
    simp only [effort, hround]
    omega
  | close hround hnone =>
    simp only [effort, hround]
    split_ifs
    · dsimp only
      rw [List.length_map]
      omega
    · exact Nat.succ_pos _
  | check hround hmem =>
    simp only [effort, hround, List.length_erase_of_mem hmem]
    have hpos := List.length_pos_of_mem hmem
    omega
  | rest hround =>
    simp only [effort, hround]
    exact Nat.succ_pos _
  | monitor | cancel | shutDown | watch | stop | wake => cases hown

theorem length_add_effort_le (hrun : vigil.run events = some last)
    (hown : ∀ event ∈ events, event.isOwn = true) :
    events.length + last.effort ≤ vigil.effort := by
  refine foldlM_induction (motive := fun events last ↦ (∀ event ∈ events, event.isOwn = true) →
    events.length + last.effort ≤ vigil.effort) (fun _ ↦ (Nat.zero_add _).le) ?_ hrun hown
  intro events state next event hstep ih hown
  have hbefore := ih fun other hother ↦ hown other (List.mem_append_left _ hother)
  have hlt := (steps_of_step hstep).effort_lt
    (hown event (List.mem_append_right _ List.mem_cons_self))
  rw [List.length_append, List.length_singleton]
  omega

theorem turn_eq (hround : vigil.round = .passing now) {watchdog : Watchdog}
    (hturn : vigil.watchdog.turn? now = some watchdog) :
    vigil.turn (decide (vigil.watchdog.fired.length < watchdog.fired.length)) =
      some { vigil with watchdog } := by
  simp only [turn, hround, hturn, Option.bind_some, if_true]

theorem step_close (hround : vigil.round = .passing now)
    (hnone : vigil.watchdog.turn? now = none) :
    vigil.step (.shown .close) =
      some { vigil with
        round :=
          if Watchdog.pruneAbove < vigil.watchdog.watched.length then
            .pruning (vigil.watchdog.watched.map (·.1))
          else .waiting } := by
  simp only [step, stepShown, hround, hnone, Option.isNone_none, if_true]

theorem step_check {unchecked : List Nat} (hround : vigil.round = .pruning (number :: unchecked)) :
    vigil.step (.check number) =
      some { vigil with
        watchdog := check vigil.watchdog number
        round := .pruning unchecked } := by
  simp only [step, hround, List.mem_cons_self, if_true, List.erase_cons_head]

/-- While it does not wait, the watchdog can take a step. -/
theorem exists_step (hround : vigil.round ≠ .waiting) :
    ∃ event next, event.isOwn = true ∧ vigil.step event = some next := by
  cases hat : vigil.round with
  | waiting => exact absurd hat hround
  | passing now =>
    cases hturn : vigil.watchdog.turn? now with
    | none => exact ⟨.shown .close, _, rfl, step_close hat hturn⟩
    | some watchdog =>
      have hturned := turn_eq hat hturn
      cases hrings : decide (vigil.watchdog.fired.length < watchdog.fired.length) with
      | true => exact ⟨.shown .ring, _, rfl, hrings ▸ hturned⟩
      | false => exact ⟨.skip, _, rfl, hrings ▸ hturned⟩
  | pruning unchecked =>
    cases unchecked with
    | nil => exact ⟨.rest, _, rfl, if_pos hat⟩
    | cons number unchecked => exact ⟨.check number, _, rfl, step_check hat⟩

theorem exists_run_to_waiting (vigil : Vigil) :
    ∃ own last, vigil.run own = some last ∧ (∀ event ∈ own, event.isOwn = true) ∧
      last.round = .waiting := by
  induction heffort : vigil.effort using Nat.strongRecOn generalizing vigil with
  | ind effort ih =>
    by_cases hround : vigil.round = .waiting
    · exact ⟨[], vigil, rfl, fun _ hmem ↦ absurd hmem List.not_mem_nil, hround⟩
    · obtain ⟨event, next, hown, hstep⟩ := exists_step hround
      have hlt := (steps_of_step hstep).effort_lt hown
      obtain ⟨own, last, hrun, howns, hwaiting⟩ := ih _ (heffort ▸ hlt) next rfl
      refine ⟨event :: own, last, ?_, List.forall_mem_cons.mpr ⟨hown, howns⟩, hwaiting⟩
      rw [run, List.foldlM_cons, hstep]
      exact hrun

/-! ### What the roll can do, the vigil does -/

/-- A run that nobody sees. -/
def Hidden (own : List Event) : Prop := own.filterMap (·.shown?) = []

/-- The watchdog looks at what is left to be looked at and waits. -/
theorem run_checks {unchecked : List Nat} (hround : vigil.round = .pruning unchecked) :
    vigil.run (unchecked.map .check ++ [.rest]) =
      some ⟨unchecked.foldl check vigil.watchdog, vigil.sent, .waiting⟩ := by
  induction unchecked generalizing vigil with
  | nil =>
    rw [List.map_nil, List.nil_append, run, List.foldlM_cons, step, if_pos hround]
    rfl
  | cons number unchecked ih =>
    rw [List.map_cons, List.cons_append, run, List.foldlM_cons, step_check hround]
    exact ih rfl

theorem hidden_checks (unchecked : List Nat) : Hidden (unchecked.map .check ++ [.rest]) := by
  rw [Hidden, List.filterMap_append, List.filterMap_map]
  simp [Function.comp_def, Event.shown?]

/-- The watchdog forgets what it can before it waits. -/
theorem exists_hidden_to_waiting (hpass : vigil.round.pass = none) :
    ∃ own last, vigil.run own = some last ∧ Hidden own ∧ last.round = .waiting := by
  cases hround : vigil.round with
  | waiting => exact ⟨[], vigil, rfl, rfl, hround⟩
  | passing now =>
    rw [hround] at hpass
    cases hpass
  | pruning unchecked => exact ⟨_, _, run_checks hround, hidden_checks unchecked, rfl⟩

/-- The watchdog passes over what is not to be called, up to a call or the end of the pass. -/
theorem exists_hidden_to_shown (hround : vigil.round = .passing now) :
    ∃ own last, vigil.run own = some last ∧ Hidden own ∧
      ((∃ next, last.step (.shown .ring) = some next) ∨
        ∃ next, last.step (.shown .close) = some next) := by
  induction hlength : vigil.watchdog.deadlines.length generalizing vigil with
  | zero =>
    have hnone : vigil.watchdog.turn? now = none := by
      rw [Watchdog.turn?, List.length_eq_zero_iff.mp hlength]
    exact ⟨[], vigil, rfl, rfl, .inr ⟨_, step_close hround hnone⟩⟩
  | succ length ih =>
    cases hturn : vigil.watchdog.turn? now with
    | none => exact ⟨[], vigil, rfl, rfl, .inr ⟨_, step_close hround hturn⟩⟩
    | some watchdog =>
      have hturned := turn_eq hround hturn
      cases hrings : decide (vigil.watchdog.fired.length < watchdog.fired.length) with
      | true => exact ⟨[], vigil, rfl, rfl, .inl ⟨_, hrings ▸ hturned⟩⟩
      | false =>
        rw [hrings] at hturned
        have hskip : vigil.step .skip = some { vigil with watchdog } := hturned
        have hless := (length_of_turns (Watchdog.turns_of_turn? hturn)).1
        have hnext : ({ vigil with watchdog } : Vigil).round = .passing now := hround
        obtain ⟨own, last, hrun, hhidden, hshown⟩ :=
          ih hnext (by dsimp only; omega)
        refine ⟨.skip :: own, last, ?_, hhidden, hshown⟩
        rw [run, List.foldlM_cons, hskip]
        exact hrun

theorem Mirrors.hidden (h : Mirrors vigil roll) {own : List Event} (hhidden : Hidden own)
    (hrun : vigil.run own = some last) : Mirrors last roll := by
  obtain ⟨after, hafter, hmirrors⟩ := h.run hrun
  rw [hhidden] at hafter
  cases hafter
  exact hmirrors

/-- What the roll can do next the vigil can do after steps that nobody sees. -/
theorem Mirrors.exists_step (h : Mirrors vigil roll) {shown : Roll.Event}
    (hstep : roll.Steps shown after) :
    ∃ own middle next, vigil.run own = some middle ∧ Hidden own ∧
      middle.step (.shown shown) = some next := by
  have hwaiting : roll.pass = none → ∃ own middle, vigil.run own = some middle ∧ Hidden own ∧
      middle.round = .waiting ∧ Mirrors middle roll := by
    intro hpass
    obtain ⟨own, middle, hrun, hhidden, hround⟩ :=
      exists_hidden_to_waiting (h.pass.symm.trans hpass)
    exact ⟨own, middle, hrun, hhidden, hround, h.hidden hhidden hrun⟩
  have hpassing : ∀ {now}, roll.pass = some now → ∃ own middle, vigil.run own = some middle ∧
      Hidden own ∧ Mirrors middle roll ∧ ((∃ next, middle.step (.shown .ring) = some next) ∨
        ∃ next, middle.step (.shown .close) = some next) := by
    intro now hpass
    have hround : vigil.round = .passing now := by
      have hat := h.pass.symm.trans hpass
      cases hround : vigil.round with
      | passing time =>
        rw [hround] at hat
        cases hat
        rfl
      | waiting | pruning =>
        rw [hround] at hat
        cases hat
    obtain ⟨own, middle, hrun, hhidden, hshown⟩ := exists_hidden_to_shown hround
    exact ⟨own, middle, hrun, hhidden, h.hidden hhidden hrun, hshown⟩
  -- The vigil calls the hook or ends the pass as the roll does, since the roll allows one of them.
  have hroll : ∀ {middle next : Vigil} {shown : Roll.Event}, Mirrors middle roll →
      middle.step (.shown shown) = some next → ∃ after, roll.Steps shown after := by
    intro middle next shown hmirrors hnext
    obtain ⟨after, hafter, -⟩ := hmirrors.steps (steps_of_step hnext)
    exact ⟨after, Roll.steps_of_step ((roll.run_singleton shown).symm.trans hafter)⟩
  cases hstep with
  | monitor now task timeout => exact ⟨[], vigil, _, rfl, rfl, rfl⟩
  | cancel hmade => exact ⟨[], vigil, _, rfl, rfl, if_pos (h.handles ▸ hmade)⟩
  | shutDown => exact ⟨[], vigil, _, rfl, rfl, rfl⟩
  | watch now hpass hopen hsent | stop now hpass hopen hsent =>
    obtain ⟨own, middle, hrun, hhidden, hround, hmirrors⟩ := hwaiting hpass
    have htaken : ∃ next, middle.step (.shown (.take now)) = some next := by
      simp only [step, stepShown, hround, hmirrors.stopped, hopen, hmirrors.sent, hsent, and_self,
        if_true]
      exact ⟨_, rfl⟩
    obtain ⟨next, hnext⟩ := htaken
    exact ⟨own, middle, next, hrun, hhidden, hnext⟩
  | wake now hpass hopen =>
    obtain ⟨own, middle, hrun, hhidden, hround, hmirrors⟩ := hwaiting hpass
    exact ⟨own, middle, _, hrun, hhidden, if_pos ⟨hround, hmirrors.stopped.trans hopen⟩⟩
  | ring hpass hnext =>
    obtain ⟨own, middle, hrun, hhidden, hmirrors, ⟨next, hring⟩ | ⟨next, hclose⟩⟩ := hpassing hpass
    · exact ⟨own, middle, next, hrun, hhidden, hring⟩
    · obtain ⟨after, hafter⟩ := hroll hmirrors hclose
      cases hafter with
      | close hpass' hnone =>
        cases hpass.symm.trans hpass'
        cases hnext.symm.trans hnone
  | close hpass hnone =>
    obtain ⟨own, middle, hrun, hhidden, hmirrors, ⟨next, hring⟩ | ⟨next, hclose⟩⟩ := hpassing hpass
    · obtain ⟨after, hafter⟩ := hroll hmirrors hring
      cases hafter with
      | ring hpass' hnext =>
        cases hpass.symm.trans hpass'
        cases hnone.symm.trans hnext
    · exact ⟨own, middle, next, hrun, hhidden, hclose⟩

theorem Mirrors.exists_run (h : Mirrors vigil roll) {later : List Roll.Event}
    (hlater : roll.run later = some after) :
    ∃ further last, vigil.run further = some last ∧ further.filterMap (·.shown?) = later ∧
      Mirrors last after := by
  induction later generalizing vigil roll with
  | nil =>
    cases hlater
    exact ⟨[], vigil, rfl, rfl, h⟩
  | cons shown later ih =>
    rw [Roll.run, List.foldlM_cons] at hlater
    obtain ⟨middle, hstep, hrest⟩ := Option.bind_eq_some_iff.mp hlater
    obtain ⟨own, before, next, hrun, hhidden, hnext⟩ := h.exists_step (Roll.steps_of_step hstep)
    obtain ⟨reached, hreached, hmirrors⟩ := (h.hidden hhidden hrun).steps (steps_of_step hnext)
    obtain rfl : reached = middle :=
      Option.some.inj (hreached.symm.trans ((roll.run_singleton shown).trans hstep))
    obtain ⟨further, last, hfurther, hseen, hlast⟩ := ih hmirrors hrest
    refine ⟨own ++ .shown shown :: further, last, ?_, ?_, hlast⟩
    · refine foldlM_append_eq_some_iff.mpr ⟨before, hrun, ?_⟩
      rw [List.foldlM_cons, hnext]
      exact hfurther
    · rw [List.filterMap_append, hhidden, List.nil_append, List.filterMap_cons]
      exact congrArg (shown :: ·) hseen

/-! ### A pass that nobody disturbs -/

/-- The turns of a pass, up to the first deadline that has not passed. -/
theorem exists_run_turns (hround : vigil.round = .passing now) {fuel : Nat}
    (hfuel : vigil.watchdog.deadlines.length ≤ fuel) :
    ∃ own, (∀ event ∈ own, event.isOwn = true) ∧
      vigil.run own =
        some { vigil with watchdog := Watchdog.turns now fuel vigil.watchdog } ∧
      (Watchdog.turns now fuel vigil.watchdog).turn? now = none := by
  induction fuel generalizing vigil with
  | zero =>
    refine ⟨[], fun _ hmem ↦ absurd hmem List.not_mem_nil, rfl, ?_⟩
    rw [Watchdog.turns, Watchdog.turn?, List.length_eq_zero_iff.mp (Nat.le_zero.mp hfuel)]
  | succ fuel ih =>
    cases hturn : vigil.watchdog.turn? now with
    | none =>
      have hstill : Watchdog.turns now (fuel + 1) vigil.watchdog = vigil.watchdog := by
        rw [Watchdog.turns, hturn]
      rw [hstill]
      exact ⟨[], fun _ hmem ↦ absurd hmem List.not_mem_nil, rfl, hturn⟩
    | some watchdog =>
      have hless := (length_of_turns (Watchdog.turns_of_turn? hturn)).1
      have hnext : ({ vigil with watchdog } : Vigil).round = .passing now := hround
      obtain ⟨own, hown, hrun, hnone⟩ := ih hnext (by dsimp only; omega)
      have hturns : Watchdog.turns now (fuel + 1) vigil.watchdog =
          Watchdog.turns now fuel watchdog := by
        rw [Watchdog.turns, hturn]
      rw [hturns]
      have hturned := turn_eq hround hturn
      cases hrings : decide (vigil.watchdog.fired.length < watchdog.fired.length) with
      | true =>
        rw [hrings] at hturned
        have hring : vigil.step (.shown .ring) = some { vigil with watchdog } := hturned
        refine ⟨.shown .ring :: own, List.forall_mem_cons.mpr ⟨rfl, hown⟩, ?_, hnone⟩
        rw [run, List.foldlM_cons, hring]
        exact hrun
      | false =>
        rw [hrings] at hturned
        have hskip : vigil.step .skip = some { vigil with watchdog } := hturned
        refine ⟨.skip :: own, List.forall_mem_cons.mpr ⟨rfl, hown⟩, ?_, hnone⟩
        rw [run, List.foldlM_cons, hskip]
        exact hrun

/-- Looking at one registration leaves out of the map what has its number and was cancelled. -/
theorem check_eq {watchdog : Watchdog} (hnumbers : (watchdog.watched.map (·.1)).Nodup)
    (number : Nat) :
    check watchdog number =
      { watchdog with
        watched := watchdog.watched.filter fun entry ↦
          !(decide (entry.1 = number) && (watchdog.handle entry.2.handle).cancelled) } := by
  have hfind : watchdog.find? number =
      (watchdog.watched.find? fun entry ↦ entry.1 = number).map (·.2) := rfl
  unfold check
  cases hfound : watchdog.watched.find? fun entry ↦ entry.1 = number with
  | none =>
    rw [hfind, hfound, Option.map_none]
    have hall : watchdog.watched.filter (fun entry ↦
        !(decide (entry.1 = number) && (watchdog.handle entry.2.handle).cancelled)) =
          watchdog.watched := by
      refine List.filter_eq_self.mpr fun entry hentry ↦ ?_
      have hne := List.find?_eq_none.mp hfound entry hentry
      simp only [decide_eq_true_eq] at hne
      simp [hne]
    rw [hall]
  | some found =>
    rw [hfind, hfound, Option.map_some]
    have hmem := List.mem_of_find?_eq_some hfound
    have hnumber : found.1 = number := by simpa using List.find?_some hfound
    -- No other registration has the number.
    have honly : ∀ entry ∈ watchdog.watched, entry.1 = number → entry = found :=
      fun entry hentry hsame ↦
        List.inj_on_of_nodup_map hnumbers hentry hmem (hsame.trans hnumber.symm)
    dsimp only
    split
    · next hcancelled =>
      rw [Watchdog.forget]
      congr 1
      refine List.filter_congr fun entry hentry ↦ ?_
      by_cases hsame : entry.1 = number
      · rw [honly entry hentry hsame]
        simp [hnumber, hcancelled]
      · simp [hsame]
    · next hlive =>
      have hall : watchdog.watched.filter (fun entry ↦
          !(decide (entry.1 = number) && (watchdog.handle entry.2.handle).cancelled)) =
            watchdog.watched := by
        refine List.filter_eq_self.mpr fun entry hentry ↦ ?_
        by_cases hsame : entry.1 = number
        · rw [honly entry hentry hsame]
          simp [hlive]
        · simp [hsame]
      rw [hall]

/-- Looking at several registrations leaves out of the map those of them that were cancelled. -/
theorem foldl_check {watchdog : Watchdog} (hnumbers : (watchdog.watched.map (·.1)).Nodup)
    (numbers : List Nat) :
    numbers.foldl check watchdog =
      { watchdog with
        watched := watchdog.watched.filter fun entry ↦
          !(decide (entry.1 ∈ numbers) && (watchdog.handle entry.2.handle).cancelled) } := by
  induction numbers generalizing watchdog with
  | nil => simp
  | cons number numbers ih =>
    rw [List.foldl_cons, check_eq hnumbers, ih (hnumbers.sublist (List.filter_sublist.map _))]
    dsimp only
    rw [List.filter_filter]
    congr 1
    refine List.filter_congr fun entry _ ↦ ?_
    change (!(decide (entry.1 ∈ numbers) && (watchdog.handle entry.2.handle).cancelled) && _) = _
    simp only [List.mem_cons, Bool.decide_or]
    cases decide (entry.1 = number) <;> cases decide (entry.1 ∈ numbers) <;>
      cases (watchdog.handle entry.2.handle).cancelled <;> rfl

/-- Looking at everything that is watched is pruning. -/
theorem foldl_check_numbers {watchdog : Watchdog} (hnumbers : (watchdog.watched.map (·.1)).Nodup)
    (hmany : Watchdog.pruneAbove < watchdog.watched.length) :
    (watchdog.watched.map (·.1)).foldl check watchdog = watchdog.prune := by
  rw [foldl_check hnumbers, Watchdog.prune, if_pos hmany]
  congr 1
  refine List.filter_congr fun entry hentry ↦ ?_
  rw [decide_eq_true (List.mem_map_of_mem hentry), Bool.true_and]

/-- A pass that nobody disturbs is `Watchdog.pass`. -/
theorem Mirrors.run_pass (h : Mirrors vigil roll) (hround : vigil.round = .passing now) :
    ∃ own, (∀ event ∈ own, event.isOwn = true) ∧
      vigil.run own = some ⟨vigil.watchdog.pass now, vigil.sent, .waiting⟩ := by
  obtain ⟨own, hown, hrun, hnone⟩ := exists_run_turns hround le_rfl
  obtain ⟨after, -, hmirrors⟩ := h.run hrun
  let turned : Vigil :=
    { vigil with watchdog := Watchdog.turns now vigil.watchdog.deadlines.length vigil.watchdog }
  have hturned : turned.round = .passing now := hround
  have hclose := step_close hturned hnone
  by_cases hmany : Watchdog.pruneAbove < turned.watchdog.watched.length
  · rw [if_pos hmany] at hclose
    have hchecks := run_checks (rfl : ({ turned with
      round := .pruning (turned.watchdog.watched.map (·.1)) } : Vigil).round = _)
    refine ⟨own ++ .shown .close :: ((turned.watchdog.watched.map (·.1)).map .check ++ [.rest]),
      ?_, foldlM_append_eq_some_iff.mpr ⟨turned, hrun, ?_⟩⟩
    · intro event hevent
      rcases List.mem_append.mp hevent with hevent | hevent
      · exact hown event hevent
      · simp only [List.mem_cons, List.mem_append, List.mem_map, List.not_mem_nil, or_false]
          at hevent
        rcases hevent with rfl | ⟨number, -, rfl⟩ | rfl <;> rfl
    · rw [List.foldlM_cons, hclose]
      refine hchecks.trans ?_
      rw [foldl_check_numbers hmirrors.numbers hmany]
      rfl
  · rw [if_neg hmany] at hclose
    refine ⟨own ++ [.shown .close], ?_, foldlM_append_eq_some_iff.mpr ⟨turned, hrun, ?_⟩⟩
    · intro event hevent
      rcases List.mem_append.mp hevent with hevent | hevent
      · exact hown event hevent
      · rw [List.mem_singleton.mp hevent]
        rfl
    · have hpass : vigil.watchdog.pass now = turned.watchdog := if_neg hmany
      rw [List.foldlM_cons, hclose, hpass]
      rfl

/-! ### A vigil and the roll -/

/-- What is known of a vigil after the given events. -/
structure Follows (events : List Event) (vigil : Vigil) : Prop where
  /-- Callers have seen what the roll does, which keeps its rules. Whatever the roll can do next,
  the vigil can do for callers to see, and it shows the same again. -/
  roll : ∃ roll, Roll.run {} (events.filterMap (·.shown?)) = some roll ∧ Shows vigil roll ∧
    roll.Rules ∧
    ∀ {later : List Roll.Event} {after : Roll}, roll.run later = some after →
      ∃ further last, vigil.run further = some last ∧ further.filterMap (·.shown?) = later ∧
        Shows last after
  /-- The watchdog cannot go on for ever without waiting, -/
  bounded : ∀ {own : List Event} {last : Vigil}, vigil.run own = some last →
    (∀ event ∈ own, event.isOwn = true) → own.length + last.effort ≤ vigil.effort
  /-- and comes to wait by itself. -/
  rests : ∃ own last, vigil.run own = some last ∧ (∀ event ∈ own, event.isOwn = true) ∧
    last.round = .waiting
  /-- A pass that nobody disturbs is that of the watchdog. -/
  pass : ∀ {now : Nat}, vigil.round = .passing now →
    ∃ own, (∀ event ∈ own, event.isOwn = true) ∧
      vigil.run own = some ⟨vigil.watchdog.pass now, vigil.sent, .waiting⟩

/-- A watchdog does for callers to see what a plain list of registrations says, whenever they make
and cancel handles and however much is watched. -/
theorem follows_roll (events : List Event) (vigil : Vigil)
    (hrun : run {} events = some vigil) : Follows events vigil := by
  obtain ⟨roll, hroll, hmirrors⟩ := Mirrors.start.run hrun
  constructor
  case roll =>
    refine ⟨roll, hroll, hmirrors.toShows, hmirrors.sound.rules, fun hlater ↦ ?_⟩
    obtain ⟨further, last, hfurther, hseen, hlast⟩ := hmirrors.exists_run hlater
    exact ⟨further, last, hfurther, hseen, hlast.toShows⟩
  case bounded => exact length_add_effort_le
  case rests => exact exists_run_to_waiting vigil
  case pass => exact hmirrors.run_pass

/-- Two tasks have one deadline, and the second is cancelled while the watchdog is at the first. A
third, with an earlier deadline, was cancelled before, and a fourth is past the horizon. -/
theorem follows_roll_tie :
    ∃ (events : List Event) (vigil : Vigil), run {} events = some vigil ∧ Follows events vigil ∧
      vigil.watchdog.fired = [("first", .ofNanos 5)] ∧
      vigil.watchdog.handles.toList =
        [⟨false, true⟩, ⟨true, false⟩, ⟨true, false⟩, ⟨false, false⟩] ∧
      vigil.watchdog.stopped = true ∧ vigil.round = .waiting := by
  let events : List Event :=
    [.shown (.monitor 0 "first" (.ofNanos 5)), .shown (.monitor 0 "second" (.ofNanos 5)),
      .shown (.monitor 0 "third" (.ofNanos 3)),
      .shown (.monitor Watchdog.horizon "fourth" (.ofNanos 0)),
      .shown (.take 0), .shown .close, .shown (.take 1), .shown .close, .shown (.cancel 2),
      .shown (.take 2), .shown .close, .shown (.wake 7), .skip, .shown .ring, .shown (.cancel 1),
      .skip, .shown .close, .shown .shutDown, .shown (.take 8)]
  refine ⟨events, (run {} events).get (by decide +kernel), (Option.some_get _).symm,
    follows_roll events _ (Option.some_get _).symm, ?_⟩
  decide +kernel

end Vigil

end Admission
