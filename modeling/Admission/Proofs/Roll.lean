import Admission.Proofs.Runs
import Admission.Watchdog
import Mathlib.Data.List.MinMax
import Mathlib.Data.List.Nodup
import Mathlib.Data.Prod.Lex

/-!
# What a watchdog is to do

A `Roll` says what a watchdog is to do with nothing but a list of all that it was told to watch. In
a pass it calls the hook for the first that is due (`Roll.next?`), by deadline and then by the order
of registration, and goes on until nothing is due. A registration is due in a pass if its deadline
is not later than the time of the pass, its hook has not been called and its handle is not cancelled
at the moment. Callers make handles, cancel them and send commands at any time, also in the middle
of a pass.

`Roll.Rules` is what follows for the callers: one call at most for each registration, in order and
completely within a pass, and none for a handle that was cancelled in time, for a deadline past the
horizon or after the shutdown. `Roll.rules` proves it of every run.
-/

set_option autoImplicit false
set_option relaxedAutoImplicit false

namespace Admission

/-- The handle of what a command is to watch. -/
def WatchCommand.handle? : WatchCommand → Option Nat
  | .watch _ watched => some watched.handle
  | .shutdown => none

/-- All that a watchdog was told, and the calls of its hook. -/
structure Roll where
  /-- The registrations with their deadlines, in the order they were received. -/
  entries : List (Nat × Watched) := []
  /-- The positions of the registrations whose hook was called, in the order of the calls. -/
  rung : List Nat := []
  /-- How many handles were made. -/
  made : Nat := 0
  /-- The handles that were cancelled. -/
  cancelled : List Nat := []
  /-- The commands that are not taken yet. -/
  sent : List WatchCommand := []
  /-- The time of the pass that is under way. -/
  pass : Option Nat := none
  stopped : Bool := false

namespace Roll

/-- What a caller does, or what the watchdog does for callers to see. -/
inductive Event where
  /-- A caller asks for a task to be watched: a handle is made, and a command is sent unless the
  deadline is past the horizon. -/
  | monitor (now : Nat) (task : String) (timeout : Duration)
  | cancel (handle : Nat)
  | shutDown
  /-- The watchdog takes the next command. Unless it is the last, a pass begins. -/
  | take (now : Nat)
  /-- The watchdog wakes up without a command, and a pass begins. -/
  | wake (now : Nat)
  /-- The watchdog calls the hook. -/
  | ring
  /-- The pass is over. -/
  | close
deriving DecidableEq

/-- A registration is due at the time of a pass. -/
def isDue (roll : Roll) (now position : Nat) : Bool :=
  (roll.entries[position]?).any fun entry ↦
    entry.1 ≤ now ∧ position ∉ roll.rung ∧ entry.2.handle ∉ roll.cancelled

/-- The place of a registration in the order of calls: first by deadline, then by registration. -/
def turn (roll : Roll) (position : Nat) : Nat ×ₗ Nat :=
  toLex (((roll.entries[position]?).map (·.1)).getD 0, position)

/-- The first registration that is due. -/
def next? (roll : Roll) (now : Nat) : Option Nat :=
  ((List.range roll.entries.length).filter (roll.isDue now)).argmin roll.turn

/-- What an event makes of a roll, if it can happen. -/
def step (roll : Roll) : Event → Option Roll
  | .monitor now task timeout =>
    some { roll with
      made := roll.made + 1
      sent := roll.sent ++ (Watchdog.watchCommand? now ⟨task, timeout, roll.made⟩).toList }
  | .cancel handle =>
    if handle < roll.made then some { roll with cancelled := roll.cancelled ++ [handle] } else none
  | .shutDown => some { roll with sent := roll.sent ++ [.shutdown] }
  | .take now =>
    if roll.pass = none ∧ roll.stopped = false then
      match roll.sent with
      | .watch deadline watched :: rest =>
        some { roll with
          entries := roll.entries ++ [(deadline, watched)]
          sent := rest
          pass := some now }
      | .shutdown :: rest => some { roll with sent := rest, stopped := true }
      | [] => none
    else none
  | .wake now =>
    if roll.pass = none ∧ roll.stopped = false then some { roll with pass := some now } else none
  | .ring =>
    (roll.pass.bind roll.next?).map fun position ↦ { roll with rung := roll.rung ++ [position] }
  | .close =>
    roll.pass.bind fun now ↦ if roll.next? now = none then some { roll with pass := none } else none

/-- What several events make of a roll, if they can happen. -/
def run (roll : Roll) (events : List Event) : Option Roll := events.foldlM step roll

variable {roll next last : Roll} {event : Event} {now position : Nat}

theorem run_singleton (roll : Roll) (event : Event) : roll.run [event] = roll.step event := by
  rw [run, List.foldlM_cons]
  exact bind_pure _

/-! ### Who is due -/

theorem isDue_iff :
    roll.isDue now position = true ↔ ∃ entry, roll.entries[position]? = some entry ∧
      entry.1 ≤ now ∧ position ∉ roll.rung ∧ entry.2.handle ∉ roll.cancelled := by
  rw [isDue, Option.any_eq_true]
  simp only [decide_eq_true_eq]

theorem lt_of_isDue (h : roll.isDue now position = true) : position < roll.entries.length := by
  obtain ⟨entry, hentry, -⟩ := isDue_iff.mp h
  exact (List.getElem?_eq_some_iff.mp hentry).1

theorem mem_due :
    position ∈ (List.range roll.entries.length).filter (roll.isDue now) ↔
      roll.isDue now position = true := by
  rw [List.mem_filter, List.mem_range]
  exact ⟨fun h ↦ h.2, fun h ↦ ⟨lt_of_isDue h, h⟩⟩

theorem turn_injective (roll : Roll) : Function.Injective roll.turn := by
  intro first second h
  exact congrArg Prod.snd (toLex.injective h)

/-- The next call is for the first that is due. -/
theorem next?_eq_some_iff :
    roll.next? now = some position ↔ roll.isDue now position = true ∧
      ∀ other, roll.isDue now other = true → roll.turn position ≤ roll.turn other := by
  have hfirst : ∀ {first}, roll.next? now = some first → roll.isDue now first = true ∧
      ∀ other, roll.isDue now other = true → roll.turn first ≤ roll.turn other := fun h ↦
    ⟨mem_due.mp (List.argmin_mem h), fun other hother ↦
      List.le_of_mem_argmin (mem_due.mpr hother) h⟩
  constructor
  · exact hfirst
  · rintro ⟨hdue, hleast⟩
    cases hnext : roll.next? now with
    | none => exact absurd (List.argmin_eq_none.mp hnext ▸ mem_due.mpr hdue) List.not_mem_nil
    | some first =>
      obtain ⟨hfirstdue, hfirstleast⟩ := hfirst hnext
      exact congrArg some (roll.turn_injective
        (le_antisymm (hfirstleast position hdue) (hleast first hfirstdue)))

theorem next?_eq_none_iff :
    roll.next? now = none ↔ ∀ position, ¬ roll.isDue now position = true := by
  rw [next?, List.argmin_eq_none, List.eq_nil_iff_forall_not_mem]
  simp only [mem_due]

/-! ### What a step does -/

/-- What an event can do to a roll. -/
inductive Steps (roll : Roll) : Event → Roll → Prop
  | monitor (now : Nat) (task : String) (timeout : Duration) :
    Steps roll (.monitor now task timeout)
      { roll with
        made := roll.made + 1
        sent := roll.sent ++ (Watchdog.watchCommand? now ⟨task, timeout, roll.made⟩).toList }
  | cancel {handle : Nat} (hmade : handle < roll.made) :
    Steps roll (.cancel handle) { roll with cancelled := roll.cancelled ++ [handle] }
  | shutDown : Steps roll .shutDown { roll with sent := roll.sent ++ [.shutdown] }
  | watch (now : Nat) (hpass : roll.pass = none) (hopen : roll.stopped = false) {deadline : Nat}
    {watched : Watched} {rest : List WatchCommand}
    (hsent : roll.sent = .watch deadline watched :: rest) :
    Steps roll (.take now)
      { roll with
        entries := roll.entries ++ [(deadline, watched)], sent := rest, pass := some now }
  | stop (now : Nat) (hpass : roll.pass = none) (hopen : roll.stopped = false)
    {rest : List WatchCommand} (hsent : roll.sent = .shutdown :: rest) :
    Steps roll (.take now) { roll with sent := rest, stopped := true }
  | wake (now : Nat) (hpass : roll.pass = none) (hopen : roll.stopped = false) :
    Steps roll (.wake now) { roll with pass := some now }
  | ring {now position : Nat} (hpass : roll.pass = some now)
    (hnext : roll.next? now = some position) :
    Steps roll .ring { roll with rung := roll.rung ++ [position] }
  | close {now : Nat} (hpass : roll.pass = some now) (hnext : roll.next? now = none) :
    Steps roll .close { roll with pass := none }

theorem steps_of_step (h : roll.step event = some next) : roll.Steps event next := by
  cases event with
  | monitor now task timeout =>
    cases h
    exact .monitor now task timeout
  | cancel handle =>
    obtain ⟨hmade, ⟨⟩⟩ := Option.ite_none_right_eq_some.mp h
    exact .cancel hmade
  | shutDown =>
    cases h
    exact .shutDown
  | take now =>
    obtain ⟨⟨hpass, hopen⟩, h⟩ := Option.ite_none_right_eq_some.mp h
    split at h
    · next deadline watched rest hsent =>
      cases h
      exact .watch now hpass hopen hsent
    · next rest hsent =>
      cases h
      exact .stop now hpass hopen hsent
    · cases h
  | wake now =>
    obtain ⟨⟨hpass, hopen⟩, ⟨⟩⟩ := Option.ite_none_right_eq_some.mp h
    exact .wake now hpass hopen
  | ring =>
    obtain ⟨position, hposition, rfl⟩ := Option.map_eq_some_iff.mp h
    obtain ⟨now, hpass, hnext⟩ := Option.bind_eq_some_iff.mp hposition
    exact .ring hpass hnext
  | close =>
    obtain ⟨now, hpass, h⟩ := Option.bind_eq_some_iff.mp h
    obtain ⟨hnext, ⟨⟩⟩ := Option.ite_none_right_eq_some.mp h
    exact .close hpass hnext

theorem step_of_steps (h : roll.Steps event next) : roll.step event = some next := by
  cases h with
  | monitor now task timeout => rfl
  | cancel hmade => exact if_pos hmade
  | shutDown => rfl
  | watch now hpass hopen hsent => simp only [step, hpass, hopen, and_self, if_true, hsent]
  | stop now hpass hopen hsent => simp only [step, hpass, hopen, and_self, if_true, hsent]
  | wake now hpass hopen => exact if_pos ⟨hpass, hopen⟩
  | ring hpass hnext => simp only [step, hpass, Option.bind_some, hnext, Option.map_some]
  | close hpass hnext => simp only [step, hpass, Option.bind_some, hnext, if_true]

/-! ### What is kept -/

/-- The handles of all that was received or is on its way. -/
def expected (roll : Roll) : List Nat :=
  roll.entries.map (·.2.handle) ++ roll.sent.filterMap (·.handle?)

/-- The hook was called for a handle. -/
def Called (roll : Roll) (handle : Nat) : Prop :=
  ∃ position ∈ roll.rung, ∃ entry, roll.entries[position]? = some entry ∧ entry.2.handle = handle

/-- The calls of the hook. -/
def calls (roll : Roll) : List (String × Duration) :=
  roll.rung.filterMap fun position ↦
    (roll.entries[position]?).map fun entry ↦ (entry.2.task, entry.2.timeout)

/-- No registration is called twice, no two registrations have one handle, and no pass is under way
when the watchdog stops. -/
structure Sound (roll : Roll) : Prop where
  rung_nodup : roll.rung.Nodup
  rung_lt : ∀ position ∈ roll.rung, position < roll.entries.length
  expected_nodup : roll.expected.Nodup
  expected_lt : ∀ handle ∈ roll.expected, handle < roll.made
  stopped : roll.stopped = true → roll.pass = none

/-- One roll comes after another. -/
structure Extends (roll last : Roll) : Prop where
  entries : roll.entries <+: last.entries
  rung : roll.rung <+: last.rung
  cancelled : roll.cancelled <+: last.cancelled
  stopped : roll.stopped = true → last.stopped = true

namespace Extends

theorem refl (roll : Roll) : Extends roll roll :=
  ⟨List.prefix_rfl, List.prefix_rfl, List.prefix_rfl, id⟩

theorem trans (hfirst : Extends roll next) (hsecond : Extends next last) : Extends roll last where
  entries := hfirst.entries.trans hsecond.entries
  rung := hfirst.rung.trans hsecond.rung
  cancelled := hfirst.cancelled.trans hsecond.cancelled
  stopped h := hsecond.stopped (hfirst.stopped h)

theorem ofSteps (h : roll.Steps event next) : Extends roll next := by
  cases h with
  | cancel hmade => exact { refl roll with cancelled := List.prefix_append .. }
  | watch now hpass hopen hsent => exact { refl roll with entries := List.prefix_append .. }
  | stop now hpass hopen hsent => exact { refl roll with stopped := fun _ ↦ rfl }
  | ring hpass hnext => exact { refl roll with rung := List.prefix_append .. }
  | monitor | shutDown | wake | close => exact { refl roll with }

end Extends

/-- A command goes out for a new handle, or none. -/
theorem Steps.expected_eq (h : roll.Steps event next) :
    (next.expected = roll.expected ∧ roll.made ≤ next.made) ∨
      (next.expected = roll.expected ++ [roll.made] ∧ next.made = roll.made + 1) := by
  cases h with
  | monitor now task timeout =>
    simp only [expected, List.filterMap_append, Watchdog.watchCommand?]
    split
    · exact .inr ⟨(List.append_assoc ..).symm, trivial⟩
    · exact .inl ⟨congrArg _ (List.append_nil _), Nat.le_succ _⟩
  | shutDown =>
    simp only [expected, List.filterMap_append]
    exact .inl ⟨congrArg _ (List.append_nil _), le_rfl⟩
  | watch now hpass hopen hsent =>
    simp only [expected, hsent, List.map_append, List.append_assoc]
    exact .inl ⟨rfl, le_rfl⟩
  | stop now hpass hopen hsent =>
    simp only [expected, hsent]
    exact .inl ⟨rfl, le_rfl⟩
  | cancel | wake | ring | close => exact .inl ⟨rfl, le_rfl⟩

/-- Ringing for a registration calls for its handle, and for no other. -/
theorem called_concat {position time handle : Nat} {watched : Watched}
    (hentry : roll.entries[position]? = some (time, watched)) :
    ({ roll with rung := roll.rung ++ [position] } : Roll).Called handle ↔
      roll.Called handle ∨ watched.handle = handle := by
  constructor
  · rintro ⟨place, hplace, entry, hplaceentry, rfl⟩
    rcases List.mem_append.mp hplace with hplace | hplace
    · exact .inl ⟨place, hplace, entry, hplaceentry, rfl⟩
    · rw [List.mem_singleton.mp hplace] at hplaceentry
      cases hentry.symm.trans hplaceentry
      exact .inr rfl
  · rintro (⟨place, hplace, hcalled⟩ | rfl)
    · exact ⟨place, List.mem_append_left _ hplace, hcalled⟩
    · exact ⟨position, List.mem_append_right _ List.mem_cons_self, _, hentry, rfl⟩

theorem called_mem_expected {handle : Nat} (h : roll.Called handle) : handle ∈ roll.expected := by
  obtain ⟨position, -, entry, hentry, rfl⟩ := h
  exact List.mem_append_left _ (List.mem_map_of_mem (List.mem_of_getElem? hentry))

namespace Sound

theorem start : Sound {} where
  rung_nodup := List.nodup_nil
  rung_lt _ h := by cases h
  expected_nodup := List.nodup_nil
  expected_lt _ h := by cases h
  stopped h := by cases h

theorem steps (h : roll.Sound) (hstep : roll.Steps event next) : next.Sound := by
  have hexpected : next.expected.Nodup ∧ ∀ handle ∈ next.expected, handle < next.made := by
    rcases hstep.expected_eq with ⟨heq, hmade⟩ | ⟨heq, hmade⟩
    · rw [heq]
      exact ⟨h.expected_nodup, fun handle hmem ↦ (h.expected_lt handle hmem).trans_le hmade⟩
    · rw [heq, hmade]
      constructor
      · rw [← List.concat_eq_append]
        exact h.expected_nodup.concat fun hmem ↦ Nat.lt_irrefl _ (h.expected_lt _ hmem)
      · intro handle hmem
        rcases List.mem_append.mp hmem with hmem | hmem
        · exact Nat.lt_succ_of_lt (h.expected_lt handle hmem)
        · rw [List.mem_singleton.mp hmem]
          exact Nat.lt_succ_self _
  refine ⟨?_, ?_, hexpected.1, hexpected.2, ?_⟩
  · cases hstep with
    | @ring now position hpass hnext =>
      have hdue := (next?_eq_some_iff.mp hnext).1
      obtain ⟨entry, hentry, -, hnot, -⟩ := isDue_iff.mp hdue
      change (roll.rung ++ [position]).Nodup
      rw [← List.concat_eq_append]
      exact h.rung_nodup.concat hnot
    | monitor | cancel | shutDown | watch | stop | wake | close => exact h.rung_nodup
  · intro position hposition
    cases hstep with
    | ring hpass hnext =>
      have hfirst := lt_of_isDue (next?_eq_some_iff.mp hnext).1
      rcases List.mem_append.mp hposition with hposition | hposition
      · exact h.rung_lt position hposition
      · rw [List.mem_singleton.mp hposition]
        exact hfirst
    | watch now hpass hopen hsent =>
      exact (h.rung_lt position hposition).trans_le (List.prefix_append ..).length_le
    | monitor | cancel | shutDown | stop | wake | close => exact h.rung_lt position hposition
  · intro hstopped
    cases hstep with
    | watch now hpass hopen hsent => exact absurd (hopen.symm.trans hstopped) Bool.false_ne_true
    | wake now hpass hopen => exact absurd (hopen.symm.trans hstopped) Bool.false_ne_true
    | stop now hpass hopen hsent => exact hpass
    | close hpass hnext => rfl
    | monitor | cancel | shutDown | ring => exact h.stopped hstopped

end Sound

/-- A run from a sound roll leads to a sound one that comes after it. -/
theorem Sound.run (h : roll.Sound) {later : List Event} (hrun : roll.run later = some last) :
    last.Sound ∧ Extends roll last := by
  refine foldlM_keeps (motive := fun last ↦ last.Sound ∧ Extends roll last) ?_ hrun
    ⟨h, .refl roll⟩
  rintro state next event hstep ⟨hsound, hextends⟩
  have hsteps := steps_of_step hstep
  exact ⟨hsound.steps hsteps, hextends.trans (.ofSteps hsteps)⟩

/-! ### Handles that are not called -/

/-- A call is for a handle that is not cancelled. -/
theorem Sound.called_of_steps (h : roll.Sound) (hstep : roll.Steps event next) {handle : Nat}
    (hcalled : next.Called handle) : roll.Called handle ∨ handle ∉ roll.cancelled := by
  cases hstep with
  | watch now hpass hopen hsent =>
    obtain ⟨position, hposition, entry, hentry, rfl⟩ := hcalled
    exact .inl ⟨position, hposition, entry,
      (List.getElem?_append_left (h.rung_lt position hposition)).symm.trans hentry, rfl⟩
  | ring hpass hnext =>
    obtain ⟨⟨time, watched⟩, hentry, -, -, hlive⟩ := isDue_iff.mp (next?_eq_some_iff.mp hnext).1
    rcases (called_concat hentry).mp hcalled with hbefore | rfl
    · exact .inl hbefore
    · exact .inr hlive
  | monitor | cancel | shutDown | stop | wake | close => exact .inl hcalled

theorem Sound.not_called_of_cancelled (h : roll.Sound) {handle : Nat}
    (hcancelled : handle ∈ roll.cancelled) (huncalled : ¬ roll.Called handle)
    {later : List Event} (hrun : roll.run later = some last) : ¬ last.Called handle := by
  have hkeeps : last.Sound ∧ handle ∈ last.cancelled ∧ ¬ last.Called handle := by
    refine foldlM_keeps (motive := fun last ↦
      last.Sound ∧ handle ∈ last.cancelled ∧ ¬ last.Called handle) ?_ hrun
      ⟨h, hcancelled, huncalled⟩
    rintro state next event hstep ⟨hsound, hcancelled, huncalled⟩
    have hsteps := steps_of_step hstep
    refine ⟨hsound.steps hsteps, (Extends.ofSteps hsteps).cancelled.subset hcancelled, ?_⟩
    intro hcalled
    rcases hsound.called_of_steps hsteps hcalled with hcalled | hlive
    · exact huncalled hcalled
    · exact hlive hcancelled
  exact hkeeps.2.2

/-- A handle that no command went out for is never called. -/
theorem not_called_of_unexpected {handle : Nat} (hmade : handle < roll.made)
    (hnone : handle ∉ roll.expected) {later : List Event} (hrun : roll.run later = some last) :
    ¬ last.Called handle := by
  have hkeeps : handle < last.made ∧ handle ∉ last.expected := by
    refine foldlM_keeps (motive := fun last ↦ handle < last.made ∧ handle ∉ last.expected) ?_ hrun
      ⟨hmade, hnone⟩
    rintro state next event hstep ⟨hmade, hnone⟩
    rcases (steps_of_step hstep).expected_eq with ⟨heq, hle⟩ | ⟨heq, hsucc⟩
    · exact ⟨hmade.trans_le hle, heq ▸ hnone⟩
    · rw [heq, hsucc]
      refine ⟨Nat.lt_succ_of_lt hmade, ?_⟩
      rw [List.mem_append, List.mem_singleton]
      rintro (hmem | rfl)
      · exact hnone hmem
      · exact Nat.lt_irrefl _ hmade
  exact fun hcalled ↦ hkeeps.2 (called_mem_expected hcalled)

/-- The watchdog is shut down before it takes any command for one of the handles from `made` on. -/
structure Shut (made : Nat) (roll : Roll) : Prop where
  sent : roll.stopped = true ∨ ∃ before after, roll.sent = before ++ .shutdown :: after ∧
    ∀ command ∈ before, ∀ handle, command.handle? = some handle → handle < made
  entries : ∀ entry ∈ roll.entries, entry.2.handle < made

theorem Shut.steps {made : Nat} (h : Shut made roll) (hstep : roll.Steps event next) :
    Shut made next := by
  obtain ⟨hsent, hentries⟩ := h
  cases hstep with
  | monitor now task timeout =>
    refine ⟨hsent.imp_right ?_, hentries⟩
    rintro ⟨before, after, heq, hbefore⟩
    exact ⟨before, _, (congrArg (· ++ _) heq).trans (List.append_assoc ..), hbefore⟩
  | shutDown =>
    refine ⟨hsent.imp_right ?_, hentries⟩
    rintro ⟨before, after, heq, hbefore⟩
    exact ⟨before, _, (congrArg (· ++ _) heq).trans (List.append_assoc ..), hbefore⟩
  | @watch now hpass hopen deadline watched rest hwatch =>
    rcases hsent with hstopped | ⟨before, after, heq, hbefore⟩
    · exact absurd (hopen.symm.trans hstopped) Bool.false_ne_true
    · rw [hwatch] at heq
      cases before with
      | nil => cases heq
      | cons command before =>
        obtain ⟨rfl, rfl⟩ := List.cons.inj heq
        refine ⟨.inr ⟨before, after, rfl, fun command hmem ↦
          hbefore command (List.mem_cons_of_mem _ hmem)⟩, ?_⟩
        intro entry hentry
        rcases List.mem_append.mp hentry with hentry | hentry
        · exact hentries entry hentry
        · rw [List.mem_singleton.mp hentry]
          exact hbefore _ List.mem_cons_self _ rfl
  | stop now hpass hopen hstop => exact ⟨.inl rfl, hentries⟩
  | cancel | wake | ring | close => exact ⟨hsent, hentries⟩

theorem Sound.not_called_of_shut (h : roll.Sound)
    (hshut : roll.stopped = true ∨ .shutdown ∈ roll.sent) {later : List Event}
    (hrun : roll.run later = some last) {handle : Nat} (hmade : roll.made ≤ handle) :
    ¬ last.Called handle := by
  have hstart : Shut roll.made roll := by
    refine ⟨hshut.imp_right fun hmem ↦ ?_, ?_⟩
    · obtain ⟨before, after, heq⟩ := List.append_of_mem hmem
      refine ⟨before, after, heq, fun command hcommand handle hhandle ↦ h.expected_lt handle ?_⟩
      rw [expected, heq]
      exact List.mem_append_right _
        (List.mem_filterMap.mpr ⟨command, List.mem_append_left _ hcommand, hhandle⟩)
    · exact fun entry hentry ↦ h.expected_lt _ (List.mem_append_left _ (List.mem_map_of_mem hentry))
  have hlast : Shut roll.made last :=
    foldlM_keeps (motive := Shut roll.made) (fun hstep h ↦ h.steps (steps_of_step hstep)) hrun
      hstart
  rintro ⟨position, -, entry, hentry, rfl⟩
  exact Nat.not_lt.mpr hmade (hlast.entries entry (List.mem_of_getElem? hentry))

theorem Sound.rung_of_stopped (h : roll.Sound) (hstopped : roll.stopped = true)
    {later : List Event} (hrun : roll.run later = some last) : last.rung = roll.rung := by
  have hkeeps : last.Sound ∧ last.stopped = true ∧ last.rung = roll.rung := by
    refine foldlM_keeps (motive := fun last ↦
      last.Sound ∧ last.stopped = true ∧ last.rung = roll.rung) ?_ hrun ⟨h, hstopped, rfl⟩
    rintro state next event hstep ⟨hsound, hstopped, hrung⟩
    have hsteps := steps_of_step hstep
    refine ⟨hsound.steps hsteps, (Extends.ofSteps hsteps).stopped hstopped, ?_⟩
    cases hsteps with
    | ring hpass hnext => cases hpass.symm.trans (hsound.stopped hstopped)
    | monitor | cancel | shutDown | watch | stop | wake | close => exact hrung
  exact hkeeps.2.2

/-! ### A pass -/

/-- Who is not due may become so by a new registration only. -/
theorem isDue_of_extends (h : Extends roll next) (hentries : next.entries = roll.entries)
    (hdue : next.isDue now position = true) : roll.isDue now position = true := by
  obtain ⟨entry, hentry, hpassed, hrung, hlive⟩ := isDue_iff.mp hdue
  exact isDue_iff.mpr ⟨entry, hentries ▸ hentry, hpassed, fun hmem ↦ hrung (h.rung.subset hmem),
    fun hmem ↦ hlive (h.cancelled.subset hmem)⟩

theorem turn_congr (hentries : next.entries = roll.entries) (position : Nat) :
    next.turn position = roll.turn position := by
  rw [turn, turn, hentries]

/-- A pass that was at `first` has come to `roll` and has made some calls on the way. -/
structure Passing (now : Nat) (first roll : Roll) (called : List Nat) : Prop where
  pass : roll.pass = some now
  entries : roll.entries = first.entries
  follows : Extends first roll
  rung : roll.rung = first.rung ++ called
  ordered : called.Pairwise fun earlier later ↦ first.turn earlier < first.turn later
  due : ∀ position ∈ called, first.isDue now position = true
  /-- Whoever is due has a later turn than those who were called. -/
  ahead : ∀ position ∈ called, ∀ other, roll.isDue now other = true →
    first.turn position < first.turn other

theorem Passing.steps {first : Roll} {called : List Nat} (h : Passing now first roll called)
    (hstep : roll.Steps event next) (hopen : event ≠ .close) :
    ∃ called, Passing now first next called := by
  have hextends := Extends.ofSteps hstep
  -- Nothing but a call changes what has been called, and nobody becomes due.
  have hstill : next.pass = some now → next.entries = roll.entries → next.rung = roll.rung →
      Passing now first next called := fun hpass hentries hrung ↦
    { pass := hpass
      entries := hentries.trans h.entries
      follows := h.follows.trans hextends
      rung := hrung.trans h.rung
      ordered := h.ordered
      due := h.due
      ahead := fun position hposition other hother ↦
        h.ahead position hposition other (isDue_of_extends hextends hentries hother) }
  cases hstep with
  | monitor | cancel | shutDown => exact ⟨called, hstill h.pass rfl rfl⟩
  | watch time hpass hopen hsent => cases hpass.symm.trans h.pass
  | stop time hpass hopen hsent => cases hpass.symm.trans h.pass
  | wake time hpass hopen => cases hpass.symm.trans h.pass
  | @ring time position hpass hnext =>
    obtain rfl : time = now := Option.some.inj (hpass.symm.trans h.pass)
    obtain ⟨hdue, hleast⟩ := next?_eq_some_iff.mp hnext
    refine ⟨called ++ [position], ?_⟩
    constructor
    case pass => exact hpass
    case entries => exact h.entries
    case follows => exact h.follows.trans hextends
    case rung => exact (congrArg (· ++ [position]) h.rung).trans (List.append_assoc ..)
    case ordered =>
      refine List.pairwise_append.mpr ⟨h.ordered, List.pairwise_singleton .., ?_⟩
      intro earlier hearlier later hlater
      rw [List.mem_singleton.mp hlater]
      exact h.ahead earlier hearlier position hdue
    case due =>
      intro other hother
      rcases List.mem_append.mp hother with hother | hother
      · exact h.due other hother
      · rw [List.mem_singleton.mp hother]
        exact isDue_of_extends h.follows h.entries hdue
    case ahead =>
      intro earlier hearlier other hother
      have hbefore : roll.isDue time other = true := isDue_of_extends hextends rfl hother
      rcases List.mem_append.mp hearlier with hearlier | hearlier
      · exact h.ahead earlier hearlier other hbefore
      · rw [List.mem_singleton.mp hearlier, ← turn_congr h.entries, ← turn_congr h.entries]
        refine lt_of_le_of_ne (hleast other hbefore) fun hsame ↦ ?_
        obtain ⟨-, -, -, hrung, -⟩ := isDue_iff.mp hother
        rw [← roll.turn_injective hsame] at hrung
        exact hrung (List.mem_append_right _ List.mem_cons_self)
  | close hpass hnext => exact absurd rfl hopen

theorem exists_passing (hpass : roll.pass = some now) {later : List Event}
    (hopen : .close ∉ later) (hrun : roll.run later = some last) :
    ∃ called, Passing now roll last called := by
  refine foldlM_induction (motive := fun later last ↦ .close ∉ later →
    ∃ called, Passing now roll last called) ?_ ?_ hrun hopen
  · intro _
    exact ⟨[], hpass, rfl, .refl roll, (List.append_nil _).symm, .nil,
      fun _ hmem ↦ absurd hmem List.not_mem_nil, fun _ hmem ↦ absurd hmem List.not_mem_nil⟩
  · intro later state next event hstep ih hopen
    obtain ⟨called, hpassing⟩ := ih fun hmem ↦ hopen (List.mem_append_left _ hmem)
    exact hpassing.steps (steps_of_step hstep) fun hclose ↦
      hopen (hclose ▸ List.mem_append_right _ List.mem_cons_self)

/-- When a pass is over, nobody is left who was due and is not cancelled. -/
theorem Passing.complete {first : Roll} {called : List Nat} (h : Passing now first roll called)
    (hnone : roll.next? now = none) (hdue : first.isDue now position = true) :
    position ∈ called ∨ ∃ entry, first.entries[position]? = some entry ∧
      entry.2.handle ∈ roll.cancelled := by
  obtain ⟨entry, hentry, hpassed, hrung, -⟩ := isDue_iff.mp hdue
  by_cases hcalled : position ∈ called
  · exact .inl hcalled
  · refine .inr ⟨entry, hentry, ?_⟩
    by_contra hlive
    refine next?_eq_none_iff.mp hnone position (isDue_iff.mpr ⟨entry, h.entries ▸ hentry, hpassed,
      ?_, hlive⟩)
    rw [h.rung, List.mem_append]
    exact not_or.mpr ⟨hrung, hcalled⟩

/-! ### The rules -/

/-- What callers can rely on. -/
structure Rules (roll : Roll) : Prop where
  /-- The hook is called for what was received, and once at most. -/
  once : roll.rung.Nodup ∧ ∀ position ∈ roll.rung, position < roll.entries.length
  /-- A handle belongs to one registration at most. -/
  handles : (roll.entries.map (·.2.handle)).Nodup
  /-- A call is for the first that is due. -/
  ring : ∀ {next : Roll}, roll.step .ring = some next → ∃ now position, roll.pass = some now ∧
    next.rung = roll.rung ++ [position] ∧ roll.isDue now position = true ∧
    ∀ other, roll.isDue now other = true → roll.turn position ≤ roll.turn other
  /-- The calls of a pass are in order, and they are for those who are due; when the pass is over,
  everybody was called who was due at its beginning and is not cancelled. -/
  pass : ∀ {now : Nat} {later : List Event} {last : Roll}, roll.pass = some now →
    .close ∉ later → roll.run later = some last →
      ∃ called, last.rung = roll.rung ++ called ∧
        (called.Pairwise fun earlier later ↦ roll.turn earlier < roll.turn later) ∧
        (∀ position ∈ called, roll.isDue now position = true) ∧
        ((last.step .close).isSome = true → ∀ position, roll.isDue now position = true →
          position ∈ called ∨ ∃ entry, roll.entries[position]? = some entry ∧
            entry.2.handle ∈ last.cancelled)
  /-- What was received and called stays so. -/
  lasting : ∀ {later : List Event} {last : Roll}, roll.run later = some last →
    roll.entries <+: last.entries ∧ roll.rung <+: last.rung
  /-- A handle that was cancelled before its turn is never called. -/
  cancelled : ∀ {later : List Event} {last : Roll}, roll.run later = some last →
    ∀ handle ∈ roll.cancelled, ¬ roll.Called handle → ¬ last.Called handle
  /-- After the shutdown nothing is called, -/
  stopped : roll.stopped = true → ∀ {later : List Event} {last : Roll},
    roll.run later = some last → last.rung = roll.rung
  /-- and neither is a handle that was made after the shutdown was sent, -/
  shut : roll.stopped = true ∨ .shutdown ∈ roll.sent → ∀ {later : List Event} {last : Roll},
    roll.run later = some last → ∀ handle, roll.made ≤ handle → ¬ last.Called handle
  /-- nor one whose deadline would be past the horizon. -/
  horizon : ∀ {now : Nat} {task : String} {timeout : Duration},
    Watchdog.horizon ≤ now + timeout.toNanos →
    ∀ {later : List Event} {last : Roll},
      roll.run (.monitor now task timeout :: later) = some last → ¬ last.Called roll.made

theorem Sound.rules (h : roll.Sound) : roll.Rules where
  once := ⟨h.rung_nodup, h.rung_lt⟩
  handles := (List.nodup_append.mp h.expected_nodup).1
  ring hstep := by
    cases steps_of_step hstep with
    | @ring now position hpass hnext =>
      exact ⟨now, position, hpass, rfl, next?_eq_some_iff.mp hnext⟩
  pass hpass hopen hrun := by
    obtain ⟨called, hpassing⟩ := exists_passing hpass hopen hrun
    refine ⟨called, hpassing.rung, hpassing.ordered, hpassing.due, fun hclose position hdue ↦ ?_⟩
    obtain ⟨closed, hclosed⟩ := Option.isSome_iff_exists.mp hclose
    cases steps_of_step hclosed with
    | @close time hpass' hnone =>
      obtain rfl : time = _ := Option.some.inj (hpass'.symm.trans hpassing.pass)
      exact hpassing.complete hnone hdue
  lasting hrun := ⟨(h.run hrun).2.entries, (h.run hrun).2.rung⟩
  cancelled hrun _ hcancelled huncalled := h.not_called_of_cancelled hcancelled huncalled hrun
  stopped hstopped _ _ hrun := h.rung_of_stopped hstopped hrun
  shut hshut _ _ hrun _ hmade := h.not_called_of_shut hshut hrun hmade
  horizon hhorizon later last hrun := by
    rw [Roll.run, List.foldlM_cons] at hrun
    obtain ⟨next, hstep, hrest⟩ := Option.bind_eq_some_iff.mp hrun
    cases hstep
    have hnone : roll.made ∉ roll.expected := fun hmem ↦
      Nat.lt_irrefl _ (h.expected_lt _ hmem)
    refine not_called_of_unexpected (Nat.lt_succ_self _) ?_ hrest
    simpa [expected, Watchdog.watchCommand?, Nat.not_lt.mpr hhorizon] using hnone

/-- The rules hold after any events. -/
theorem rules {events : List Event} (hrun : run {} events = some roll) : roll.Rules :=
  (Sound.start.run hrun).1.rules

end Roll

end Admission
