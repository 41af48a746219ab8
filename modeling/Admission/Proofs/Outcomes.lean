import Admission.Proofs.Runs
import Admission.Work

/-!
# One outcome for each piece of work

Work is made of a function and offered, as it is or in boxes, to whoever will run it, while its
owner keeps the other end of the mailbox. Nothing says in which order the work is then run, told why
it failed, completed and dropped, how often any of this is done, or when the owner tries to receive
the outcome. A `Trial` is the work in the middle of such calls, with what the owner has received so
far.

Whatever the calls, the function runs at most once, and the attempts to receive find nothing until
the work is completed, then the outcome once, and nothing from then on (`Trial.tells_one_outcome`).
What is told up to the completion is an invariant of its own (`Trial.Pending`), and so is what is
told afterwards (`Trial.Told`); the first completion leads from one to the other.
-/

set_option autoImplicit false
set_option relaxedAutoImplicit false

namespace Admission

/-- Work as it is offered: as it is, or in a box. -/
inductive BoxedWork where
  | bare (work : FnWork)
  | box (inner : BoxedWork)

namespace BoxedWork

/-- Work in a number of boxes, one in another. -/
def pack (work : FnWork) : Nat → BoxedWork
  | 0 => bare work
  | boxes + 1 => box (pack work boxes)

/-- The work without its boxes. -/
def opened : BoxedWork → FnWork
  | bare work => work
  | box inner => inner.opened

/-- A call of the work. A box hands every call on to what it holds, and hands back the answer. -/
def call {α : Type} (act : FnWork → FnWork × α) : BoxedWork → BoxedWork × α
  | bare work => (bare (act work).1, (act work).2)
  | box inner => (box (inner.call act).1, (inner.call act).2)

@[simp] theorem opened_pack (work : FnWork) (boxes : Nat) : (pack work boxes).opened = work := by
  induction boxes with
  | zero => rfl
  | succ boxes ih => exact ih

variable {α : Type}

@[simp] theorem opened_call (act : FnWork → FnWork × α) (boxed : BoxedWork) :
    (boxed.call act).1.opened = (act boxed.opened).1 := by
  induction boxed with
  | bare work => rfl
  | box inner ih => exact ih

@[simp] theorem answer_call (act : FnWork → FnWork × α) (boxed : BoxedWork) :
    (boxed.call act).2 = (act boxed.opened).2 := by
  induction boxed with
  | bare work => rfl
  | box inner ih => exact ih

end BoxedWork

namespace ReportedWork

/-- A call of the work, or an attempt to receive its outcome. -/
inductive Access where
  | run
  | markFailed (cause : WorkFailure)
  | complete
  | drop
  /-- The outcome is asked for if it is there already. -/
  | tryOutcome
  /-- The outcome is waited for, but not longer than for a time. -/
  | waitTimeout (timeout : Duration)
  /-- The outcome is waited for. -/
  | wait
deriving DecidableEq

/-- Whether a call is an attempt to receive the outcome. -/
def Access.attempts : Access → Bool
  | .tryOutcome | .waitTimeout _ | .wait => true
  | _ => false

/-- The cause of failure that a call tells. -/
def Access.cause? : Access → Option WorkFailure
  | .markFailed cause => some cause
  | _ => none

variable {reported : ReportedWork} {work : FnWork}

theorem run_of_some (hwork : reported.work = some work) :
    reported.run =
      { reported with
        work := some { work with ready := false }
        runs := if work.ready then reported.runs + 1 else reported.runs } := by
  rw [run, hwork]
  rfl

theorem markFailed_of_some (hwork : reported.work = some work) (cause : WorkFailure) :
    reported.markFailed cause =
      { reported with work := some { work with failure := some (work.failure.getD cause) } } := by
  rw [markFailed, hwork]
  rfl

/-- The first completion sends the outcome. -/
theorem complete_of_reporting (hwork : reported.work = some work) (hreporting : work.reporting) :
    reported.complete =
      { reported with
        work := some { work with reporting := false, failure := none }
        mailbox := reported.mailbox.map
          (·.put (work.failure.elim .completed WorkOutcome.failed)) } := by
  simp only [complete, hwork, FnWork.complete, hreporting, if_true]
  cases work.failure <;> rfl

/-- Every other one does nothing. -/
theorem complete_of_not_reporting (hwork : reported.work = some work)
    (hreporting : work.reporting = false) : reported.complete = reported := by
  simp only [complete, hwork, FnWork.complete, hreporting, Bool.false_eq_true, if_false]
  rw [← hwork]

theorem receive_of_some {mailbox : Mailbox} (hmailbox : reported.mailbox = some mailbox) :
    reported.receive = ({ reported with mailbox := some {} }, mailbox.outcome) := by
  rw [receive, hmailbox]
  rfl

end ReportedWork

open ReportedWork (Access)

/-- Work that is being called, with what the attempts to receive its outcome have found, in their
order. -/
structure Trial where
  /-- The work, until it is dropped. -/
  work : Option BoxedWork
  mailbox : Mailbox
  /-- How often the function ran. -/
  runs : Nat
  answers : List (Option WorkOutcome)

namespace Trial

/-- Work that has just been made, in a number of boxes, and its mailbox. -/
def start (category : String) (name : Option String) (timeout : Option Duration) (boxes : Nat) :
    Trial where
  work := some (.pack { category, name, timeout, reporting := true } boxes)
  mailbox := {}
  runs := 0
  answers := []

/-- The work without its boxes, and its mailbox. -/
def reported (trial : Trial) : ReportedWork where
  work := trial.work.map (·.opened)
  mailbox := some trial.mailbox
  runs := trial.runs

/-- Whether there is somebody left who may send an outcome. -/
def sending (trial : Trial) : Bool := trial.work.any (·.opened.reporting)

/-- An attempt to receive the outcome. -/
def attempt (trial : Trial) : Trial :=
  { trial with
    mailbox := trial.mailbox.take.1
    answers := trial.answers ++ [trial.mailbox.take.2] }

/-- What a call makes of the work, if it can be made: work that was dropped is called no more, and
waiting comes to an end once the outcome has arrived or nobody is left who may send it. -/
def step (trial : Trial) : Access → Option Trial
  | .run => trial.work.map fun work ↦
    { trial with
      work := some (work.call FnWork.run).1
      runs := if (work.call FnWork.run).2 then trial.runs + 1 else trial.runs }
  | .markFailed cause => trial.work.map fun work ↦
    { trial with work := some (work.call fun work ↦ (work.markFailed cause, ())).1 }
  | .complete => trial.work.map fun work ↦
    { trial with
      work := some (work.call FnWork.complete).1
      mailbox := (work.call FnWork.complete).2.elim trial.mailbox trial.mailbox.put }
  | .drop => trial.work.map fun _ ↦ { trial with work := none }
  | .tryOutcome | .waitTimeout _ => some trial.attempt
  | .wait => if trial.mailbox.outcome = none ∧ trial.sending then none else some trial.attempt

/-- What calls make of the work one after another, if they can be made. -/
def run (trial : Trial) (calls : List Access) : Option Trial := calls.foldlM step trial

/-! ### One call -/

/-- What a call does to the work in its boxes is what it does to the work, and only an attempt to
receive the outcome gets an answer. -/
inductive Made (trial next : Trial) : Access → Prop
  | ran {work : FnWork} (hwork : trial.reported.work = some work)
    (hnext : next.reported = trial.reported.run) (hanswers : next.answers = trial.answers) :
    Made trial next .run
  | failed {work : FnWork} {cause : WorkFailure} (hwork : trial.reported.work = some work)
    (hnext : next.reported = trial.reported.markFailed cause)
    (hanswers : next.answers = trial.answers) : Made trial next (.markFailed cause)
  | completed {work : FnWork} (hwork : trial.reported.work = some work)
    (hnext : next.reported = trial.reported.complete) (hanswers : next.answers = trial.answers) :
    Made trial next .complete
  | dropped {work : FnWork} (hwork : trial.reported.work = some work)
    (hnext : next.reported = trial.reported.dropWork) (hanswers : next.answers = trial.answers) :
    Made trial next .drop
  | attempted {call : Access} (hcall : call.attempts = true)
    (hnext : next.reported = trial.reported.receive.1)
    (hanswers : next.answers = trial.answers ++ [trial.reported.receive.2]) : Made trial next call

variable {trial next : Trial} {call : Access} {calls : List Access}

theorem work_reported {boxed : BoxedWork} (hwork : trial.work = some boxed) :
    trial.reported.work = some boxed.opened :=
  congrArg (Option.map BoxedWork.opened) hwork

theorem made_attempt (trial : Trial) (hcall : call.attempts = true) :
    trial.Made trial.attempt call :=
  .attempted hcall rfl rfl

theorem made_step (hstep : trial.step call = some next) : trial.Made next call := by
  cases call with
  | run =>
    obtain ⟨boxed, hboxed, rfl⟩ := Option.map_eq_some_iff.mp hstep
    refine .ran (work_reported hboxed) ?_ rfl
    simp only [reported, ReportedWork.run, hboxed, Option.map_some, BoxedWork.opened_call,
      BoxedWork.answer_call]
  | markFailed cause =>
    obtain ⟨boxed, hboxed, rfl⟩ := Option.map_eq_some_iff.mp hstep
    refine .failed (work_reported hboxed) ?_ rfl
    simp only [reported, ReportedWork.markFailed, hboxed, Option.map_some, BoxedWork.opened_call]
  | complete =>
    obtain ⟨boxed, hboxed, rfl⟩ := Option.map_eq_some_iff.mp hstep
    refine .completed (work_reported hboxed) ?_ rfl
    simp only [reported, ReportedWork.complete, hboxed, Option.map_some, BoxedWork.opened_call,
      BoxedWork.answer_call]
    cases (boxed.opened.complete).2 <;> rfl
  | drop =>
    obtain ⟨boxed, hboxed, rfl⟩ := Option.map_eq_some_iff.mp hstep
    exact .dropped (work_reported hboxed) rfl rfl
  | tryOutcome | waitTimeout timeout =>
    cases hstep
    exact trial.made_attempt rfl
  | wait =>
    simp only [step] at hstep
    split at hstep <;> cases hstep
    exact trial.made_attempt rfl

/-- What one call after another keeps of the calls so far holds of every run. -/
theorem run_induction {motive : List Access → Trial → Prop} (hstart : motive [] trial)
    (hstep : ∀ {calls : List Access} {before after : Trial} {call : Access},
      before.Made after call → motive calls before → motive (calls ++ [call]) after)
    (hrun : trial.run calls = some next) : motive calls next :=
  foldlM_induction hstart (fun hmade h ↦ hstep (made_step hmade) h) hrun

/-! ### Runs of the function -/

/-- The function has run if the work was run, and otherwise it is still to be run. -/
structure Ran (calls : List Access) (trial : Trial) : Prop where
  runs : trial.runs = if .run ∈ calls then 1 else 0
  ready : ∀ work ∈ trial.reported.work, work.ready = decide (.run ∉ calls)

/-- A call that does not run the work leaves it as ready as it was. -/
theorem Ran.other (h : trial.Ran calls) (hcall : Access.run ≠ call) (hruns : next.runs = trial.runs)
    (hready : ∀ work ∈ next.reported.work,
      ∃ before ∈ trial.reported.work, work.ready = before.ready) :
    next.Ran (calls ++ [call]) := by
  have hmem : Access.run ∈ calls ++ [call] ↔ Access.run ∈ calls := by simp [hcall]
  constructor
  · rw [hruns, h.runs]
    simp only [hmem]
  · intro work hwork
    obtain ⟨before, hbefore, hsame⟩ := hready work hwork
    rw [hsame, h.ready before hbefore]
    simp only [hmem]

theorem Ran.made (h : trial.Ran calls) (hmade : trial.Made next call) :
    next.Ran (calls ++ [call]) := by
  cases hmade with
  | @ran work hwork hnext =>
    have hready := h.ready work hwork
    rw [ReportedWork.run_of_some hwork] at hnext
    have hruns : next.runs = if work.ready then trial.runs + 1 else trial.runs :=
      congrArg ReportedWork.runs hnext
    constructor
    · rw [hruns, h.runs, hready]
      by_cases hran : Access.run ∈ calls <;> simp [hran]
    · simp [hnext]
  | @failed work cause hwork hnext =>
    rw [ReportedWork.markFailed_of_some hwork] at hnext
    refine h.other nofun (congrArg ReportedWork.runs hnext) ?_
    simp [hnext, hwork]
  | @completed work hwork hnext =>
    by_cases hreporting : work.reporting = true
    · rw [ReportedWork.complete_of_reporting hwork hreporting] at hnext
      refine h.other nofun (congrArg ReportedWork.runs hnext) ?_
      simp [hnext, hwork]
    · rw [ReportedWork.complete_of_not_reporting hwork (Bool.eq_false_iff.mpr hreporting)] at hnext
      exact h.other nofun (congrArg ReportedWork.runs hnext) fun after hafter ↦
        ⟨after, hnext ▸ hafter, rfl⟩
  | dropped hwork hnext =>
    refine h.other nofun (congrArg ReportedWork.runs hnext) ?_
    simp [hnext, ReportedWork.dropWork]
  | attempted hcall hnext =>
    rw [ReportedWork.receive_of_some rfl] at hnext
    have hother : Access.run ≠ call := by
      rintro rfl
      cases hcall
    refine h.other hother (congrArg ReportedWork.runs hnext) fun after hafter ↦ ?_
    rw [hnext] at hafter
    exact ⟨after, hafter, rfl⟩

/-! ### What is told -/

/-- The work is gone once it was dropped. -/
theorem gone_made (h : trial.reported.work = none ↔ .drop ∈ calls) (hmade : trial.Made next call) :
    next.reported.work = none ↔ .drop ∈ calls ++ [call] := by
  cases hmade with
  | ran hwork hnext =>
    rw [ReportedWork.run_of_some hwork] at hnext
    simpa [hnext, hwork] using h
  | failed hwork hnext =>
    rw [ReportedWork.markFailed_of_some hwork] at hnext
    simpa [hnext, hwork] using h
  | @completed work hwork hnext =>
    by_cases hreporting : work.reporting = true
    · rw [ReportedWork.complete_of_reporting hwork hreporting] at hnext
      simpa [hnext, hwork] using h
    · rw [ReportedWork.complete_of_not_reporting hwork (Bool.eq_false_iff.mpr hreporting)] at hnext
      simpa [hnext, hwork] using h
  | dropped hwork hnext =>
    simp [hnext, ReportedWork.dropWork]
  | attempted hcall hnext =>
    rw [ReportedWork.receive_of_some rfl] at hnext
    have hother : Access.drop ≠ call := by
      rintro rfl
      cases hcall
    simpa [hnext, hother] using h

/-- How many of some calls are attempts to receive the outcome. -/
def attempts (calls : List Access) : Nat := calls.countP Access.attempts

/-- The first cause of failure that some calls tell. -/
def firstCause? (calls : List Access) : Option WorkFailure := calls.findSome? Access.cause?

/-- The outcome of work that is completed after some calls. -/
def verdict (calls : List Access) : WorkOutcome := (firstCause? calls).elim .completed .failed

/-- What a number of attempts find from the first completion on. -/
def findings (outcome : WorkOutcome) : Nat → List (Option WorkOutcome)
  | 0 => []
  | later + 1 => some outcome :: List.replicate later none

theorem attempts_concat_of_not (hcall : call.attempts = false) :
    attempts (calls ++ [call]) = attempts calls :=
  countP_concat_of_not calls hcall

theorem attempts_concat (hcall : call.attempts = true) :
    attempts (calls ++ [call]) = attempts calls + 1 := by
  rw [attempts, countP_concat, if_pos hcall]
  rfl

theorem firstCause?_concat (calls : List Access) (call : Access) :
    firstCause? (calls ++ [call]) = (firstCause? calls).or call.cause? := by
  rw [firstCause?, List.findSome?_append, firstCause?]
  cases hcause : call.cause? <;> simp [hcause]

/-- The first attempt finds the outcome, and every other one nothing. -/
theorem findings_succ (outcome : WorkOutcome) (later : Nat) :
    findings outcome (later + 1) =
      findings outcome later ++ [if later = 0 then some outcome else none] := by
  cases later with
  | zero => rfl
  | succ later => rw [findings, findings, List.replicate_succ', if_neg later.succ_ne_zero]; rfl

theorem length_findings (outcome : WorkOutcome) (later : Nat) :
    (findings outcome later).length = later := by
  cases later with
  | zero => rfl
  | succ later => rw [findings, List.length_cons, List.length_replicate]

theorem countP_isSome_findings_le (outcome : WorkOutcome) (later : Nat) :
    (findings outcome later).countP Option.isSome ≤ 1 := by
  cases later with
  | zero => exact Nat.zero_le 1
  | succ later => simp [findings, List.countP_replicate]

/-- As long as the work was not completed nothing is to be found, and the work remembers the first
cause of failure that it was told. -/
structure Pending (calls : List Access) (trial : Trial) : Prop where
  reporting : ∀ work ∈ trial.reported.work, work.reporting = true
  failure : ∀ work ∈ trial.reported.work, work.failure = firstCause? calls
  mailbox : trial.reported.mailbox = some {}
  answers : trial.answers = List.replicate (attempts calls) none

/-- A call that does not ask for the outcome leaves what is found, and where, as it was. -/
theorem Pending.other (h : trial.Pending calls) (hcall : call.attempts = false)
    (hreporting : ∀ work ∈ next.reported.work, work.reporting = true)
    (hfailure : ∀ work ∈ next.reported.work, work.failure = firstCause? (calls ++ [call]))
    (hmailbox : next.reported.mailbox = trial.reported.mailbox)
    (hanswers : next.answers = trial.answers) : next.Pending (calls ++ [call]) where
  reporting := hreporting
  failure := hfailure
  mailbox := hmailbox.trans h.mailbox
  answers := by rw [hanswers, attempts_concat_of_not hcall, h.answers]

theorem Pending.made (h : trial.Pending calls) (hmade : trial.Made next call)
    (hcall : call ≠ .complete) : next.Pending (calls ++ [call]) := by
  cases hmade with
  | ran hwork hnext hsame =>
    rw [ReportedWork.run_of_some hwork] at hnext
    refine h.other rfl ?_ ?_ (by rw [hnext]) hsame
    · simpa [hnext] using h.reporting _ hwork
    · simpa [hnext, firstCause?_concat, Access.cause?] using h.failure _ hwork
  | failed hwork hnext hsame =>
    rw [ReportedWork.markFailed_of_some hwork] at hnext
    have hcause := h.failure _ hwork
    refine h.other rfl ?_ ?_ (by rw [hnext]) hsame
    · simpa [hnext] using h.reporting _ hwork
    · rw [hnext, firstCause?_concat, ← hcause]
      cases FnWork.failure _ <;> simp [Access.cause?]
  | completed => exact absurd rfl hcall
  | dropped hwork hnext hsame =>
    refine h.other rfl ?_ ?_ (by rw [hnext, ReportedWork.dropWork]) hsame
    · simp [hnext, ReportedWork.dropWork]
    · simp [hnext, ReportedWork.dropWork]
  | attempted hattempt hnext hfound =>
    rw [ReportedWork.receive_of_some h.mailbox] at hnext hfound
    have hcause : call.cause? = none := by
      cases call <;> first | rfl | cases hattempt
    constructor
    · rw [hnext]
      exact h.reporting
    · rw [hnext, firstCause?_concat, hcause, Option.or_none]
      exact h.failure
    · rw [hnext]
    · rw [hfound, attempts_concat hattempt, List.replicate_succ', h.answers]

/-- From the first completion on the outcome is in the mailbox until it is found, and nobody sends
another one. `earlier` is what was found before. -/
structure Told (outcome : WorkOutcome) (earlier : List (Option WorkOutcome)) (later : List Access)
    (trial : Trial) : Prop where
  silent : ∀ work ∈ trial.reported.work, work.reporting = false
  mailbox : trial.reported.mailbox = some ⟨if attempts later = 0 then some outcome else none⟩
  answers : trial.answers = earlier ++ findings outcome (attempts later)

/-- The first completion tells the verdict on the calls before it. -/
theorem Pending.completed (h : trial.Pending calls) (hmade : trial.Made next .complete) :
    Told (verdict calls) trial.answers [] next := by
  rcases hmade with - | - | ⟨hwork, hnext, hsame⟩ | - | ⟨hattempt⟩
  · rw [ReportedWork.complete_of_reporting hwork (h.reporting _ hwork)] at hnext
    constructor
    · simp [hnext]
    · rw [hnext, h.mailbox, h.failure _ hwork]
      rfl
    · rw [hsame]
      exact (List.append_nil _).symm
  · cases hattempt

variable {outcome : WorkOutcome} {earlier : List (Option WorkOutcome)}

theorem Told.other (h : Told outcome earlier calls trial) (hcall : call.attempts = false)
    (hsilent : ∀ work ∈ next.reported.work, work.reporting = false)
    (hmailbox : next.reported.mailbox = trial.reported.mailbox)
    (hanswers : next.answers = trial.answers) : Told outcome earlier (calls ++ [call]) next where
  silent := hsilent
  mailbox := by rw [hmailbox, h.mailbox, attempts_concat_of_not hcall]
  answers := by rw [hanswers, h.answers, attempts_concat_of_not hcall]

theorem Told.made (h : Told outcome earlier calls trial) (hmade : trial.Made next call) :
    Told outcome earlier (calls ++ [call]) next := by
  cases hmade with
  | ran hwork hnext hsame =>
    rw [ReportedWork.run_of_some hwork] at hnext
    exact h.other rfl (by simpa [hnext] using h.silent _ hwork) (by rw [hnext]) hsame
  | failed hwork hnext hsame =>
    rw [ReportedWork.markFailed_of_some hwork] at hnext
    exact h.other rfl (by simpa [hnext] using h.silent _ hwork) (by rw [hnext]) hsame
  | completed hwork hnext hsame =>
    rw [ReportedWork.complete_of_not_reporting hwork (h.silent _ hwork)] at hnext
    exact h.other rfl (hnext ▸ h.silent) (by rw [hnext]) hsame
  | dropped hwork hnext hsame =>
    rw [ReportedWork.dropWork] at hnext
    exact h.other rfl (by simp [hnext]) (by rw [hnext]) hsame
  | attempted hattempt hnext hfound =>
    rw [ReportedWork.receive_of_some h.mailbox] at hnext hfound
    constructor
    · rw [hnext]
      exact h.silent
    · rw [hnext, attempts_concat hattempt, if_neg (Nat.succ_ne_zero _)]
    · rw [hfound, h.answers, attempts_concat hattempt, findings_succ, List.append_assoc]

/-! ### Every sequence of calls -/

section Start

variable {category : String} {name : Option String} {timeout : Option Duration} {boxes : Nat}

theorem reported_start :
    (start category name timeout boxes).reported =
      ⟨some { category, name, timeout, reporting := true }, some {}, 0⟩ := by
  simp [start, reported]

theorem ran_run (hrun : (start category name timeout boxes).run calls = some trial) :
    trial.Ran calls := by
  refine run_induction ⟨rfl, ?_⟩ (fun hmade h ↦ h.made hmade) hrun
  simp [reported_start]

theorem gone_iff (hrun : (start category name timeout boxes).run calls = some trial) :
    trial.reported.work = none ↔ .drop ∈ calls := by
  refine run_induction (motive := fun calls trial ↦ trial.reported.work = none ↔ .drop ∈ calls) ?_
    (fun hmade h ↦ gone_made h hmade) hrun
  simp [reported_start]

theorem pending_start : Pending [] (start category name timeout boxes) where
  reporting := by simp [reported_start]
  failure := by simp [reported_start, firstCause?]
  mailbox := congrArg ReportedWork.mailbox reported_start
  answers := rfl

theorem pending_run (hrun : (start category name timeout boxes).run calls = some trial)
    (hcomplete : .complete ∉ calls) : trial.Pending calls := by
  refine run_induction (motive := fun calls trial ↦ .complete ∉ calls → trial.Pending calls)
    (fun _ ↦ pending_start) (fun hmade hbefore hcalls ↦ ?_) hrun hcomplete
  rw [List.mem_append, List.mem_singleton, not_or] at hcalls
  exact (hbefore hcalls.1).made hmade (Ne.symm hcalls.2)

/-- Every run goes by what was called before the first completion, and how often the outcome was
asked for from then on. -/
theorem told_run {before later : List Access}
    (hrun : (start category name timeout boxes).run (before ++ .complete :: later) = some trial)
    (hbefore : .complete ∉ before) :
    Told (verdict before) (List.replicate (attempts before) none) later trial := by
  obtain ⟨middle, hmiddle, hlater⟩ := foldlM_append_eq_some_iff.mp hrun
  obtain ⟨completed, hcompleted, hlast⟩ := Option.bind_eq_some_iff.mp hlater
  have hpending := pending_run hmiddle hbefore
  have htold := hpending.completed (made_step hcompleted)
  rw [hpending.answers] at htold
  exact run_induction htold (fun hmade h ↦ h.made hmade) hlast

/-- Work that was dropped is not completed later. -/
theorem not_complete_of_drop {before later : List Access}
    (hrun : (start category name timeout boxes).run (before ++ .drop :: later) = some trial)
    (hbefore : .complete ∉ before) : .complete ∉ before ++ .drop :: later := by
  intro hmem
  have hlater : .complete ∈ later := by simpa [hbefore] using hmem
  obtain ⟨first, rest, rfl⟩ := List.append_of_mem hlater
  have hsplit : before ++ .drop :: (first ++ .complete :: rest) =
      (before ++ .drop :: first) ++ .complete :: rest := by
    simp
  rw [hsplit] at hrun
  obtain ⟨dropped, hdropped, hcomplete⟩ := foldlM_append_eq_some_iff.mp hrun
  obtain ⟨next, hnext, -⟩ := Option.bind_eq_some_iff.mp hcomplete
  have hgone : dropped.reported.work = none := (gone_iff hdropped).mpr (by simp)
  rcases made_step hnext with - | - | ⟨hwork⟩ | - | ⟨hattempt⟩
  · rw [hgone] at hwork
    cases hwork
  · cases hattempt

/-- Waiting for the outcome comes to an end once the work was completed or dropped, and not
before. -/
theorem wait_iff (hrun : (start category name timeout boxes).run calls = some trial) :
    (trial.step .wait).isSome = true ↔ .complete ∈ calls ∨ .drop ∈ calls := by
  have hends : (trial.step .wait).isSome = true ↔
      (trial.mailbox.outcome = none → trial.sending = false) := by
    simp only [step]
    split <;> simp_all
  have hsending : trial.sending = false ↔ ∀ work ∈ trial.reported.work, work.reporting = false := by
    unfold sending reported
    cases trial.work <;> simp
  rw [hends, hsending]
  by_cases hcomplete : .complete ∈ calls
  · obtain ⟨before, later, rfl, hbefore⟩ := List.eq_append_cons_of_mem hcomplete
    exact iff_of_true (fun _ ↦ (told_run hrun hbefore).silent) (.inl hcomplete)
  · have hpending := pending_run hrun hcomplete
    have hempty : trial.mailbox.outcome = none :=
      congrArg Mailbox.outcome (Option.some.inj hpending.mailbox)
    have hgone : (∀ work ∈ trial.reported.work, work.reporting = false) ↔
        trial.reported.work = none := by
      cases hwork : trial.reported.work with
      | none => simp
      | some work => simp [hpending.reporting work hwork]
    rw [hgone, gone_iff hrun]
    simp [hempty, hcomplete]

end Start

/-- Work tells one outcome, whatever calls are made of it in whatever order, in boxes or not. The
function runs once if the work is run at all. Until the first completion the attempts to receive the
outcome find nothing; then the first one finds it, also if the work was dropped meanwhile, and it
is the first cause of failure that was told before the completion, or success if none was; and all
others find nothing. Of work that is dropped without being completed nothing is ever found. To wait
for the outcome is to wait for the first completion or for the drop. -/
theorem tells_one_outcome (category : String) (name : Option String) (timeout : Option Duration)
    (boxes : Nat) {calls : List Access} {trial : Trial}
    (hrun : (start category name timeout boxes).run calls = some trial) :
    trial.runs = (if .run ∈ calls then 1 else 0) ∧
      trial.answers.length = attempts calls ∧
      trial.answers.countP Option.isSome ≤ 1 ∧
      (.complete ∉ calls → ∀ answer ∈ trial.answers, answer = none) ∧
      (∀ before later, calls = before ++ .complete :: later → .complete ∉ before →
        trial.answers = List.replicate (attempts before) none ++
          findings (verdict before) (attempts later)) ∧
      (∀ before later, calls = before ++ .drop :: later → .complete ∉ before →
        ∀ answer ∈ trial.answers, answer = none) ∧
      ((trial.step .wait).isSome = true ↔ .complete ∈ calls ∨ .drop ∈ calls) := by
  have hnone : .complete ∉ calls → trial.answers = List.replicate (attempts calls) none :=
    fun hcomplete ↦ (pending_run hrun hcomplete).answers
  have hsilent : .complete ∉ calls → ∀ answer ∈ trial.answers, answer = none := by
    intro hcomplete answer hmem
    rw [hnone hcomplete] at hmem
    exact List.eq_of_mem_replicate hmem
  refine ⟨(ran_run hrun).runs, ?_, ?_, hsilent, ?_, ?_, wait_iff hrun⟩
  · by_cases hcomplete : .complete ∈ calls
    · obtain ⟨before, later, rfl, hbefore⟩ := List.eq_append_cons_of_mem hcomplete
      rw [(told_run hrun hbefore).answers, List.length_append, List.length_replicate,
        length_findings, attempts, attempts, attempts, List.countP_append,
        List.countP_cons_of_neg Bool.false_ne_true]
    · rw [hnone hcomplete, List.length_replicate]
  · by_cases hcomplete : .complete ∈ calls
    · obtain ⟨before, later, rfl, hbefore⟩ := List.eq_append_cons_of_mem hcomplete
      rw [(told_run hrun hbefore).answers, List.countP_append, List.countP_replicate]
      simpa using countP_isSome_findings_le (verdict before) (attempts later)
    · rw [hnone hcomplete, List.countP_replicate]
      simp
  · rintro before later rfl hbefore
    exact (told_run hrun hbefore).answers
  · rintro before later rfl hbefore
    exact hsilent (not_complete_of_drop hrun hbefore)

/-- Such a run: work in two boxes is run twice and told two causes of failure before it is completed
and a third one afterwards, and its owner asks for the outcome once before the completion, and three
times when the work has been dropped. -/
theorem tells_one_outcome_boxed :
    ∃ (before later : List Access) (trial : Trial),
      (start "a" none none 2).run (before ++ .complete :: later) = some trial ∧
      .run ∈ before ∧ .drop ∈ later ∧ attempts before = 1 ∧ attempts later = 3 ∧
      trial.runs = 1 ∧
      trial.answers = [none, some (.failed (.rejected "full")), none, none] := by
  let before : List Access :=
    [.tryOutcome, .markFailed (.rejected "full"), .run, .markFailed (.panicked "late"), .run]
  let later : List Access := [.markFailed (.panicked "later"), .complete, .drop, .wait, .tryOutcome,
    .waitTimeout (.ofMillis 1)]
  have hpossible : ((start "a" none none 2).run (before ++ .complete :: later)).isSome = true := by
    decide
  obtain ⟨trial, hrun⟩ := Option.isSome_iff_exists.mp hpossible
  obtain ⟨hruns, -, -, -, hanswers, -⟩ := tells_one_outcome "a" none none 2 hrun
  have hfound := hanswers before later rfl (by decide)
  exact ⟨before, later, trial, hrun, by decide, by decide, by decide, by decide, hruns, hfound⟩

end Trial

end Admission
