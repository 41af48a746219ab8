import Admission.Proofs.Submission

/-!
# Work that panics

Work may panic when it is run, when it is told of its failure, and when it is completed. None of
this reaches the engine or the submitter, and the lease is given back in any case. But the last two
calls are made in one precaution, and so work that panics when it is told of its failure is not
completed. `Site.settles_despite_panics` says how often each call is made, whatever the calls do,
and `Site.panics_before_completion` shows a submission that ends without a completion.

The engine is understood to run the work or to refuse it, unless the request is refused before.
-/

set_option autoImplicit false
set_option relaxedAutoImplicit false

namespace Admission

variable {σ R ω : Type}

/-! ### Counting calls -/

/-- The calls that a submission makes, by their kind: how often the engine begins and finishes a
run, how the runs end, which failures the work is told of, and how often it is completed. -/
structure Tally where
  begun : Nat
  endings : List Ending
  failures : List WorkFailure
  completions : Nat
  finished : Nat
deriving DecidableEq

namespace Tally

def zero : Tally := ⟨0, [], [], 0, 0⟩

def add (tally other : Tally) : Tally where
  begun := tally.begun + other.begun
  endings := tally.endings ++ other.endings
  failures := tally.failures ++ other.failures
  completions := tally.completions + other.completions
  finished := tally.finished + other.finished

/-- The tally of one call. -/
def ofAct : Act ω → Tally
  | .begin => { zero with begun := 1 }
  | .run _ ending => { zero with endings := [ending] }
  | .markFailed _ failure => { zero with failures := [failure] }
  | .complete _ => { zero with completions := 1 }
  | .finish _ => { zero with finished := 1 }
  | _ => zero

/-- The tally of some calls. -/
def ofActs (acts : List (Act ω)) : Tally :=
  acts.foldr (fun act tally ↦ (ofAct act).add tally) zero

@[simp] theorem ofActs_nil : ofActs ([] : List (Act ω)) = zero := rfl

@[simp] theorem ofActs_cons (act : Act ω) (acts : List (Act ω)) :
    ofActs (act :: acts) = (ofAct act).add (ofActs acts) :=
  rfl

@[simp] theorem zero_add (tally : Tally) : zero.add tally = tally := by
  simp [add, zero]

@[simp] theorem add_zero (tally : Tally) : tally.add zero = tally := by
  simp [add, zero]

theorem add_assoc (first second third : Tally) :
    (first.add second).add third = first.add (second.add third) := by
  simp [add, Nat.add_assoc]

@[simp] theorem ofActs_append (acts others : List (Act ω)) :
    ofActs (acts ++ others) = (ofActs acts).add (ofActs others) := by
  induction acts with
  | nil => rw [List.nil_append, ofActs_nil, zero_add]
  | cons act rest ih => rw [List.cons_append, ofActs_cons, ih, ofActs_cons, add_assoc]

end Tally

namespace Deed

/-- What others do in some deeds. -/
def acts (deeds : List (Deed R ω)) : List (Act ω) := deeds.filterMap act

/-- The lease that is released. -/
def released? : Deed R ω → Option Lease
  | .released lease => some lease
  | _ => none

/-- The leases released in some deeds. -/
def releases (deeds : List (Deed R ω)) : List Lease := deeds.filterMap released?

@[simp] theorem acts_nil : acts ([] : List (Deed R ω)) = [] := rfl

@[simp] theorem acts_cons (deed : Deed R ω) (deeds : List (Deed R ω)) :
    acts (deed :: deeds) = deed.act.toList ++ acts deeds := by
  rw [acts, List.filterMap_cons]
  cases deed.act <;> rfl

@[simp] theorem acts_append (deeds others : List (Deed R ω)) :
    acts (deeds ++ others) = acts deeds ++ acts others :=
  List.filterMap_append ..

@[simp] theorem acts_calls (calls : List (Act ω)) :
    acts (Deed.calls calls : List (Deed R ω)) = calls := by
  rw [acts, Deed.calls, List.filterMap_map]
  exact List.filterMap_some

@[simp] theorem releases_nil : releases ([] : List (Deed R ω)) = [] := rfl

@[simp] theorem releases_cons (deed : Deed R ω) (deeds : List (Deed R ω)) :
    releases (deed :: deeds) = deed.released?.toList ++ releases deeds := by
  rw [releases, List.filterMap_cons]
  cases deed.released? <;> rfl

@[simp] theorem releases_append (deeds others : List (Deed R ω)) :
    releases (deeds ++ others) = releases deeds ++ releases others :=
  List.filterMap_append ..

@[simp] theorem releases_calls (calls : List (Act ω)) :
    releases (Deed.calls calls : List (Deed R ω)) = [] := by
  rw [releases, Deed.calls, List.filterMap_map]
  exact List.filterMap_eq_nil_iff.mpr fun _ _ ↦ rfl

end Deed

/-- What a submission has to settle: its lease if it has one, whether the engine runs the work
before it answers, how the run ends if there is one, the failure of the work if it has failed, and
the state when the work is told. -/
structure Verdict (σ : Type) where
  lease : Option Lease
  atOnce : Bool
  ending : Option Ending
  failure : Option WorkFailure
  state : σ

namespace Site

variable (site : Site σ R ω)

/-- Whether work returns when it is told of a failure in a state, if there is one. -/
def hears (work : ω) (failure : Option WorkFailure) (state : σ) : Bool :=
  failure.all fun cause ↦ (site.code.markFailed work cause state).2 = .returned

/-- The calls that settle a verdict. -/
def tally (work : ω) (verdict : Verdict σ) : Tally where
  begun := verdict.atOnce.toNat
  endings := verdict.ending.toList
  failures := verdict.failure.toList
  completions := (site.hears work verdict.failure verdict.state).toNat
  finished := verdict.atOnce.toNat

/-- Work is told of its failure once, and completed once unless it does not hear of it. -/
@[simp] theorem tally_tellActs (work : ω) (failure : Option WorkFailure) (told : σ) :
    Tally.ofActs (site.tellActs work failure told) =
      site.tally work ⟨none, false, none, failure, told⟩ := by
  rcases failure with _ | cause
  · rfl
  · rcases hending : (site.code.markFailed work cause told).2 <;>
      simp [tellActs, tally, hears, hending, Tally.ofAct, Tally.add, Tally.zero]

@[simp] theorem tally_runActs (admitted : AdmittedWork ω) (watch : Option Nat) (ending : Ending) :
    Tally.ofActs (runActs admitted watch ending) = { Tally.zero with endings := [ending] } := by
  rcases htimeout : admitted.timeout with _ | timeout <;> rcases watch with _ | watch <;>
    simp [runActs, watchActs, cancelActs, htimeout, Tally.ofAct]

variable [Scalar R] (item : WorkItem ω) (state later : σ)

/-- What others do in the course of a submission. If the engine keeps the work, it runs it later. -/
def calls : List (Act ω) := (site.course item state (.run later)).filterMap (·.act)

/-- What there is to settle for admitted work that is run. -/
def verdictOfRun (atOnce : Bool) (admitted : AdmittedWork ω) (state : σ) : Verdict σ :=
  let (ran, ending) := site.ran admitted state
  ⟨some admitted.lease, atOnce, some ending, failureOf (outcomeOf ending),
    site.release admitted.lease ran⟩

/-- What there is to settle for a submission. -/
def verdict : Verdict σ :=
  match site.request item.category state with
  | (asked, .error error) => ⟨none, false, none, some (.rejected error.message), asked⟩
  | (asked, .ok lease) =>
    match site.engine.receive (item.withLease lease) (site.supervise lease asked) with
    | (received, .runNow) =>
      site.verdictOfRun true (item.withLease lease) (site.engine.begin received)
    | (_, .keep) => site.verdictOfRun false (item.withLease lease) later
    | (received, .refuse cause) =>
      ⟨some lease, false, none, some (.engineRejected cause.message), site.release lease received⟩

/-- A submission releases the lease of a verdict, and no other, and makes the calls that settle
it. -/
structure Settles (verdict : Verdict σ) : Prop where
  released : ∃ deeds, site.Takes item state (.run later) deeds ∧
    Deed.releases deeds = verdict.lease.toList
  tally : Tally.ofActs (site.calls item state later) = site.tally item.work verdict

section Ways

variable {site item state later} {asked received : σ} {lease : Lease}

theorem Settles.of_takes {verdict : Verdict σ} {deeds : List (Deed R ω)}
    (htakes : site.Takes item state (.run later) deeds)
    (hreleases : Deed.releases deeds = verdict.lease.toList)
    (htally : Tally.ofActs (Deed.acts deeds) = site.tally item.work verdict) :
    site.Settles item state later verdict := by
  refine ⟨⟨deeds, htakes, hreleases⟩, ?_⟩
  have hacts := congrArg (List.filterMap id) htakes.acts
  rw [List.filterMap_map, List.filterMap_map] at hacts
  exact (congrArg Tally.ofActs hacts).trans htally

theorem settles_rejected {error : AdmissionError}
    (hrequest : site.request item.category state = (asked, .error error)) :
    site.Settles item state later ⟨none, false, none, some (.rejected error.message), asked⟩ := by
  refine .of_takes (takes_rejected hrequest).2 ?_ ?_
  · exact Deed.releases_calls _
  · exact (congrArg Tally.ofActs (Deed.acts_calls _)).trans (site.tally_tellActs ..)

omit [Scalar R] in
@[simp] theorem acts_ranDeeds (admitted : AdmittedWork ω) (watch : Option Nat) (ending : Ending)
    (told : σ) : Deed.acts (site.ranDeeds admitted watch ending told) =
      runActs admitted watch ending ++
        site.tellActs admitted.work (failureOf (outcomeOf ending)) told := by
  simp [ranDeeds, runDeeds, Deed.act]

omit [Scalar R] in
@[simp] theorem releases_ranDeeds (admitted : AdmittedWork ω) (watch : Option Nat)
    (ending : Ending) (told : σ) :
    Deed.releases (site.ranDeeds admitted watch ending told) = [admitted.lease] := by
  simp [ranDeeds, runDeeds, Deed.released?]

@[simp] theorem acts_grantDeeds (choice : EngineChoice) :
    Deed.acts (site.grantDeeds item state lease choice) =
      [.receive (item.withLease lease) choice] :=
  rfl

@[simp] theorem releases_grantDeeds (choice : EngineChoice) :
    Deed.releases (site.grantDeeds item state lease choice) = [] :=
  rfl

theorem settles_refused {cause : EngineError} (horder : (site.controller state).InOrder)
    (hrequest : site.request item.category state = (asked, .ok lease))
    (hreceive : site.engine.receive (item.withLease lease) (site.supervise lease asked) =
      (received, .refuse cause))
    (hspares : Spares lease.number (site.course item state (.run later))) :
    site.Settles item state later
      ⟨some lease, false, none, some (.engineRejected cause.message),
        site.release lease received⟩ := by
  refine .of_takes (takes_refused horder hrequest hreceive hspares).2.1 ?_ ?_
  · simp [Deed.released?]
  · simp [Deed.act, Tally.ofAct, tally]

theorem settles_ran (horder : (site.controller state).InOrder)
    (hrequest : site.request item.category state = (asked, .ok lease))
    (hreceive : site.engine.receive (item.withLease lease) (site.supervise lease asked) =
      (received, .runNow))
    (hspares : Spares lease.number (site.course item state (.run later))) :
    site.Settles item state later
      (site.verdictOfRun true (item.withLease lease) (site.engine.begin received)) := by
  obtain ⟨-, htakes⟩ := takes_ran horder hrequest hreceive hspares
  refine .of_takes htakes ?_ ?_
  · simp [Deed.released?, verdictOfRun]
  · simp [Deed.act, Tally.ofAct, Tally.add, Tally.zero, tally, verdictOfRun]

theorem settles_ran_later (horder : (site.controller state).InOrder)
    (hrequest : site.request item.category state = (asked, .ok lease))
    (hreceive : site.engine.receive (item.withLease lease) (site.supervise lease asked) =
      (received, .keep))
    (hspares : Spares lease.number (site.course item state (.run later))) :
    site.Settles item state later (site.verdictOfRun false (item.withLease lease) later) := by
  obtain ⟨-, htakes⟩ := takes_ran_later horder hrequest hreceive hspares
  refine .of_takes htakes ?_ ?_
  · simp [Deed.released?, verdictOfRun]
  · simp [Deed.act, Tally.ofAct, Tally.add, Tally.zero, tally, verdictOfRun]

/-- Every submission settles what there is to settle. -/
theorem settles (horder : (site.controller state).InOrder)
    (hspares : ∀ lease, (site.request item.category state).2 = .ok lease →
      Spares lease.number (site.course item state (.run later))) :
    site.Settles item state later (site.verdict item state later) := by
  rcases hrequest : site.request item.category state with ⟨asked, error | lease⟩
  · simp only [verdict, hrequest]
    exact settles_rejected hrequest
  · have hspared := hspares lease (by rw [hrequest])
    rcases hreceive : site.engine.receive (item.withLease lease) (site.supervise lease asked) with
      ⟨received, _ | _ | cause⟩
    · simp only [verdict, hrequest, hreceive]
      exact settles_ran horder hrequest hreceive hspared
    · simp only [verdict, hrequest, hreceive]
      exact settles_ran_later horder hrequest hreceive hspared
    · simp only [verdict, hrequest, hreceive]
      exact settles_refused horder hrequest hreceive hspared

end Ways

/-! ### What the others hear of it -/

/-- What the submitter is told follows from the request and the choice of the engine. -/
def answer : Except AdmissionError Nat :=
  match site.request item.category state with
  | (_, .error error) => .error error
  | (asked, .ok lease) =>
    match (site.engine.receive (item.withLease lease) (site.supervise lease asked)).2 with
    | .runNow | .keep => .ok lease.id
    | .refuse cause => .error (.engineRejected item.category cause)

theorem submit_snd : (site.submit item state).2 = site.answer item state := by
  rcases hrequest : site.request item.category state with ⟨asked, error | lease⟩
  · simp only [submit, answer, hrequest]
  · rcases hreceive : site.engine.receive (item.withLease lease) (site.supervise lease asked) with
      ⟨received, _ | _ | cause⟩ <;>
        simp only [submit, answer, execute, hrequest, hreceive]

/-- The submitter is told the same whatever the code of the work does. -/
theorem submit_snd_withCode (code : WorkCode σ ω) :
    ({ site with code }.submit item state).2 = (site.submit item state).2 :=
  ({ site with code }.submit_snd item state).trans (site.submit_snd item state).symm

/-- Whatever the controller was asked before, whatever the other parties do to it short of giving
back the lease, and whichever calls of the work panic: a submission whose work the engine runs or
refuses, or whose request is refused, releases its lease once if it has one, lets the engine finish
what it began, runs the work at most once, tells it of its failure once if it has failed, and
completes it once unless it panicked when it was told. The submitter is told the same whatever the
work does, and the engine the same whatever it does when it is told and completed. -/
theorem settles_despite_panics (id : String) (timings : Timings) (source : Source) (start : Nat)
    (moves : List Move)
    (hreached : site.controller state = (Controller.build id timings source start).run moves)
    (hspares : ∀ lease, (site.request item.category state).2 = .ok lease →
      Spares lease.number (site.course item state (.run later))) :
    site.Settles item state later (site.verdict item state later) ∧
      (∀ code : WorkCode σ ω,
        ({ site with code }.submit item state).2 = (site.submit item state).2) ∧
      ∀ (admitted : AdmittedWork ω) (state : σ)
        (markFailed : ω → WorkFailure → σ → σ × Ending) (complete : ω → σ → σ × Ending),
          ({ site with code := { site.code with markFailed, complete } }.run admitted state).2 =
            (site.run admitted state).2 := by
  have horder : (site.controller state).InOrder := by
    rw [hreached]
    exact .run id timings source start moves
  exact ⟨settles horder hspares, site.submit_snd_withCode item state, fun _ _ _ _ ↦ rfl⟩

/-- A site with nothing but a controller: the engine runs all work at once, nobody watches it, and
it panics whenever it is called. -/
def panicky (source : Source) : Site (Controller Rat) Rat Unit :=
  { bare source with
    code :=
      { run := fun _ state ↦ (state, .panicked (.text "run"))
        markFailed := fun _ _ state ↦ (state, .panicked (.text "told"))
        complete := fun _ state ↦ (state, .panicked (.text "completed")) }
    supervisor := none
    engine :=
      { receive := fun _ state ↦ (state, .runNow)
        begin := id
        finish := fun _ state ↦ state } }

/-- Nobody there does anything to the controller but the submission itself. -/
theorem spares_panicky {source : Source} {item : WorkItem Unit} {state later : Controller Rat}
    {lease : Lease} (hrequest : ((panicky source).request item.category state).2 = .ok lease) :
    Spares lease.number ((panicky source).course item state (.run later)) := by
  rcases hasked : (panicky source).request item.category state with ⟨asked, answer⟩
  rw [hasked] at hrequest
  obtain rfl : answer = .ok lease := hrequest
  let held := (panicky source).supervise lease asked
  let released := (panicky source).release lease held
  let opening := (panicky source).grantEntries item lease .runNow state asked held ++
    [(panicky source).others .begin held held]
  have hunwatched : ∀ state, (panicky source).recorded.startWatch (item.withLease lease) state =
      (state, none) := by
    intro state
    rcases htimeout : (item.withLease lease).timeout with _ | timeout <;>
      simp only [startWatch, htimeout]
    rfl
  have hrun : ∀ record, (panicky source).recorded.run (item.withLease lease) (held, record) =
      ((released, record ++
        [(panicky source).others (.run () (.panicked (.text "run"))) held held] ++
        [(panicky source).own held released] ++
        [(panicky source).others (.markFailed () (.panicked "run")) released released]),
        .failed (.panicked "run")) := by
    intro record
    simp only [run, hunwatched]
    rfl
  have hcourse : (panicky source).course item state (.run later) =
      opening ++
        [(panicky source).others (.run () (.panicked (.text "run"))) held held,
          (panicky source).own held released,
          (panicky source).others (.markFailed () (.panicked "run")) released released,
          (panicky source).others (.finish (.failed (.panicked "run"))) released released] := by
    simp only [course, kept?, submit, recorded_request, hasked, recorded_supervise]
    change ((panicky source).recorded.engine.finish
      ((panicky source).recorded.run (item.withLease lease) (held, opening)).2
      ((panicky source).recorded.run (item.withLease lease) (held, opening)).1).2 = _
    rw [hrun]
    rfl
  have hstill : ∀ state : Controller Rat, Controller.Sparing lease.number state state :=
    fun state ↦ ⟨[], by simp, rfl⟩
  intro entry hmem hact
  rw [hcourse] at hmem
  simp only [opening, grantEntries, List.cons_append, List.nil_append, List.mem_cons,
    List.not_mem_nil, or_false] at hmem
  rcases hmem with rfl | rfl | rfl | rfl | rfl | rfl | rfl | rfl
  all_goals
    first
    | exact absurd rfl hact
    | exact hstill _

/-- Such a submission releases its lease once although all three calls of its work may panic. -/
theorem settles_despite_panics_always :
    ∃ (source : Source) (item : WorkItem Unit) (state : Controller Rat),
      ((panicky source).request item.category state).2.toOption = some ⟨0, 0, 0⟩ ∧
      (panicky source).Settles item state state ((panicky source).verdict item state state) ∧
      ((panicky source).verdict item state state).lease = some ⟨0, 0, 0⟩ ∧
      ((panicky source).submit item state).2.toOption = some 1 := by
  let source : Source := ⟨fun _ ↦ ⟨0, {}⟩, fun _ _ ↦ none⟩
  let item : WorkItem Unit := ⟨(), "a", none, none⟩
  let state : Controller Rat := .build "main" {} source 0
  refine ⟨source, item, state, by decide +kernel, ?_, by decide +kernel, by decide +kernel⟩
  exact (settles_despite_panics (panicky source) item state state "main" {} source 0 [] rfl
    fun _ ↦ spares_panicky).1

/-- Work that panics in its run and when it is told of that is never completed: the engine begins
and finishes the run, and the work is told once. -/
theorem panics_before_completion :
    ∃ (source : Source) (item : WorkItem Unit) (state : Controller Rat),
      state = .build "main" {} source 0 ∧
      ((panicky source).request item.category state).2.toOption = some ⟨0, 0, 0⟩ ∧
      (∀ lease, ((panicky source).request item.category state).2 = .ok lease →
        Spares lease.number ((panicky source).course item state (.run state))) ∧
      Tally.ofActs ((panicky source).calls item state state) =
        { begun := 1
          endings := [.panicked (.text "run")]
          failures := [.panicked "run"]
          completions := 0
          finished := 1 } := by
  let source : Source := ⟨fun _ ↦ ⟨0, {}⟩, fun _ _ ↦ none⟩
  let item : WorkItem Unit := ⟨(), "a", none, none⟩
  let state : Controller Rat := .build "main" {} source 0
  refine ⟨source, item, state, rfl, by decide +kernel, fun _ ↦ spares_panicky, ?_⟩
  have horder : ((panicky source).controller state).InOrder := .run "main" {} source 0 []
  rw [(settles horder fun _ ↦ spares_panicky).tally]
  decide +kernel

end Site

end Admission
