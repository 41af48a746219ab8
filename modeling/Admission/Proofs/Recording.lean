import Admission.Submission
import Admission.Proofs.Lifetime

/-!
# The record of a submission

A submission calls other parties' code and acts on the controller itself, and what matters is the
order in which it does so. `Site.recorded` is a site that does all that the given one does and keeps
a record: an `Entry` for each call and for each of the submission's own operations, with the
controller before and after. `Deed` names what an entry may be asked to be, and `Follows` says that
the entries of a record are certain deeds in a certain order, each of which begins where the one
before it has ended. `Ends` lists the calls that are due when a run has ended, and
`Site.ends_tellActs` that those are the ones made.
-/

set_option autoImplicit false
set_option relaxedAutoImplicit false

namespace Admission

/-- Something that others do in the course of a submission, with what came of it: the calls that a
submission makes, and what goes on while the engine keeps the work. -/
inductive Act (ω : Type) where
  | receive (admitted : AdmittedWork ω) (choice : EngineChoice)
  | begin
  | finish (outcome : WorkOutcome)
  | monitor (task : String) (timeout : Duration) (watch : Nat)
  | run (work : ω) (ending : Ending)
  | cancel (watch : Nat)
  | markFailed (work : ω) (failure : WorkFailure)
  | complete (work : ω)
  /-- The engine keeps the work, and time passes. -/
  | wait

/-- What follows a run that has ended so: the calls that settle the work, and what the engine is
told of the run. Work that has returned is completed, and work that has panicked is told so before
it is completed. -/
inductive Ends {ω : Type} (work : ω) : Ending → List (Act ω) → WorkOutcome → Prop where
  | returned : Ends work .returned [.complete work] .completed
  | panicked (payload : Payload) :
      Ends work (.panicked payload)
        [.markFailed work (.panicked payload.message), .complete work]
        (.failed (.panicked payload.message))

/-- One entry of a record. -/
structure Entry (R ω : Type) where
  /-- What others did, or nothing if the submission itself did something to the controller. -/
  act : Option (Act ω)
  before : Controller R
  after : Controller R

/-- What an entry of a record may be. -/
inductive Deed (R ω : Type) where
  | call (act : Act ω)
  /-- The request is refused by a controller that was `plain` before its answer. -/
  | refused (plain : Controller R)
  /-- The request is granted by a controller that was `plain` before its answer. -/
  | granted (plain : Controller R) (lease : Lease)
  | supervised (lease : Lease)
  | released (lease : Lease)
  | dropped (lease : Lease)

namespace Deed

variable {R ω : Type}

/-- What others do in a deed. -/
def act : Deed R ω → Option (Act ω)
  | call act => some act
  | _ => none

/-- What becomes of the controller in a deed. Others may do anything to it. -/
def Effect : Deed R ω → Controller R → Controller R → Prop
  | call _, _, _ => True
  | refused plain, before, after =>
    plain.Refused after ∧ after.ledger.granted = before.ledger.granted
  | granted plain lease, before, after =>
    plain.Granted after lease ∧ plain.ledger.granted = before.ledger.granted
  | supervised lease, before, after => after = before.supervise lease
  | released lease, before, after => before.Released after lease
  | dropped lease, before, after => before.Dropped after lease

/-- Others do these things, and the submission itself does nothing to the controller. -/
def calls (acts : List (Act ω)) : List (Deed R ω) := acts.map .call

theorem calls_append (acts others : List (Act ω)) :
    (calls (acts ++ others) : List (Deed R ω)) = calls acts ++ calls others :=
  List.map_append ..

end Deed

/-- The entries of a record are these deeds in this order, and lead from one controller to the
other. -/
inductive Follows {R ω : Type} :
    Controller R → List (Entry R ω) → List (Deed R ω) → Controller R → Prop where
  | nil (controller : Controller R) : Follows controller [] [] controller
  | cons {before after last : Controller R} {entries : List (Entry R ω)}
      {deeds : List (Deed R ω)} (deed : Deed R ω) (effect : deed.Effect before after)
      (rest : Follows after entries deeds last) :
      Follows before (⟨deed.act, before, after⟩ :: entries) (deed :: deeds) last

namespace Follows

variable {R ω : Type} {first middle last : Controller R} {entries others : List (Entry R ω)}
  {deeds further : List (Deed R ω)}

theorem single (deed : Deed R ω) (effect : deed.Effect first last) :
    Follows first [⟨deed.act, first, last⟩] [deed] last :=
  .cons deed effect (.nil last)

theorem call (act : Act ω) (first last : Controller R) :
    Follows first [⟨some act, first, last⟩] [.call act] last :=
  .single (.call act) trivial

theorem append (h : Follows first entries deeds middle) (h' : Follows middle others further last) :
    Follows first (entries ++ others) (deeds ++ further) last := by
  induction h with
  | nil => exact h'
  | cons deed effect _ ih => exact .cons deed effect (ih h')

/-- The deeds say who acts when. -/
theorem acts (h : Follows first entries deeds last) : entries.map (·.act) = deeds.map (·.act) := by
  induction h with
  | nil => rfl
  | cons _ _ _ ih => rw [List.map_cons, List.map_cons, ih]

end Follows

/-- Whatever others did according to a record, they did not give back the lease of a number. -/
def Spares {R ω : Type} [Scalar R] (number : Nat) (record : List (Entry R ω)) : Prop :=
  ∀ entry ∈ record, entry.act ≠ none → Controller.Sparing number entry.before entry.after

/-- While others act, a lease stays with its holder. -/
theorem Follows.held {R ω : Type} [Scalar R] {first last : Controller R}
    {entries : List (Entry R ω)} {acts : List (Act ω)} {lease : Lease}
    (h : Follows first entries (Deed.calls acts) last) (hspares : Spares lease.number entries)
    (hheld : first.Held lease) : last.Held lease := by
  induction acts generalizing first entries with
  | nil =>
    cases h
    exact hheld
  | cons act acts ih =>
    cases h with
    | cons _ _ rest =>
      refine ih rest (fun entry hmem ↦ hspares entry (List.mem_cons_of_mem _ hmem)) ?_
      exact hheld.sparing (hspares _ List.mem_cons_self (Option.some_ne_none act))

namespace Site

variable {σ R ω : Type}

/-- The entry of something that others do between two states. -/
def others (site : Site σ R ω) (act : Act ω) (state next : σ) : Entry R ω :=
  ⟨some act, site.controller state, site.controller next⟩

/-- The entry of something that the submission itself does between two states. -/
def own (site : Site σ R ω) (state next : σ) : Entry R ω :=
  ⟨none, site.controller state, site.controller next⟩

/-- Enters in the record what somebody did. -/
def note (site : Site σ R ω) (act : Act ω) (recorded : σ × List (Entry R ω)) (next : σ) :
    σ × List (Entry R ω) :=
  (next, recorded.2 ++ [site.others act recorded.1 next])

/-- The site with a record of everything that is done. -/
def recorded (site : Site σ R ω) : Site (σ × List (Entry R ω)) R ω where
  controller state := site.controller state.1
  setController changed state :=
    (site.setController changed state.1,
      state.2 ++ [⟨none, site.controller state.1, changed⟩])
  now state := site.now state.1
  source state := site.source state.1
  tell notices state := (site.tell notices state.1, state.2)
  code :=
    { run := fun work state ↦
        let (next, ending) := site.code.run work state.1
        (site.note (.run work ending) state next, ending)
      markFailed := fun work failure state ↦
        let (next, ending) := site.code.markFailed work failure state.1
        (site.note (.markFailed work failure) state next, ending)
      complete := fun work state ↦
        let (next, ending) := site.code.complete work state.1
        (site.note (.complete work) state next, ending) }
  supervisor := site.supervisor.map fun supervisor ↦
    { monitor := fun task timeout state ↦
        let (next, watch) := supervisor.monitor task timeout state.1
        (site.note (.monitor task timeout watch) state next, watch)
      cancel := fun watch state ↦ site.note (.cancel watch) state (supervisor.cancel watch state.1)
      expired := fun watch state ↦ supervisor.expired watch state.1 }
  engine :=
    { receive := fun admitted state ↦
        let (next, choice) := site.engine.receive admitted state.1
        (site.note (.receive admitted choice) state next, choice)
      begin := fun state ↦ site.note .begin state (site.engine.begin state.1)
      finish := fun outcome state ↦
        site.note (.finish outcome) state (site.engine.finish outcome state.1) }
  controller_setController _ _ := site.controller_setController ..
  controller_tell _ _ := site.controller_tell ..

/-! ### The record changes nothing -/

section Forget

variable (site : Site σ R ω) (state : σ × List (Entry R ω))

theorem forget_settle (work : ω) (failure : Option WorkFailure) :
    (site.recorded.settle work failure state).1 = site.settle work failure state.1 := by
  rcases failure with _ | failure
  · rfl
  · rcases htold : site.code.markFailed work failure state.1 with ⟨told, _ | payload⟩ <;>
      simp only [settle, recorded, htold, note]

theorem forget_startWatch (admitted : AdmittedWork ω) :
    (site.recorded.startWatch admitted state).1.1 = (site.startWatch admitted state.1).1 ∧
      (site.recorded.startWatch admitted state).2 = (site.startWatch admitted state.1).2 := by
  rcases htimeout : admitted.timeout with _ | timeout
  · simp [startWatch, htimeout]
  · rcases hsupervisor : site.supervisor with _ | supervisor <;>
      simp [startWatch, htimeout, recorded, hsupervisor, note]

theorem forget_endWatch (admitted : AdmittedWork ω) (watch : Option Nat) :
    (site.recorded.endWatch admitted watch state).1 =
      site.endWatch admitted watch state.1 := by
  rcases watch with _ | watch
  · simp [endWatch]
  · rcases hsupervisor : site.supervisor with _ | supervisor
    · simp [endWatch, recorded, hsupervisor]
    · simp only [endWatch, recorded, hsupervisor, Option.map_some, note]
      split <;> rfl

variable [Scalar R]

theorem forget_release (lease : Lease) :
    (site.recorded.release lease state).1 = site.release lease state.1 :=
  rfl

theorem forget_run (admitted : AdmittedWork ω) :
    (site.recorded.run admitted state).1.1 = (site.run admitted state.1).1 ∧
      (site.recorded.run admitted state).2 = (site.run admitted state.1).2 := by
  obtain ⟨hstate, hwatch⟩ := site.forget_startWatch state admitted
  rcases hstart : site.startWatch admitted state.1 with ⟨watched, watch⟩
  rcases hrecorded : site.recorded.startWatch admitted state with ⟨⟨next, record⟩, other⟩
  rw [hstart, hrecorded] at hstate hwatch
  subst hstate hwatch
  rcases hran : site.code.run admitted.work next with ⟨ran, ending⟩
  have hcall : site.recorded.code.run admitted.work (next, record) =
      (site.note (.run admitted.work ending) (next, record) ran, ending) := by
    simp only [recorded, hran]
  constructor
  · simp only [run, hstart, hrecorded, hran, hcall, forget_settle, forget_release, forget_endWatch,
      note]
  · simp only [run, hstart, hrecorded, hran, hcall]

theorem forget_execute (admitted : AdmittedWork ω) :
    (site.recorded.execute admitted state).1.1 = (site.execute admitted state.1).1 ∧
      (site.recorded.execute admitted state).2 = (site.execute admitted state.1).2 := by
  rcases hreceive : site.engine.receive admitted state.1 with ⟨next, choice⟩
  have hreceived : site.recorded.engine.receive admitted state =
      (site.note (.receive admitted choice) state next, choice) := by
    simp only [recorded, hreceive]
  cases choice with
  | runNow =>
    have hrun := site.forget_run
      (site.recorded.engine.begin (site.note (.receive admitted .runNow) state next)) admitted
    simp only [execute, hreceive, hreceived, and_true]
    change site.engine.finish _ _ = _
    rw [hrun.1, hrun.2]
    rfl
  | keep =>
    simp only [execute, hreceive, hreceived, note, and_self]
  | refuse cause =>
    simp only [execute, hreceive, hreceived, note, and_self]

/-- A submission that is recorded leaves and answers what it does without a record. -/
theorem forget_submit (item : WorkItem ω) :
    (site.recorded.submit item state).1.1 = (site.submit item state.1).1 ∧
      (site.recorded.submit item state).2 = (site.submit item state.1).2 := by
  have hstate : (site.recorded.request item.category state).1.1 =
      (site.request item.category state.1).1 :=
    rfl
  have hanswer : (site.recorded.request item.category state).2 =
      (site.request item.category state.1).2 :=
    rfl
  rcases hrequest : site.request item.category state.1 with ⟨asked, answer⟩
  rcases hrecorded : site.recorded.request item.category state with ⟨⟨next, record⟩, other⟩
  rw [hrequest, hrecorded] at hstate hanswer
  subst hstate hanswer
  cases other with
  | error error =>
    simp only [submit, hrequest, hrecorded, forget_settle, and_self]
  | ok lease =>
    obtain ⟨hnext, hresult⟩ := site.forget_execute
      (site.recorded.supervise lease (next, record)) (item.withLease lease)
    rcases hexecute : site.execute (item.withLease lease) (site.supervise lease next) with
      ⟨executed, result⟩
    rcases hexecuted : site.recorded.execute (item.withLease lease)
      (site.recorded.supervise lease (next, record)) with ⟨⟨last, records⟩, outcome⟩
    rw [hexecuted] at hnext hresult
    change last = (site.execute (item.withLease lease) (site.supervise lease next)).1 at hnext
    change outcome = (site.execute (item.withLease lease) (site.supervise lease next)).2 at hresult
    rw [hexecute] at hnext hresult
    subst hnext hresult
    rcases outcome with cause | _ <;>
      simp only [submit, hrequest, hrecorded, hexecute, hexecuted, fail, forget_settle,
        forget_release, and_self]

end Forget

/-! ### What each part of a submission enters -/

variable [Scalar R] (site : Site σ R ω)

omit [Scalar R] in
theorem controller_act {α : Type} (operation : Controller R → Outcome R α) (state : σ) :
    site.controller (site.act operation state).1 =
      (operation (site.controller state)).controller := by
  rw [act, site.controller_tell, site.controller_setController]

omit [Scalar R] in
theorem answer_act {α : Type} (operation : Controller R → Outcome R α) (state : σ) :
    (site.act operation state).2 = (operation (site.controller state)).answer :=
  rfl

omit [Scalar R] in
/-- An operation of the submission's own. -/
theorem recorded_act {α : Type} (operation : Controller R → Outcome R α) (state : σ)
    (record : List (Entry R ω)) :
    site.recorded.act operation (state, record) =
      (((site.act operation state).1,
        record ++ [site.own state (site.act operation state).1]),
        (site.act operation state).2) := by
  rw [own, controller_act]
  rfl

/-- What the work is told and how it is completed. -/
def settleActs (work : ω) (failure : Option WorkFailure) : List (Act ω) :=
  failure.toList.map (.markFailed work) ++ [.complete work]

/-- What the work is told in a state, and whether it is completed: it is not if it panics when it is
told of its failure. -/
def tellActs (work : ω) (failure : Option WorkFailure) (state : σ) : List (Act ω) :=
  match failure with
  | none => [.complete work]
  | some failure =>
    match (site.code.markFailed work failure state).2 with
    | .returned => [.markFailed work failure, .complete work]
    | .panicked _ => [.markFailed work failure]

omit [Scalar R] in
/-- Work that can be told of a failure is always completed. -/
theorem tellActs_of_returns {work : ω}
    (hreturns : ∀ failure state, (site.code.markFailed work failure state).2 = .returned)
    (failure : Option WorkFailure) (state : σ) :
    site.tellActs work failure state = settleActs work failure := by
  cases failure with
  | none => rfl
  | some failure =>
    simp only [tellActs, hreturns failure state]
    rfl

omit [Scalar R] in
theorem recorded_settle (work : ω) (failure : Option WorkFailure) (state : σ)
    (record : List (Entry R ω)) :
    ∃ entries, site.recorded.settle work failure (state, record) =
        (site.settle work failure state, record ++ entries) ∧
      Follows (site.controller state) entries (Deed.calls (site.tellActs work failure state))
        (site.controller (site.settle work failure state)) := by
  cases failure with
  | none => exact ⟨_, rfl, .call (.complete work) _ _⟩
  | some failure =>
    rcases htold : site.code.markFailed work failure state with ⟨told, _ | payload⟩
    · have hsettle : site.settle work (some failure) state = (site.code.complete work told).1 := by
        rw [settle, htold]
      refine ⟨[site.others (.markFailed work failure) state told,
        site.others (.complete work) told (site.code.complete work told).1], ?_, ?_⟩
      · simp only [settle, recorded, htold, note, List.append_assoc, List.cons_append,
          List.nil_append]
      · rw [hsettle]
        simp only [tellActs, htold]
        exact (Follows.call (.markFailed work failure) _ _).append (.call (.complete work) _ _)
    · have hsettle : site.settle work (some failure) state = told := by
        rw [settle, htold]
      refine ⟨[site.others (.markFailed work failure) state told], ?_, ?_⟩
      · simp only [settle, recorded, htold, note]
      · rw [hsettle]
        simp only [tellActs, htold]
        exact .call (.markFailed work failure) _ _

/-- How the watch of work begins, if it is watched. -/
def watchActs (admitted : AdmittedWork ω) (watch : Option Nat) : List (Act ω) :=
  match admitted.timeout, watch with
  | some timeout, some watch => [.monitor admitted.task timeout watch]
  | _, _ => []

/-- How a watch ends. -/
def cancelActs (watch : Option Nat) : List (Act ω) := watch.toList.map .cancel

omit [Scalar R] in
/-- Work is watched if it has a timeout and there is somebody to watch it. -/
theorem isSome_startWatch (admitted : AdmittedWork ω) (state : σ) :
    (site.startWatch admitted state).2.isSome =
      (admitted.timeout.isSome && site.supervisor.isSome) := by
  unfold startWatch
  rcases admitted.timeout with _ | timeout
  · rfl
  · rcases site.supervisor with _ | supervisor <;> rfl

omit [Scalar R] in
theorem recorded_startWatch (admitted : AdmittedWork ω) (state : σ) (record : List (Entry R ω)) :
    ∃ entries, site.recorded.startWatch admitted (state, record) =
        (((site.startWatch admitted state).1, record ++ entries),
          (site.startWatch admitted state).2) ∧
      Follows (site.controller state) entries
        (Deed.calls (watchActs admitted (site.startWatch admitted state).2))
        (site.controller (site.startWatch admitted state).1) := by
  rcases htimeout : admitted.timeout with _ | timeout
  · refine ⟨[], ?_, ?_⟩
    · simp [startWatch, htimeout]
    · simp only [startWatch, watchActs, htimeout]
      exact .nil _
  · rcases hsupervisor : site.supervisor with _ | supervisor
    · refine ⟨[], ?_, ?_⟩
      · simp [startWatch, htimeout, hsupervisor, recorded]
      · simp only [startWatch, watchActs, htimeout, hsupervisor]
        exact .nil _
    · rcases hmonitor : supervisor.monitor admitted.task timeout state with ⟨next, watch⟩
      refine ⟨[site.others (.monitor admitted.task timeout watch) state next], ?_, ?_⟩
      · simp [startWatch, htimeout, hsupervisor, hmonitor, recorded, note]
      · simp only [startWatch, watchActs, htimeout, hsupervisor, hmonitor]
        exact .call _ _ _

omit [Scalar R] in
theorem recorded_endWatch (admitted : AdmittedWork ω) {watch : Option Nat}
    (hwatch : watch.isSome → site.supervisor.isSome) (state : σ) (record : List (Entry R ω)) :
    ∃ entries, site.recorded.endWatch admitted watch (state, record) =
        (site.endWatch admitted watch state, record ++ entries) ∧
      Follows (site.controller state) entries (Deed.calls (cancelActs watch))
        (site.controller (site.endWatch admitted watch state)) := by
  rcases watch with _ | watch
  · exact ⟨[], by simp [endWatch], .nil _⟩
  · obtain ⟨supervisor, hsupervisor⟩ := Option.isSome_iff_exists.mp (hwatch rfl)
    refine ⟨[site.others (.cancel watch) state (supervisor.cancel watch state)], ?_, ?_⟩
    · simp only [endWatch, recorded, hsupervisor, Option.map_some, note]
      split <;> rfl
    · have hended : site.controller (site.endWatch admitted (some watch) state) =
          site.controller (supervisor.cancel watch state) := by
        simp only [endWatch, hsupervisor]
        split
        · exact site.controller_tell ..
        · rfl
      rw [hended]
      exact .call _ _ _

/-! ### Ending a lease -/

theorem controller_release (lease : Lease) (state : σ) :
    site.controller (site.release lease state) =
      ((site.controller state).release (site.source state) (site.now state) lease).controller :=
  site.controller_act ..

theorem recorded_release (lease : Lease) (state : σ) (record : List (Entry R ω)) :
    site.recorded.release lease (state, record) =
      (site.release lease state,
        record ++ [site.own state (site.release lease state)]) :=
  congrArg Prod.fst (site.recorded_act
    (fun controller ↦ controller.release (site.source state) (site.now state) lease) state record)

omit [Scalar R] in
theorem recorded_drop (lease : Lease) (state : σ) (record : List (Entry R ω)) :
    site.recorded.drop lease (state, record) =
      (site.drop lease state, record ++ [site.own state (site.drop lease state)]) :=
  congrArg Prod.fst (site.recorded_act (fun controller ↦ controller.drop lease) state record)

/-- The release of a held lease. -/
theorem follows_release {lease : Lease} {state : σ} (hheld : (site.controller state).Held lease) :
    Follows (site.controller state) [site.own state (site.release lease state)]
      [.released lease] (site.controller (site.release lease state)) := by
  refine .single (.released lease) ?_
  rw [controller_release]
  exact hheld.order.released hheld.holds.mem_outstanding hheld.holds.active ..

/-- What others do when admitted work is run, up to the end of the watch. -/
def runActs (admitted : AdmittedWork ω) (watch : Option Nat) (ending : Ending) : List (Act ω) :=
  watchActs admitted watch ++ [.run admitted.work ending] ++ cancelActs watch

/-- What is done when admitted work is run and settled by certain calls. -/
def runDeeds (admitted : AdmittedWork ω) (watch : Option Nat) (ending : Ending)
    (settling : List (Act ω)) : List (Deed R ω) :=
  Deed.calls (runActs admitted watch ending) ++ .released admitted.lease :: Deed.calls settling

/-- What is done when admitted work is run and told how it ended in a given state. -/
def ranDeeds (admitted : AdmittedWork ω) (watch : Option Nat) (ending : Ending) (told : σ) :
    List (Deed R ω) :=
  runDeeds admitted watch ending
    (site.tellActs admitted.work (failureOf (outcomeOf ending)) told)

omit [Scalar R] in
/-- Work that can be told of a failure is settled as its run has ended. -/
theorem ends_tellActs {work : ω}
    (hreturns : ∀ failure state, (site.code.markFailed work failure state).2 = .returned)
    (ending : Ending) (told : σ) :
    Ends work ending (site.tellActs work (failureOf (outcomeOf ending)) told)
      (outcomeOf ending) := by
  rw [tellActs_of_returns site hreturns]
  cases ending with
  | returned => exact .returned
  | panicked payload => exact .panicked payload

/-- The state when the watch of a run is over, and how the run ended. -/
def ran (admitted : AdmittedWork ω) (state : σ) : σ × Ending :=
  let (watched, watch) := site.startWatch admitted state
  let (ran, ending) := site.code.run admitted.work watched
  (site.endWatch admitted watch ran, ending)

theorem run_eq (admitted : AdmittedWork ω) (state : σ) :
    site.run admitted state =
      (site.settle admitted.work (failureOf (outcomeOf (site.ran admitted state).2))
        (site.release admitted.lease (site.ran admitted state).1),
        outcomeOf (site.ran admitted state).2) :=
  rfl

/-- What a run enters: up to the end of the watch others act, then the lease is released, and then
the work is settled. -/
theorem recorded_run (admitted : AdmittedWork ω) (state : σ) (record : List (Entry R ω)) :
    ∃ running told,
      let watch := (site.startWatch admitted state).2
      let ready := (site.ran admitted state).1
      let outcome := outcomeOf (site.ran admitted state).2
      site.recorded.run admitted (state, record) =
        (((site.run admitted state).1,
          record ++ (running ++ site.own ready (site.release admitted.lease ready) :: told)),
          outcome) ∧
      Follows (site.controller state) running
        (Deed.calls (runActs admitted watch (site.ran admitted state).2))
        (site.controller ready) ∧
      Follows (site.controller (site.release admitted.lease ready)) told
        (Deed.calls (site.tellActs admitted.work (failureOf outcome)
          (site.release admitted.lease ready)))
        (site.controller (site.run admitted state).1) := by
  have hwatched := site.isSome_startWatch admitted state
  obtain ⟨monitored, hmonitored, hbegin⟩ := site.recorded_startWatch admitted state record
  rcases hstart : site.startWatch admitted state with ⟨watched, watch⟩
  rw [hstart] at hwatched hmonitored hbegin
  rcases hcode : site.code.run admitted.work watched with ⟨ran, ending⟩
  have hran : site.ran admitted state = (site.endWatch admitted watch ran, ending) := by
    simp only [Site.ran, hstart, hcode]
  let call := site.others (.run admitted.work ending) watched ran
  have hcall : site.recorded.code.run admitted.work (watched, record ++ monitored) =
      ((ran, record ++ monitored ++ [call]), ending) := by
    simp only [recorded, hcode, note, call]
  have hsupervisor : watch.isSome → site.supervisor.isSome := by
    intro hsome
    rw [hwatched, Bool.and_eq_true] at hsome
    exact hsome.2
  obtain ⟨cancelled, hcancelled, hend⟩ :=
    site.recorded_endWatch admitted hsupervisor ran (record ++ monitored ++ [call])
  let ready := site.endWatch admitted watch ran
  have hreleased := site.recorded_release admitted.lease ready
    (record ++ monitored ++ [call] ++ cancelled)
  obtain ⟨told, htold, hsettle⟩ := site.recorded_settle admitted.work
    (failureOf (outcomeOf ending)) (site.release admitted.lease ready)
    (record ++ monitored ++ [call] ++ cancelled ++
      [site.own ready (site.release admitted.lease ready)])
  have hrecorded : site.recorded.ran admitted (state, record) =
      ((ready, record ++ monitored ++ [call] ++ cancelled), ending) := by
    simp only [Site.ran, hmonitored, hcall, hcancelled, ready]
  have hrun : (site.run admitted state).1 = site.settle admitted.work
      (failureOf (outcomeOf ending)) (site.release admitted.lease ready) := by
    rw [run_eq, hran]
  refine ⟨monitored ++ [call] ++ cancelled, told, ?_, ?_, ?_⟩
  · rw [run_eq, hrecorded, hreleased, htold, hrun, hran]
    simp only [List.append_assoc, List.cons_append, List.nil_append, ready]
  · rw [runActs, Deed.calls_append, Deed.calls_append, hran]
    exact (hbegin.append (.call _ _ _)).append hend
  · rw [hrun, hran]
    exact hsettle

/-- Work that is run while its lease is held gives the lease back before it is completed. -/
theorem follows_run {admitted : AdmittedWork ω} {watch : Option Nat} {ending : Ending}
    {state ready : σ} {running told : List (Entry R ω)} {last : Controller R}
    (hheld : (site.controller state).Held admitted.lease)
    (hspares : Spares admitted.lease.number running)
    (hrunning : Follows (site.controller state) running
      (Deed.calls (runActs admitted watch ending)) (site.controller ready))
    (htold : Follows (site.controller (site.release admitted.lease ready)) told
      (Deed.calls (site.tellActs admitted.work (failureOf (outcomeOf ending))
        (site.release admitted.lease ready))) last) :
    Follows (site.controller state)
      (running ++ site.own ready (site.release admitted.lease ready) :: told)
      (site.ranDeeds admitted watch ending (site.release admitted.lease ready)) last :=
  hrunning.append ((site.follows_release (hrunning.held hspares hheld)).append htold)

end Site

end Admission
