import Admission.Proofs.Recording

/-!
# What becomes of submitted work

Work that is submitted goes one of four ways: its request is refused, the engine refuses it, the
engine runs it, at once or later, or the engine keeps it and drops it in the end. `Site.Goes` says
for each of the ways who does what in which order, and what becomes of the lease, and
`Site.goes_one_way` that every submission goes exactly one of them. Whether the lease is given back,
once and before the work is completed, is part of each. How work that was run is settled is said by
`Ends`, by how its run ended and without regard to how the submission finds that out.

The other parties may do anything to the controller but give back the lease of the submission. They
have no access to it: the lease is part of the admitted work, and who is handed admitted work can
run it, refuse it, keep it or drop it.
-/

set_option autoImplicit false
set_option relaxedAutoImplicit false

namespace Admission

@[simp] theorem WorkItem.work_withLease {ω : Type} (item : WorkItem ω) (lease : Lease) :
    (item.withLease lease).work = item.work :=
  rfl

@[simp] theorem WorkItem.lease_withLease {ω : Type} (item : WorkItem ω) (lease : Lease) :
    (item.withLease lease).lease = lease :=
  rfl

/-- What an engine does in the end with work that it kept, and the state when it does so. -/
inductive Disposal (σ : Type) where
  | run (state : σ)
  | drop (state : σ)

/-- The state when the engine comes back to the work. -/
def Disposal.state {σ : Type} : Disposal σ → σ
  | run state | drop state => state

/-- The ways in which a submission can go. -/
inductive Way where
  /-- The request is refused. -/
  | rejected
  /-- The engine refuses the work. -/
  | refused
  /-- The engine runs the work. -/
  | ran
  /-- The engine keeps the work, and drops it in the end. -/
  | dropped
deriving DecidableEq

/-- The way that a submission went, by who acted in its course. -/
def Way.ofActs {ω : Type} : List (Option (Act ω)) → Way
  | _ :: some _ :: _ => .rejected
  | _ :: _ :: some (.receive _ (.refuse _)) :: _ => .refused
  | [_, _, _, _, none] => .dropped
  | _ => .ran

namespace Site

variable {σ R ω : Type} [Scalar R] (site : Site σ R ω) (item : WorkItem ω) (state : σ)
  (disposal : Disposal σ)

/-- The work, if it is admitted and the engine keeps it. -/
def kept? : Option (AdmittedWork ω) :=
  match site.request item.category state with
  | (_, .error _) => none
  | (state, .ok lease) =>
    match site.engine.receive (item.withLease lease) (site.supervise lease state) with
    | (_, .keep) => some (item.withLease lease)
    | _ => none

/-- The state when everything about a submission is done. -/
def conclude : σ :=
  match site.kept? item state with
  | none => (site.submit item state).1
  | some admitted =>
    match disposal with
    | .run state => (site.run admitted state).1
    | .drop state => site.drop admitted.lease state

/-- The record of everything that is done about a submission. -/
def course : List (Entry R ω) :=
  let (submitted, record) := (site.recorded.submit item (state, [])).1
  match site.kept? item state with
  | none => record
  | some admitted =>
    let record := record ++ [site.others .wait submitted disposal.state]
    match disposal with
    | .run state => (site.recorded.run admitted (state, record)).1.2
    | .drop state => (site.recorded.drop admitted.lease (state, record)).2

/-- Everything about a submission is these deeds, in this order. -/
def Takes (deeds : List (Deed R ω)) : Prop :=
  Follows (site.controller state) (site.course item state disposal) deeds
    (site.controller (site.conclude item state disposal))

/-- The controller when it is about to answer the request of a submission. -/
def plain : Controller R :=
  (site.controller state).beforeAnswer (site.source state) (site.now state) item.category

/-- How a submission begins whose request is granted. -/
def grantDeeds (lease : Lease) (choice : EngineChoice) : List (Deed R ω) :=
  [.granted (site.plain item state) lease, .supervised lease,
    .call (.receive (item.withLease lease) choice)]

/-- The request is refused: no lease is taken, and the work is told so and completed. -/
structure Rejected (name : String) (active limit : Nat) : Prop where
  answer : (site.submit item state).2 = .error (.rejected name active limit)
  takes : site.Takes item state disposal
    (.refused (site.plain item state) ::
      Deed.calls (settleActs item.work
        (some (.rejected (AdmissionError.rejected name active limit).message))))

/-- The engine refuses the work: its lease is released, and then it is told so and completed. If the
engine left the controller alone, the release leaves no trace of the lease but the two counts. -/
structure Refused (lease : Lease) (cause : EngineError) : Prop where
  answer : (site.submit item state).2 = .error (.engineRejected item.category cause)
  takes : site.Takes item state disposal
    (site.grantDeeds item state lease (.refuse cause) ++ .released lease ::
      Deed.calls (settleActs item.work (some (.engineRejected cause.message))))
  restored :
    let admitted := site.supervise lease (site.request item.category state).1
    let received := (site.engine.receive (item.withLease lease) admitted).1
    site.controller received = site.controller admitted →
      (site.plain item state).Restored (site.controller (site.release lease received)) lease

/-- The engine runs the work, at once or after it kept it for a time. How the work is settled and
what the engine is told go by how the run has ended. -/
structure Ran (lease : Lease) (watch : Option Nat) (ending : Ending) (settling : List (Act ω))
    (outcome : WorkOutcome) : Prop where
  answer : (site.submit item state).2 = .ok lease.id
  watched : watch.isSome = (item.timeout.isSome && site.supervisor.isSome)
  ends : Ends item.work ending settling outcome
  takes :
    site.Takes item state disposal
        (site.grantDeeds item state lease .runNow ++ .call .begin ::
          runDeeds (item.withLease lease) watch ending settling ++ [.call (.finish outcome)]) ∨
      site.Takes item state disposal
        (site.grantDeeds item state lease .keep ++ .call .wait ::
          runDeeds (item.withLease lease) watch ending settling)

/-- The engine keeps the work and drops it in the end: its lease stays on the list until a sweep
takes it back, which the next forced sweep does if no other did before, whatever is asked of the
controller in the meantime. -/
structure Dropped (lease : Lease) : Prop where
  answer : (site.submit item state).2 = .ok lease.id
  takes : site.Takes item state disposal
    (site.grantDeeds item state lease .keep ++ [.call .wait, .dropped lease])
  waits : lease ∈ (site.controller (site.conclude item state disposal)).ledger.outstanding
  reclaimed : ∀ moves source now,
    let later := (site.controller (site.conclude item state disposal)).run moves
    lease ∈ later.ledger.outstanding →
      ∃ lost, (later.reconcile source now).answer = lost.length ∧
        later.Reclaims (later.reconcile source now).controller lost lease

/-- A submission goes a way. -/
def Goes : Way → Prop
  | .rejected => ∃ name active limit, site.Rejected item state disposal name active limit
  | .refused => ∃ lease cause, site.Refused item state disposal lease cause
  | .ran => ∃ lease watch ending settling outcome,
      site.Ran item state disposal lease watch ending settling outcome
  | .dropped => ∃ lease, site.Dropped item state disposal lease

/-! ### Requests -/

section Requests

variable {site item state}

theorem recorded_request (category : String) (record : List (Entry R ω)) :
    site.recorded.request category (state, record) =
      (((site.request category state).1,
        record ++ [site.own state (site.request category state).1]),
        (site.request category state).2) :=
  site.recorded_act
    (fun controller ↦ controller.request (site.source state) (site.now state) category) state record

omit [Scalar R] in
theorem controller_supervise (lease : Lease) :
    site.controller (site.supervise lease state) = (site.controller state).supervise lease :=
  site.controller_setController ..

omit [Scalar R] in
theorem recorded_supervise (lease : Lease) (record : List (Entry R ω)) :
    site.recorded.supervise lease (state, record) =
      (site.supervise lease state, record ++ [site.own state (site.supervise lease state)]) := by
  rw [own, controller_supervise]
  rfl

variable {asked : σ}

theorem controller_request (category : String) :
    site.controller (site.request category state).1 =
      ((site.controller state).request (site.source state) (site.now state) category).controller :=
  site.controller_act ..

theorem answer_request (category : String) :
    (site.request category state).2 =
      ((site.controller state).request (site.source state) (site.now state) category).answer :=
  site.answer_act ..

/-- A request is answered by the controller that is `plain` before its answer. -/
theorem answered_of_request {answer : Except AdmissionError Lease}
    (hrequest : site.request item.category state = (asked, answer)) :
    ∃ settings position,
      let outcome := (site.plain item state).answerAt (site.source state) settings
        (site.now state) position
      site.controller asked = outcome.controller ∧ outcome.answer = answer := by
  obtain ⟨settings, position, hafter, hanswer⟩ := (site.controller state).request_eq_answerAt
    (site.source state) (site.now state) item.category
  rw [← controller_request, hrequest] at hafter
  rw [← answer_request, hrequest] at hanswer
  exact ⟨settings, position, hafter, hanswer.symm⟩

/-- A request that is refused takes no lease. -/
theorem refused_of_request {error : AdmissionError}
    (hrequest : site.request item.category state = (asked, .error error)) :
    (Deed.refused (site.plain item state) : Deed R ω).Effect (site.controller state)
        (site.controller asked) ∧
      ∃ name active limit, error = .rejected name active limit := by
  obtain ⟨settings, position, hasked, herror⟩ := answered_of_request hrequest
  obtain ⟨hrefused, hrejected⟩ := Controller.refused herror
  rw [hasked]
  refine ⟨⟨hrefused, ?_⟩, hrejected⟩
  rw [hrefused.ledger]
  exact Controller.granted_beforeAnswer ..

/-- A request that is granted takes one lease, which its holder holds when it has made itself known.
-/
theorem held_of_request {lease : Lease} (horder : (site.controller state).InOrder)
    (hrequest : site.request item.category state = (asked, .ok lease)) :
    (site.plain item state).Granted (site.controller asked) lease ∧
      (site.controller (site.supervise lease asked)).Held lease := by
  obtain ⟨settings, position, hafter, hlease⟩ := answered_of_request hrequest
  have hplain : (site.plain item state).InOrder := horder.beforeAnswer ..
  have hgranted : (site.plain item state).Granted (site.controller asked) lease := by
    rw [hafter]
    exact hplain.granted hlease
  have hasked : (site.controller asked).InOrder := by
    rw [show asked = (site.request item.category state).1 by rw [hrequest], controller_request]
    exact horder.leadsTo (.request _ _ _ _)
  refine ⟨hgranted, ?_⟩
  rw [controller_supervise]
  refine ⟨hasked.leadsTo (.of_step (.supervise lease.number) fun _ ↦ rfl), ?_⟩
  refine Ledger.holds_supervise ?_ hgranted.active
  rw [hgranted.outstanding]
  exact List.mem_cons_self

omit [Scalar R] in
theorem recorded_receive {admitted : AdmittedWork ω} {next : σ} {choice : EngineChoice}
    (hreceive : site.engine.receive admitted state = (next, choice)) (record : List (Entry R ω)) :
    site.recorded.engine.receive admitted (state, record) =
      ((next, record ++ [site.others (.receive admitted choice) state next]), choice) := by
  simp only [recorded, hreceive, note]

/-- What is entered up to the answer of the engine, if the request is granted. -/
def grantEntries (site : Site σ R ω) (item : WorkItem ω) (lease : Lease) (choice : EngineChoice)
    (state asked received : σ) : List (Entry R ω) :=
  [site.own state asked, site.own asked (site.supervise lease asked),
    site.others (.receive (item.withLease lease) choice) (site.supervise lease asked) received]

/-- A submission whose request is granted begins with the grant, and the lease is held when the
engine has answered. -/
theorem follows_grant {lease : Lease} (horder : (site.controller state).InOrder)
    (hrequest : site.request item.category state = (asked, .ok lease)) {received : σ}
    {choice : EngineChoice} {entries : List (Entry R ω)}
    (hspares : Spares lease.number
      (site.grantEntries item lease choice state asked received ++ entries)) :
    Follows (site.controller state) (site.grantEntries item lease choice state asked received)
        (site.grantDeeds item state lease choice) (site.controller received) ∧
      (site.controller received).Held lease := by
  obtain ⟨hgranted, hheld⟩ := held_of_request horder hrequest
  have hplain : (site.plain item state).ledger.granted = (site.controller state).ledger.granted :=
    Controller.granted_beforeAnswer ..
  constructor
  · exact .cons (.granted (site.plain item state) lease) ⟨hgranted, hplain⟩
      (.cons (.supervised lease) (controller_supervise lease) (.call _ _ _))
  · refine hheld.sparing (hspares (site.others (.receive (item.withLease lease) choice)
      (site.supervise lease asked) received) ?_ (Option.some_ne_none _))
    exact List.mem_append_left _ (by simp [grantEntries])

end Requests

/-! ### The four ways -/

section Ways

variable {site item state disposal} {asked received : σ} {lease : Lease}

/-- The course of a submission whose request is refused. -/
theorem takes_rejected {error : AdmissionError}
    (hrequest : site.request item.category state = (asked, .error error)) :
    (site.submit item state).2 = .error error ∧
      site.Takes item state disposal (.refused (site.plain item state) ::
        Deed.calls (site.tellActs item.work (some (.rejected error.message)) asked)) := by
  obtain ⟨hrefused, -⟩ := refused_of_request hrequest
  let failure : WorkFailure := .rejected error.message
  obtain ⟨told, htold, hsettle⟩ :=
    site.recorded_settle item.work (some failure) asked [site.own state asked]
  have hkept : site.kept? item state = none := by simp only [kept?, hrequest]
  have hsubmit : site.submit item state =
      (site.settle item.work (some failure) asked, .error error) := by
    simp only [submit, hrequest, failure]
  have hconclude : site.conclude item state disposal =
      site.settle item.work (some failure) asked := by
    simp only [conclude, hkept, hsubmit]
  have hcourse : site.course item state disposal = site.own state asked :: told := by
    simp only [course, hkept, submit, recorded_request, hrequest, List.nil_append]
    exact congrArg Prod.snd htold
  constructor
  · rw [hsubmit]
  · rw [Takes, hcourse, hconclude]
    exact .cons (.refused (site.plain item state)) hrefused hsettle

theorem goes_rejected {error : AdmissionError}
    (hreturns : ∀ failure state, (site.code.markFailed item.work failure state).2 = .returned)
    (hrequest : site.request item.category state = (asked, .error error)) :
    site.Goes item state disposal .rejected := by
  obtain ⟨-, name, active, limit, rfl⟩ := refused_of_request hrequest
  obtain ⟨hanswer, htakes⟩ := takes_rejected hrequest
  rw [tellActs_of_returns site hreturns] at htakes
  exact ⟨name, active, limit, hanswer, htakes⟩

/-- The course of a submission that the engine refuses; the lease is held until it is released. -/
theorem takes_refused {cause : EngineError} (horder : (site.controller state).InOrder)
    (hrequest : site.request item.category state = (asked, .ok lease))
    (hreceive : site.engine.receive (item.withLease lease) (site.supervise lease asked) =
      (received, .refuse cause))
    (hspares : Spares lease.number (site.course item state disposal)) :
    (site.submit item state).2 = .error (.engineRejected item.category cause) ∧
      site.Takes item state disposal
        (site.grantDeeds item state lease (.refuse cause) ++ .released lease ::
          Deed.calls (site.tellActs item.work (some (.engineRejected cause.message))
            (site.release lease received))) ∧
      (site.controller received).Held lease := by
  let failure : WorkFailure := .engineRejected cause.message
  let opening := site.grantEntries item lease (.refuse cause) state asked received
  let given := site.own received (site.release lease received)
  obtain ⟨told, htold, hsettle⟩ := site.recorded_settle item.work (some failure)
    (site.release lease received) (opening ++ [given])
  have hkept : site.kept? item state = none := by simp only [kept?, hrequest, hreceive]
  have hsubmit : site.submit item state =
      (site.settle item.work (some failure) (site.release lease received),
        .error (.engineRejected item.category cause)) := by
    simp only [submit, hrequest, execute, hreceive, fail, failure, WorkItem.work_withLease,
      WorkItem.lease_withLease]
  have hconclude : site.conclude item state disposal =
      site.settle item.work (some failure) (site.release lease received) := by
    simp only [conclude, hkept, hsubmit]
  have hcourse : site.course item state disposal = opening ++ given :: told := by
    simp only [course, hkept, submit, recorded_request, hrequest, recorded_supervise, execute,
      recorded_receive hreceive, fail, recorded_release, WorkItem.work_withLease,
      WorkItem.lease_withLease]
    exact (congrArg Prod.snd htold).trans (List.append_assoc ..)
  rw [hcourse] at hspares
  obtain ⟨hopening, hreceived⟩ := follows_grant horder hrequest hspares
  refine ⟨?_, ?_, hreceived⟩
  · rw [hsubmit]
  · rw [Takes, hcourse, hconclude]
    exact hopening.append ((site.follows_release hreceived).append hsettle)

theorem goes_refused {cause : EngineError}
    (hreturns : ∀ failure state, (site.code.markFailed item.work failure state).2 = .returned)
    (horder : (site.controller state).InOrder)
    (hrequest : site.request item.category state = (asked, .ok lease))
    (hreceive : site.engine.receive (item.withLease lease) (site.supervise lease asked) =
      (received, .refuse cause))
    (hspares : Spares lease.number (site.course item state disposal)) :
    site.Goes item state disposal .refused := by
  obtain ⟨hanswer, htakes, hreceived⟩ := takes_refused horder hrequest hreceive hspares
  rw [tellActs_of_returns site hreturns] at htakes
  refine ⟨lease, cause, hanswer, htakes, ?_⟩
  intro admitted next hleft
  have hadmitted : admitted = site.supervise lease asked := by simp only [admitted, hrequest]
  have hnext : next = received := by simp only [next, hadmitted, hreceive]
  obtain ⟨hgranted, -⟩ := held_of_request horder hrequest
  have hlist := hreceived.holds.mem_outstanding
  rw [hnext, hadmitted, controller_supervise] at hleft
  rw [hnext, controller_release]
  have hreleased := hreceived.order.leadsTo
    (.release _ (site.source received) (site.now received) (hreceived.order.mem_granted hlist))
  refine hgranted.restored (hreceived.order.released hlist hreceived.holds.active _ _)
    (horder.beforeAnswer _ _ _) hreleased ?_ ?_ ?_
  all_goals
    rw [hleft]
    rfl

/-- The course of a submission that the engine runs at once. -/
theorem takes_ran (horder : (site.controller state).InOrder)
    (hrequest : site.request item.category state = (asked, .ok lease))
    (hreceive : site.engine.receive (item.withLease lease) (site.supervise lease asked) =
      (received, .runNow))
    (hspares : Spares lease.number (site.course item state disposal)) :
    let watch := (site.startWatch (item.withLease lease) (site.engine.begin received)).2
    let ran := site.ran (item.withLease lease) (site.engine.begin received)
    (site.submit item state).2 = .ok lease.id ∧
      site.Takes item state disposal
        (site.grantDeeds item state lease .runNow ++ .call .begin ::
          site.ranDeeds (item.withLease lease) watch ran.2 (site.release lease ran.1) ++
            [.call (.finish (outcomeOf ran.2))]) := by
  intro watch ran
  let opening := site.grantEntries item lease .runNow state asked received
  let begun := site.engine.begin received
  let beginning := site.others .begin received begun
  obtain ⟨running, told, hrecorded, hrunning, htold⟩ :=
    site.recorded_run (item.withLease lease) begun (opening ++ [beginning])
  let ending := ran.2
  let ready := ran.1
  let settled := (site.run (item.withLease lease) begun).1
  let finished := site.engine.finish (outcomeOf ending) settled
  have hkept : site.kept? item state = none := by simp only [kept?, hrequest, hreceive]
  have hsubmit : site.submit item state = (finished, .ok lease.id) := by
    simp only [submit, hrequest, execute, hreceive, run_eq, finished, settled, ending, ran, begun]
  have hconclude : site.conclude item state disposal = finished := by
    simp only [conclude, hkept, hsubmit]
  have hcourse : site.course item state disposal =
      opening ++ beginning :: (running ++ site.own ready (site.release lease ready) :: told) ++
        [site.others (.finish (outcomeOf ending)) settled finished] := by
    simp only [course, hkept, submit, recorded_request, hrequest, recorded_supervise, execute,
      recorded_receive hreceive]
    change (site.recorded.engine.finish
      (site.recorded.run (item.withLease lease) (begun, opening ++ [beginning])).2
      (site.recorded.run (item.withLease lease) (begun, opening ++ [beginning])).1).2 = _
    rw [hrecorded, List.append_cons]
    rfl
  rw [hcourse, List.append_assoc] at hspares
  obtain ⟨hopening, hreceived⟩ := follows_grant horder hrequest hspares
  have hbegun : (site.controller begun).Held lease :=
    hreceived.sparing (hspares beginning (by simp) (Option.some_ne_none _))
  have hspared : Spares lease.number running := fun entry hmem ↦ hspares entry (by simp [hmem])
  have hrun := site.follows_run hbegun hspared hrunning htold
  constructor
  · rw [hsubmit]
  · rw [Takes, hcourse, hconclude]
    exact (hopening.append (.cons (.call .begin) trivial hrun)).append (.call _ _ _)

theorem goes_ran
    (hreturns : ∀ failure state, (site.code.markFailed item.work failure state).2 = .returned)
    (horder : (site.controller state).InOrder)
    (hrequest : site.request item.category state = (asked, .ok lease))
    (hreceive : site.engine.receive (item.withLease lease) (site.supervise lease asked) =
      (received, .runNow))
    (hspares : Spares lease.number (site.course item state disposal)) :
    site.Goes item state disposal .ran := by
  obtain ⟨hanswer, htakes⟩ := takes_ran horder hrequest hreceive hspares
  have hwatched := site.isSome_startWatch (item.withLease lease) (site.engine.begin received)
  have hends := site.ends_tellActs hreturns
  exact ⟨lease, _, _, _, _, hanswer, hwatched, hends _ _, .inl htakes⟩

/-- The course of a submission that the engine keeps and runs later. -/
theorem takes_ran_later {later : σ} (horder : (site.controller state).InOrder)
    (hrequest : site.request item.category state = (asked, .ok lease))
    (hreceive : site.engine.receive (item.withLease lease) (site.supervise lease asked) =
      (received, .keep))
    (hspares : Spares lease.number (site.course item state (.run later))) :
    let watch := (site.startWatch (item.withLease lease) later).2
    let ran := site.ran (item.withLease lease) later
    (site.submit item state).2 = .ok lease.id ∧
      site.Takes item state (.run later)
        (site.grantDeeds item state lease .keep ++ .call .wait ::
          site.ranDeeds (item.withLease lease) watch ran.2 (site.release lease ran.1)) := by
  intro watch ran
  let opening := site.grantEntries item lease .keep state asked received
  let waiting := site.others .wait received later
  obtain ⟨running, told, hrecorded, hrunning, htold⟩ :=
    site.recorded_run (item.withLease lease) later (opening ++ [waiting])
  let ready := ran.1
  have hkept : site.kept? item state = some (item.withLease lease) := by
    simp only [kept?, hrequest, hreceive]
  have hsubmit : site.submit item state = (received, .ok lease.id) := by
    simp only [submit, hrequest, execute, hreceive]
  have hconclude : site.conclude item state (.run later) =
      (site.run (item.withLease lease) later).1 := by
    simp only [conclude, hkept]
  have hcourse : site.course item state (.run later) =
      opening ++ waiting :: (running ++ site.own ready (site.release lease ready) :: told) := by
    simp only [course, hkept, submit, recorded_request, hrequest, recorded_supervise, execute,
      recorded_receive hreceive]
    change (site.recorded.run (item.withLease lease) (later, opening ++ [waiting])).1.2 = _
    rw [hrecorded, List.append_cons]
    rfl
  rw [hcourse] at hspares
  obtain ⟨hopening, hreceived⟩ := follows_grant horder hrequest hspares
  have hlater : (site.controller later).Held lease :=
    hreceived.sparing (hspares waiting (by simp) (Option.some_ne_none _))
  have hspared : Spares lease.number running := fun entry hmem ↦ hspares entry (by simp [hmem])
  have hrun := site.follows_run hlater hspared hrunning htold
  constructor
  · rw [hsubmit]
  · rw [Takes, hcourse, hconclude]
    exact hopening.append (.cons (.call .wait) trivial hrun)

theorem goes_ran_later {later : σ}
    (hreturns : ∀ failure state, (site.code.markFailed item.work failure state).2 = .returned)
    (horder : (site.controller state).InOrder)
    (hrequest : site.request item.category state = (asked, .ok lease))
    (hreceive : site.engine.receive (item.withLease lease) (site.supervise lease asked) =
      (received, .keep))
    (hspares : Spares lease.number (site.course item state (.run later))) :
    site.Goes item state (.run later) .ran := by
  obtain ⟨hanswer, htakes⟩ := takes_ran_later horder hrequest hreceive hspares
  have hwatched := site.isSome_startWatch (item.withLease lease) later
  have hends := site.ends_tellActs hreturns
  exact ⟨lease, _, _, _, _, hanswer, hwatched, hends _ _, .inr htakes⟩

theorem goes_dropped {later : σ}
    (horder : (site.controller state).InOrder)
    (hrequest : site.request item.category state = (asked, .ok lease))
    (hreceive : site.engine.receive (item.withLease lease) (site.supervise lease asked) =
      (received, .keep))
    (hspares : Spares lease.number (site.course item state (.drop later))) :
    site.Goes item state (.drop later) .dropped := by
  let opening := site.grantEntries item lease .keep state asked received
  let waiting := site.others .wait received later
  have hkept : site.kept? item state = some (item.withLease lease) := by
    simp only [kept?, hrequest, hreceive]
  have hsubmit : site.submit item state = (received, .ok lease.id) := by
    simp only [submit, hrequest, execute, hreceive]
  have hconclude : site.conclude item state (.drop later) = site.drop lease later := by
    simp only [conclude, hkept, WorkItem.lease_withLease]
  have hcourse : site.course item state (.drop later) =
      opening ++ [waiting, site.own later (site.drop lease later)] := by
    simp only [course, hkept, submit, recorded_request, hrequest, recorded_supervise, execute,
      recorded_receive hreceive, recorded_drop, WorkItem.lease_withLease, opening, waiting,
      grantEntries, Disposal.state, List.nil_append, List.cons_append]
  rw [hcourse] at hspares
  obtain ⟨hopening, hreceived⟩ := follows_grant horder hrequest hspares
  have hlater : (site.controller later).Held lease :=
    hreceived.sparing (hspares waiting (by simp) (Option.some_ne_none _))
  have hdrop : site.controller (site.drop lease later) =
      ((site.controller later).drop lease).controller :=
    site.controller_act ..
  have hdropped := Controller.dropped hlater.holds.mem_outstanding hlater.holds.active
  rw [← hdrop] at hdropped
  refine ⟨lease, ?_, ?_, ?_, ?_⟩
  · rw [hsubmit]
  · rw [Takes, hcourse, hconclude]
    exact hopening.append (.cons (.call .wait) trivial (.single (.dropped lease) hdropped))
  · rw [hconclude, hdropped.outstanding]
    exact hdropped.held
  · intro moves source now run hlist
    have hgranted := hlater.order.mem_granted hlater.holds.mem_outstanding
    have horder := hlater.order.leadsTo (.drop _ hgranted)
    rw [← hdrop, ← hconclude] at horder
    rw [← hconclude] at hdropped
    have hmoves := Activity.LeadsTo.run
      (site.controller (site.conclude item state (.drop later))) moves
    have habandoned := hmoves.final (by decide) hdropped.abandoned
    exact (horder.leadsTo hmoves).reclaims hlist habandoned source now

/-- Who acts in the course of a submission tells the way that it goes. -/
theorem Goes.way_eq {way : Way} (h : site.Goes item state disposal way) :
    way = .ofActs ((site.course item state disposal).map (·.act)) := by
  cases way with
  | rejected =>
    obtain ⟨name, active, limit, hway⟩ := h
    rw [hway.takes.acts]
    rfl
  | refused =>
    obtain ⟨lease, cause, hway⟩ := h
    rw [hway.takes.acts]
    rfl
  | ran =>
    obtain ⟨lease, watch, ending, settling, outcome, hway⟩ := h
    rcases hway.takes with htakes | htakes
    · rw [htakes.acts, runDeeds, runActs]
      rcases watchActs (item.withLease lease) watch with _ | ⟨act, acts⟩ <;> rfl
    · rw [htakes.acts, runDeeds, runActs]
      rcases watchActs (item.withLease lease) watch with _ | ⟨act, acts⟩ <;> rfl
  | dropped =>
    obtain ⟨lease, hway⟩ := h
    rw [hway.takes.acts]
    rfl

theorem exists_way
    (hreturns : ∀ failure state, (site.code.markFailed item.work failure state).2 = .returned)
    (horder : (site.controller state).InOrder)
    (hspares : ∀ lease, (site.request item.category state).2 = .ok lease →
      Spares lease.number (site.course item state disposal)) :
    ∃ way, site.Goes item state disposal way := by
  rcases hrequest : site.request item.category state with ⟨asked, error | lease⟩
  · exact ⟨.rejected, goes_rejected hreturns hrequest⟩
  · have hspared := hspares lease (by rw [hrequest])
    rcases hreceive : site.engine.receive (item.withLease lease) (site.supervise lease asked) with
      ⟨received, _ | _ | cause⟩
    · exact ⟨.ran, goes_ran hreturns horder hrequest hreceive hspared⟩
    · cases disposal with
      | run later => exact ⟨.ran, goes_ran_later hreturns horder hrequest hreceive hspared⟩
      | drop later => exact ⟨.dropped, goes_dropped horder hrequest hreceive hspared⟩
    · exact ⟨.refused, goes_refused hreturns horder hrequest hreceive hspared⟩

end Ways

/-- Whatever the controller was asked before, and whatever the other parties do to it short of
giving back the lease, a submission of work that can be told of a failure goes exactly one way. -/
theorem goes_one_way (id : String) (timings : Timings) (source : Source) (start : Nat)
    (moves : List Move)
    (hreached : site.controller state = (Controller.build id timings source start).run moves)
    (hreturns : ∀ failure state, (site.code.markFailed item.work failure state).2 = .returned)
    (hspares : ∀ lease, (site.request item.category state).2 = .ok lease →
      Spares lease.number (site.course item state disposal)) :
    ∃! way, site.Goes item state disposal way := by
  have horder : (site.controller state).InOrder := by
    rw [hreached]
    exact .run id timings source start moves
  obtain ⟨way, hway⟩ := exists_way hreturns horder hspares
  refine ⟨way, hway, fun other hother ↦ ?_⟩
  rw [hway.way_eq]
  exact hother.way_eq

/-- A site with nothing but a controller: the engine keeps all work, work forces a sweep and panics,
and no watch is overrun. -/
def bare (source : Source) : Site (Controller Rat) Rat Unit where
  controller state := state
  setController changed _ := changed
  now _ := 0
  source _ := source
  tell _ state := state
  code :=
    { run := fun _ state ↦ ((state.reconcile source 7200000).controller, .panicked (.text "boom"))
      markFailed := fun _ _ state ↦ (state, .returned)
      complete := fun _ state ↦ (state, .returned) }
  supervisor := some
    { monitor := fun _ _ state ↦ (state, 0)
      cancel := fun _ state ↦ state
      expired := fun _ _ ↦ false }
  engine :=
    { receive := fun _ state ↦ (state, .keep)
      begin := id
      finish := fun _ state ↦ state }
  controller_setController _ _ := rfl
  controller_tell _ _ := rfl

/-- Work for this site that has to end in time. -/
def timed : WorkItem Unit := ⟨(), "a", none, some (.ofMillis 10)⟩

section Bare

variable {source : Source} {state asked later : Controller Rat} {lease : Lease}

/-- What is entered there about work that is granted a lease, kept and run later. -/
theorem course_bare (hrequest : (bare source).request timed.category state = (asked, .ok lease)) :
    let held := (bare source).supervise lease asked
    let swept := (later.reconcile source 7200000).controller
    let released := (bare source).release lease swept
    (bare source).course timed state (.run later) =
      (bare source).grantEntries timed lease .keep state asked held ++
        [(bare source).others .wait held later,
          (bare source).others (.monitor "a" (.ofMillis 10) 0) later later,
          (bare source).others (.run () (.panicked (.text "boom"))) later swept,
          (bare source).others (.cancel 0) swept swept,
          (bare source).own swept released,
          (bare source).others (.markFailed () (.panicked "boom")) released released,
          (bare source).others (.complete ()) released released] := by
  simp only [course, kept?, submit, recorded_request, hrequest, recorded_supervise]
  rfl

/-- Others spare the lease there if they do so while the engine keeps the work. -/
theorem spares_bare (hrequest : (bare source).request timed.category state = (asked, .ok lease))
    (hlater : Controller.Sparing lease.number ((bare source).supervise lease asked) later) :
    Spares lease.number ((bare source).course timed state (.run later)) := by
  have hstill : ∀ state : Controller Rat, Controller.Sparing lease.number state state :=
    fun state ↦ ⟨[], by simp, rfl⟩
  have hswept : Controller.Sparing lease.number later (later.reconcile source 7200000).controller :=
    ⟨[⟨.reconcile, source, 7200000⟩], by simp [Operation.gives], rfl⟩
  intro entry hmem hact
  rw [course_bare hrequest] at hmem
  simp only [grantEntries, List.cons_append, List.nil_append, List.mem_cons, List.not_mem_nil,
    or_false] at hmem
  rcases hmem with rfl | rfl | rfl | rfl | rfl | rfl | rfl | rfl | rfl | rfl
  · exact absurd rfl hact
  · exact absurd rfl hact
  · exact hstill _
  · exact hlater
  · exact hstill _
  · exact hswept
  · exact hstill _
  · exact absurd rfl hact
  · exact hstill _
  · exact hstill _

end Bare

/-- Such a submission: its request is granted, and the engine runs the work an hour and a forced
sweep later. The work panics, and it is told so and completed when its lease is released. -/
theorem goes_one_way_kept :
    ∃ (source : Source) (state later : Controller Rat) (lease : Lease),
      state = .build "main" {} source 0 ∧
      ((bare source).request timed.category state).2.toOption = some lease ∧
      (∃! way, (bare source).Goes timed state (.run later) way) ∧
      (bare source).Takes timed state (.run later)
        [.granted ((bare source).plain timed state) lease, .supervised lease,
          .call (.receive (timed.withLease lease) .keep), .call .wait,
          .call (.monitor "a" (.ofMillis 10) 0), .call (.run () (.panicked (.text "boom"))),
          .call (.cancel 0), .released lease, .call (.markFailed () (.panicked "boom")),
          .call (.complete ())] := by
  let source : Source := ⟨fun _ ↦ ⟨0, {}⟩, fun _ _ ↦ none⟩
  let state : Controller Rat := .build "main" {} source 0
  have hgranted : ((bare source).request timed.category state).2.toOption = some ⟨0, 0, 0⟩ := by
    decide +kernel
  rcases hrequest : (bare source).request timed.category state with ⟨asked, _ | lease⟩
  · rw [hrequest] at hgranted
    cases hgranted
  · let later := (((bare source).supervise lease asked).reconcile source 3600000).controller
    have hspares : Spares lease.number ((bare source).course timed state (.run later)) :=
      spares_bare hrequest ⟨[⟨.reconcile, source, 3600000⟩], by simp [Operation.gives], rfl⟩
    have horder : ((bare source).controller state).InOrder := .run "main" {} source 0 []
    refine ⟨source, state, later, lease, rfl, by rw [hrequest]; rfl, ?_,
      (takes_ran_later horder hrequest rfl hspares).2⟩
    refine goes_one_way (bare source) timed state (.run later) "main" {} source 0 [] rfl
      (fun _ _ ↦ rfl) fun other hother ↦ ?_
    rw [hrequest] at hother
    cases hother
    exact hspares

end Site

end Admission
