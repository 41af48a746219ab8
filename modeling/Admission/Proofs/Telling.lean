import Admission.Proofs.Hysteresis
import Admission.Simulation.Play
import Mathlib.Data.List.DropRight

/-!
# Telling of changes of overload

A world has many controllers and one sink. What is asked of its controllers is a list of calls, each
a move of one of them, and every controller then goes on with its own course.

The sink is told of the changes in the order of the calls, and a buffer keeps the latest of them
(`World.Carries.performAll`). Whatever the sink does with a change, even if it fails, the
controllers and their answers do not depend on it (`World.performAll_of_deaf`). The health of a
world lists the categories whose last change was one into overload (`World.Carries.health`).
-/

set_option autoImplicit false
set_option relaxedAutoImplicit false

namespace Admission

variable {R : Type}

/-! ### Buffers -/

namespace EventBuffer

variable {α : Type} {buffer : EventBuffer α} {count : Nat} {history : List α}

/-- A buffer for so many events that has the latest of a history. -/
structure Holds (buffer : EventBuffer α) (count : Nat) (history : List α) : Prop where
  capacity : buffer.capacity = count
  events : buffer.events = history.rtake count

theorem Holds.push (h : buffer.Holds count history) (event : α) :
    (buffer.push event).Holds count (history ++ [event]) := by
  obtain ⟨hcapacity, hevents⟩ := h
  unfold EventBuffer.push
  cases count with
  | zero =>
    rw [if_pos hcapacity]
    refine ⟨hcapacity, ?_⟩
    rw [hevents, List.rtake_zero, List.rtake_zero]
  | succ left =>
    rw [if_neg (hcapacity ▸ Nat.succ_ne_zero left)]
    refine ⟨hcapacity, ?_⟩
    have hkept : (if buffer.capacity ≤ buffer.events.length then buffer.events.tail
        else buffer.events) = history.rtake left := by
      rw [hcapacity, hevents, List.rtake, List.rtake, List.length_drop, List.tail_drop]
      split
      · congr 1
        omega
      · congr 1
        omega
    rw [List.rtake_concat_succ, ← hkept]

end EventBuffer

namespace Course

/-! ### Many courses -/

/-- The courses of many controllers when there was a call for one of them. -/
def advance (courses : String → Course) (call : String × Move) : String → Course :=
  Function.update courses call.1 ((courses call.1).extend call.2)

/-- The courses after some calls. -/
def advanceAll (courses : String → Course) (calls : List (String × Move)) : String → Course :=
  calls.foldl advance courses

variable (R) [Scalar R]

/-- What the controllers answer to calls. -/
def answers (courses : String → Course) : List (String × Move) → List Response
  | [] => []
  | call :: calls =>
    (((courses call.1).controller R).outcome call.2).answer :: answers (advance courses call) calls

/-- The changes of overload that calls bring about, each with the name of its controller. -/
def told (courses : String → Course) : List (String × Move) → List (String × OverloadEvent)
  | [] => []
  | call :: calls =>
    (((courses call.1).controller R).alerts call.2).map (call.1, ·) ++
      told (advance courses call) calls

/-- What is told under the name of a controller is what is told of in its own course. -/
theorem alerts_advanceAll (courses : String → Course) (calls : List (String × Move))
    (name : String) :
    (advanceAll courses calls name).alerts R =
      (courses name).alerts R ++ ((told R courses calls).filter (·.1 = name)).map (·.2) := by
  induction calls generalizing courses with
  | nil => simp [advanceAll, told]
  | cons call calls ih =>
    have hadvance : (advance courses call name).alerts R = (courses name).alerts R ++
        (((((courses call.1).controller R).alerts call.2).map (call.1, ·)).filter
          (·.1 = name)).map (·.2) := by
      unfold advance
      by_cases hname : call.1 = name
      · subst hname
        rw [Function.update_self, alerts_extend]
        simp [List.filter_map, Function.comp_def]
      · rw [Function.update_of_ne (Ne.symm hname)]
        simp [List.filter_map, Function.comp_def, hname]
    rw [advanceAll, List.foldl_cons, ← advanceAll, ih, hadvance, told, List.filter_append,
      List.map_append, List.append_assoc]

end Course

namespace Simulation.World

variable [Scalar R] {world : World R} {courses : String → Course} {history : List OverloadEvent}

/-! ### Calls -/

/-- A call for the controller under a name. -/
def perform (world : World R) (call : String × Move) : World R × Response :=
  world.act call.1 fun controller _ _ ↦ controller.outcome call.2

/-- A request of a script is a call with the source and the time of the world. -/
theorem perform_request (world : World R) (name category : String) :
    world.perform (name, ⟨.request category, world.source name, world.now⟩) =
      ((world.request name category).1, .admission (world.request name category).2) := by
  simp only [perform, request, act, Controller.outcome, Outcome.respond]

/-- So is a release. -/
theorem perform_release (world : World R) (name : String) {lease : Lease}
    (hlease : (World.controller name world).ledger.lease? lease.number = some lease) :
    world.perform (name, ⟨.release lease.number, world.source name, world.now⟩) =
      ((world.release name lease).1, .release (world.release name lease).2) := by
  simp only [perform, release, act, Controller.outcome, Outcome.respond, hlease]

/-- A list of calls, one after another. -/
def performAll (world : World R) : List (String × Move) → World R × List Response
  | [] => (world, [])
  | call :: calls =>
    let (next, response) := world.perform call
    let (last, responses) := next.performAll calls
    (last, response :: responses)

/-- The world without its sink, and without what a sink leaves. -/
def deaf (world : World R) : World R :=
  { world with sinkKind := .memory, buffer := ⟨0, []⟩, log := [] }

omit [Scalar R] in
theorem deaf_tell (notices : List (Notice R)) (world : World R) :
    (tell notices world).deaf = world.deaf := by
  have hone : ∀ (world : World R) (notice : Notice R),
      (world.tellOne notice).deaf = world.deaf := by
    intro world notice
    unfold tellOne
    split
    · unfold deliver
      dsimp only
      split
      · rfl
      · rfl
      · split <;> rfl
    · split <;> rfl
  induction notices generalizing world with
  | nil => rfl
  | cons notice rest ih => exact (ih _).trans (hone world notice)

/-- A call does to a world what it does to one without a sink. -/
theorem perform_deaf (world : World R) (call : String × Move) :
    (world.perform call).1.deaf = (world.deaf.perform call).1.deaf ∧
      (world.perform call).2 = (world.deaf.perform call).2 := by
  refine ⟨?_, rfl⟩
  let outcome := (World.controller call.1 world).outcome call.2
  have hworld : (world.perform call).1.deaf =
      (setController call.1 outcome.controller world).deaf := deaf_tell ..
  have hdeaf : (world.deaf.perform call).1.deaf =
      (setController call.1 outcome.controller world.deaf).deaf := deaf_tell ..
  exact hworld.trans hdeaf.symm

/-- Worlds that differ in nothing but their sinks answer calls alike, and differ in nothing else
afterwards. -/
theorem performAll_of_deaf {other : World R} (calls : List (String × Move))
    (h : world.deaf = other.deaf) :
    (world.performAll calls).1.deaf = (other.performAll calls).1.deaf ∧
      (world.performAll calls).2 = (other.performAll calls).2 := by
  induction calls generalizing world other with
  | nil => exact ⟨h, rfl⟩
  | cons call calls ih =>
    obtain ⟨hworld, hanswer⟩ := world.perform_deaf call
    obtain ⟨hother, hreply⟩ := other.perform_deaf call
    rw [h] at hworld hanswer
    obtain ⟨hlast, hresponses⟩ := ih (hworld.trans hother.symm)
    refine ⟨hlast, ?_⟩
    rw [performAll, performAll]
    exact congrArg₂ List.cons (hanswer.trans hreply.symm) hresponses

/-! ### What a sink is told -/

/-- The sink is one with a buffer, which has the latest of a history. -/
structure Hears (world : World R) (count : Nat) (history : List OverloadEvent) : Prop where
  sinkKind : world.sinkKind ≠ .log
  buffer : world.buffer.Holds count history

omit [Scalar R] in
theorem Hears.deliver {count : Nat} (h : world.Hears count history) (event : OverloadEvent) :
    (world.deliver event).Hears count (history ++ [event]) := by
  have hbuffer := h.buffer.push event
  unfold World.deliver
  dsimp only
  split
  · exact ⟨h.sinkKind, hbuffer⟩
  · next hlog => exact absurd hlog h.sinkKind
  · split
    · exact ⟨h.sinkKind, hbuffer⟩
    · exact ⟨h.sinkKind, hbuffer⟩

omit [Scalar R] in
theorem Hears.tell {count : Nat} (h : world.Hears count history) (notices : List (Notice R)) :
    (World.tell notices world).Hears count (history ++ notices.filterMap Notice.alert?) := by
  induction notices generalizing world history with
  | nil => simpa [World.tell] using h
  | cons notice rest ih =>
    have hone : (world.tellOne notice).Hears count (history ++ notice.alert?.toList) := by
      cases notice with
      | overload event => exact h.deliver event
      | _ =>
        change World.Hears _ count (history ++ [])
        rw [List.append_nil]
        exact ⟨h.sinkKind, h.buffer⟩
    have hnotices : notice.alert?.toList ++ rest.filterMap Notice.alert? =
        (notice :: rest).filterMap Notice.alert? := by
      rw [List.filterMap_cons]
      cases notice.alert? <;> rfl
    have hrest := ih hone
    rw [List.append_assoc, hnotices] at hrest
    exact hrest

/-- Under every name there is the controller that a course leads to. -/
def Carries (world : World R) (courses : String → Course) : Prop :=
  ∀ name, World.controller name world = (courses name).controller R

theorem Carries.perform (h : world.Carries courses) (call : String × Move) :
    (world.perform call).1.Carries (Course.advance courses call) := by
  intro name
  refine (controller_tell ..).trans ?_
  unfold Course.advance
  by_cases hname : name = call.1
  · subst hname
    rw [Function.update_self, controller_setController, Course.controller_extend, ← h,
      Controller.controller_outcome]
  · rw [Function.update_of_ne hname, ← h]
    simp [World.controller, controller?, setController, Registry.put, Registry.get?,
      NameMap.get?_insert, hname]
    rfl

/-- A call tells the sink what its controller tells of in its course. -/
theorem Carries.hears (h : world.Carries courses) {count : Nat} (hhears : world.Hears count history)
    (call : String × Move) :
    (world.perform call).1.Hears count
      (history ++ ((courses call.1).controller R).alerts call.2) := by
  have hput : (setController call.1 ((World.controller call.1 world).outcome call.2).controller
      world).Hears count history := ⟨hhears.sinkKind, hhears.buffer⟩
  rw [← h call.1]
  exact hput.tell ((World.controller call.1 world).outcome call.2).notices

/-- After calls every controller is where its course leads to by then, the answers are those of the
courses, and the sink was told of their changes in order. -/
theorem Carries.performAll (h : world.Carries courses) (calls : List (String × Move)) :
    (world.performAll calls).1.Carries (Course.advanceAll courses calls) ∧
      (world.performAll calls).2 = Course.answers R courses calls ∧
        ∀ {count : Nat} {history : List OverloadEvent}, world.Hears count history →
          (world.performAll calls).1.Hears count
            (history ++ (Course.told R courses calls).map (·.2)) := by
  induction calls generalizing world courses with
  | nil =>
    refine ⟨h, rfl, fun {count history} hhears ↦ ?_⟩
    rw [Course.told, List.map_nil, List.append_nil]
    exact hhears
  | cons call calls ih =>
    obtain ⟨hcarries, hanswers, htold⟩ := ih (h.perform call)
    refine ⟨hcarries, ?_, fun {count history} hhears ↦ ?_⟩
    · have hanswer : (world.perform call).2 =
          (((courses call.1).controller R).outcome call.2).answer := by
        rw [← h call.1]
        rfl
      rw [Course.answers, ← hanswer, ← hanswers]
      rfl
    · have hlast := htold (h.hears hhears call)
      have htolds : (Course.told R courses (call :: calls)).map (·.2) =
          ((courses call.1).controller R).alerts call.2 ++
            (Course.told R (Course.advance courses call) calls).map (·.2) := by
        rw [Course.told, List.map_append, List.map_map]
        simp only [Function.comp_def, List.map_id']
      rw [List.append_assoc, ← htolds] at hlast
      exact hlast

end Simulation.World

/-! ### Health -/

namespace Course

variable [Scalar R]

/-- The snapshot of a controller shows those categories as overloaded whose last change was one into
overload. -/
theorem overloadedOf_snapshot (course : Course) (source : Source) (now : Nat) :
    Health.overloadedOf ((course.controller R).snapshot source now).2 =
      (course.entered R).map fun name ↦ course.id ++ "/" ++ name := by
  have hid : ((course.controller R).refreshSettings source now).id = course.id := by
    unfold Controller.refreshSettings
    split <;> exact course.id_controller R
  have hoverloaded : ∀ category ∈ (course.controller R).categories.toList,
      category.overload.overloaded =
        decide (((course.alertsOf R category.name).getLast?).map (·.transition) =
          some .entered) := by
    intro category hmem
    obtain ⟨position, hposition⟩ := List.mem_iff_getElem?.mp hmem
    rw [Array.getElem?_toList] at hposition
    rw [Bool.eq_iff_iff, decide_eq_true_eq]
    exact overloaded_iff hposition
  have hshown : (((course.controller R).snapshot source now).2.categories.filter
      (·.overloaded)).map (·.name) = course.entered R := by
    rw [Controller.snapshot, entered, Controller.categories_refreshSettings, List.filter_map,
      List.filter_map, List.map_map]
    exact congrArg (List.map (·.name)) (List.filter_congr hoverloaded)
  rw [Health.overloadedOf, ← hshown, List.map_map, ← hid]
  rfl

end Course

namespace Simulation.World

variable [Scalar R] {world : World R} {courses : String → Course}

/-- The health of a world lists the categories whose last change was one into overload. -/
theorem Carries.health (h : world.Carries courses) :
    (Health.ofSnapshots world.snapshots.2).overloaded =
      world.registry.ids.flatMap fun name ↦ ((courses name).entered R).map fun category ↦
        (courses name).id ++ "/" ++ category := by
  have hentry : ∀ entry ∈ world.registry.controllers.entries,
      entry.2 = (courses entry.1).controller R := by
    intro entry hmem
    rw [← h, World.controller, controller?, Registry.get?, NameMap.get?_eq_some_iff.mpr hmem]
    rfl
  have hsnapshots : world.snapshots.2 = world.registry.controllers.entries.map fun entry ↦
      (entry.2.snapshot (world.source entry.1) world.now).2 := by
    simp only [snapshots, Registry.snapshots, Registry.visit, NameMap.values, NameMap.mapEntries,
      List.map_map, Function.comp_def]
  rw [Health.ofSnapshots, hsnapshots, Registry.ids, NameMap.keys, List.flatMap_map,
    List.flatMap_map]
  refine List.flatMap_congr fun entry hmem ↦ ?_
  rw [hentry entry hmem, Course.overloadedOf_snapshot]

/-- It is good as long as there is no such category. -/
theorem Carries.not_ok_iff (h : world.Carries courses) :
    (Health.ofSnapshots world.snapshots.2).ok = false ↔
      ∃ name ∈ world.registry.ids, ∃ category, category ∈ (courses name).entered R := by
  have hok : (Health.ofSnapshots world.snapshots.2).ok =
      (Health.ofSnapshots world.snapshots.2).overloaded.isEmpty := rfl
  rw [hok, h.health, ← Bool.not_eq_true, List.isEmpty_iff, List.flatMap_eq_nil_iff]
  simp only [List.map_eq_nil_iff]
  simp only [List.eq_nil_iff_forall_not_mem]
  push Not
  rfl

/-- Changes of overload are told of as they happen. In every course of a controller those of a
category alternate, beginning with one into overload, and each begins when the one before it ended;
its snapshot shows what the last of them was, and when. Each was called for by a request of the
course, whose use of its limit is beyond the band. As long as the bands do not overlap, no use of a
limit calls for both changes, nor for another one after its own. In a world of many controllers the
sink is told of all changes in order, and a buffer has the latest; what becomes of the sink changes
no answer and nothing else; and the health of the world lists exactly the categories whose last
change was one into overload. -/
theorem tells_of_overload (R : Type) [Scalar R] :
    (∀ (course : Course) (position : Nat) (category : Category R),
      (course.controller R).categories[position]? = some category →
        ∃ created, (course.creations R)[position]? = some created ∧
          Chain created ⟨category.snapshot.overloaded, category.snapshot.overloadChangedAt⟩
            (course.alertsOf R category.name)) ∧
    (∀ course : Course, ∀ event ∈ course.alerts Rat,
      ∃ occasion ∈ course.requests Rat, Course.CalledBy occasion event) ∧
    (∀ settings : ControllerSettings, settings.releasePercent ≤ settings.warningPercent →
      ∀ (active limit : Nat) (state other : OverloadState),
        ¬(state.transition? Rat active limit settings = some .entered ∧
          other.transition? Rat active limit settings = some .cleared) ∧
        ∀ (now : Nat) (transition : Transition),
          state.transition? Rat active limit settings = some transition →
            (state.apply now (some transition)).transition? Rat active limit settings = none) ∧
    ∀ (world : World R) (courses : String → Course), world.Carries courses →
      (∀ calls : List (String × Move),
        (world.performAll calls).1.Carries (Course.advanceAll courses calls) ∧
        (world.performAll calls).2 = Course.answers R courses calls ∧
        (∀ name, (Course.advanceAll courses calls name).alerts R = (courses name).alerts R ++
          ((Course.told R courses calls).filter (·.1 = name)).map (·.2)) ∧
        (∀ (count : Nat) (history : List OverloadEvent), world.Hears count history →
          (world.performAll calls).1.Hears count
            (history ++ (Course.told R courses calls).map (·.2))) ∧
        ∀ other : World R, other.deaf = world.deaf →
          (other.performAll calls).2 = (world.performAll calls).2 ∧
          (other.performAll calls).1.deaf = (world.performAll calls).1.deaf) ∧
      (Health.ofSnapshots world.snapshots.2).overloaded =
        (world.registry.ids.flatMap fun name ↦ ((courses name).entered R).map fun category ↦
          (courses name).id ++ "/" ++ category) ∧
      ((Health.ofSnapshots world.snapshots.2).ok = false ↔
        ∃ name ∈ world.registry.ids, ∃ category, category ∈ (courses name).entered R) := by
  refine ⟨?_, ?_, ?_, ?_⟩
  · exact fun course position category hcategory ↦ course.chain hcategory
  · exact fun course event hmem ↦ Course.exists_calledBy hmem
  · intro settings hbands active limit state other
    refine ⟨OverloadState.not_entered_and_cleared hbands, ?_⟩
    exact fun now transition hchange ↦ OverloadState.transition?_apply hbands hchange
  · intro world courses h
    refine ⟨fun calls ↦ ?_, h.health, h.not_ok_iff⟩
    obtain ⟨hcarries, hanswers, hhears⟩ := h.performAll calls
    refine ⟨hcarries, hanswers, Course.alerts_advanceAll R courses calls, ?_, ?_⟩
    · exact fun count history ↦ hhears
    · intro other hdeaf
      exact (performAll_of_deaf calls hdeaf).symm

/-- An entry and the exit from it, told to a sink that has room for one event and fails on entries:
the controllers go on, the buffer has the exit, and in between the category is listed. -/
theorem tells_of_overload_once :
    let source : Source := ⟨fun _ ↦ ⟨1, { threshold := 1 }⟩, fun _ _ ↦ none⟩
    let world : World Rat :=
      { clock := default
        store := default
        servesWeights := true
        timings := { settingsRefresh := 0 }
        registry := {}
        sinkKind := .failingOn .entered
        buffer := ⟨1, []⟩
        engineKind := .runs
        watchdogKind := .none }
    let courses : String → Course :=
      fun name ↦ ⟨name, world.timings, world.source name, world.now, []⟩
    let busy : List (String × Move) :=
      [("main", ⟨.request "a", source, 10⟩), ("main", ⟨.request "a", source, 20⟩)]
    let calls := busy ++ [("main", ⟨.release 0, source, 30⟩), ("main", ⟨.request "a", source, 40⟩)]
    let entry : OverloadEvent := ⟨"main", "a", .entered, 1, 1, 10, 20⟩
    let exit : OverloadEvent := ⟨"main", "a", .cleared, 0, 1, 20, 40⟩
    world.Carries courses ∧ world.Hears 1 [] ∧
      (Course.told Rat courses calls).map (·.2) = [entry, exit] ∧
      (world.performAll calls).1.buffer.events = [exit] ∧
      (Health.ofSnapshots (world.performAll busy).1.snapshots.2).overloaded = ["main/a"] ∧
      (Health.ofSnapshots (world.performAll calls).1.snapshots.2).ok = true ∧
      (∃ category : Category Rat,
        ((Course.advanceAll courses calls "main").controller Rat).categories[0]? = some category ∧
          Chain 10 ⟨category.snapshot.overloaded, category.snapshot.overloadChangedAt⟩
            [entry, exit]) ∧
      (∃ occasion ∈ (Course.advanceAll courses calls "main").requests Rat,
        Course.CalledBy occasion entry) ∧
      (OverloadState.mk true 20).transition? Rat 1 1 { threshold := 1 } = none ∧
      (World.performAll { world with sinkKind := .memory } calls).2 =
        (world.performAll calls).2 := by
  intro source world courses busy calls entry exit
  have hcarries : world.Carries courses := fun name ↦ rfl
  have hhears : world.Hears 1 [] := ⟨by decide, rfl, rfl⟩
  have htold : (Course.told Rat courses calls).map (·.2) = [entry, exit] := by decide +kernel
  have halerts : (Course.advanceAll courses calls "main").alerts Rat = [entry, exit] := by
    decide +kernel
  have hof : (Course.advanceAll courses calls "main").alertsOf Rat "a" = [entry, exit] := by
    decide +kernel
  have hcreations : ((Course.advanceAll courses calls "main").creations Rat)[0]? = some 10 := by
    decide +kernel
  have hname : (((Course.advanceAll courses calls "main").controller Rat).categories[0]?).map
      (·.name) = some "a" := by
    decide +kernel
  have hbands : ({ threshold := 1 } : ControllerSettings).releasePercent ≤
      ({ threshold := 1 } : ControllerSettings).warningPercent := by
    decide
  have hchange : (OverloadState.mk false 10).transition? Rat 1 1 { threshold := 1 } =
      some .entered := by
    decide +kernel
  obtain ⟨hchains, hcalled, hsettled, hworlds⟩ := tells_of_overload Rat
  obtain ⟨-, hstays⟩ := hsettled _ hbands 1 1 ⟨false, 10⟩ ⟨true, 20⟩
  obtain ⟨-, -, -, hbuffer, hdeaf⟩ := (hworlds world courses hcarries).1 calls
  obtain ⟨hbusy, -⟩ := (hworlds world courses hcarries).1 busy
  have hevents := (hbuffer 1 [] hhears).buffer.events
  rw [htold] at hevents
  have hlisted := (hworlds _ _ hbusy).2.1
  have hentered : ((world.performAll busy).1.registry.ids.flatMap fun name ↦
      ((Course.advanceAll courses busy name).entered Rat).map fun category ↦
        (Course.advanceAll courses busy name).id ++ "/" ++ category) = ["main/a"] := by
    decide +kernel
  obtain ⟨category, hcategory, hname⟩ := Option.map_eq_some_iff.mp hname
  obtain ⟨created, hcreated, hchain⟩ := hchains _ 0 category hcategory
  obtain rfl : created = 10 := Option.some.inj (hcreated.symm.trans hcreations)
  rw [hname, hof] at hchain
  refine ⟨hcarries, hhears, htold, hevents, hlisted.trans hentered, by decide +kernel,
    ⟨category, hcategory, hchain⟩, ?_, hstays 20 .entered hchange, ?_⟩
  · exact hcalled _ entry (halerts ▸ List.mem_cons_self)
  · exact (hdeaf { world with sinkKind := .memory } rfl).1

end Simulation.World

end Admission
