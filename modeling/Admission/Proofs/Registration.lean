import Admission.Proofs.Advance
import Admission.Registry

/-!
# Controllers under their own identifiers

A registry is asked to register controllers and to make one on demand where there is none under a
name, and the controllers in it go on with their own moves meanwhile. What a call leaves under a
name is the controller that was there, some moves later, or else what the call puts there
(`Registry.get?_perform`). So whoever comes first under a name stays there
(`Registry.get?_run_of_some`): a later registration is refused, and a later demand makes nothing.

A controller that is registered stands under its own identifier. One that is made on demand stands
under the name that was asked for, and nobody compares that with the identifier it was made with.
Where the two differ the name is one of the `Registry.strays` of the run, and these are all the
names whose controllers are called something else (`Registry.mem_strays_iff`). Without strays a
registry is `Registry.Orderly`: its controllers can be listed, looked up and told apart by their
identifiers. With a single one it is not (`Registry.keeps_to_ids`).
-/

set_option autoImplicit false
set_option relaxedAutoImplicit false

namespace Admission

variable {R : Type}

/-- What a registry can be asked for, and what its controllers can be asked for by those who have
hold of them. A call is one step: one that finds nothing under its name looks again before it makes
a controller. A registry holds what its controllers are at the time, so one that stands under two
names is asked under both. -/
inductive Registry.Call (R : Type) where
  /-- Registers a controller. -/
  | register (controller : Controller R)
  /-- Asks for the controller under a name, which is made if there is none. -/
  | getOrInsertWith (name : String) (make : Unit → Controller R)
  /-- Looks at all controllers. -/
  | snapshots (source : String → Source) (now : Nat)
  /-- Sweeps all controllers. -/
  | reconcileAll (source : String → Source) (now : Nat)
  /-- A move of the controller under a name. -/
  | act (name : String) (move : Move)

namespace Registry

namespace Call

/-- The moves of the controller under a name that a call brings about. -/
def movesOf (name : String) : Call R → List Move
  | register _ | getOrInsertWith _ _ => []
  | snapshots source now => [⟨.refresh, source name, now⟩]
  | reconcileAll source now => [⟨.reconcile, source name, now⟩]
  | act other move => if name = other then [move] else []

/-- What a call puts under a name that is free. -/
def puts? (name : String) : Call R → Option (Controller R)
  | register controller => if name = controller.id then some controller else none
  | getOrInsertWith asked make => if name = asked then some (make ()) else none
  | snapshots _ _ | reconcileAll _ _ | act _ _ => none

end Call

variable {registry : Registry R} {controller : Controller R} {name : String}

/-! ### Look-ups -/

theorem mem_ids_iff : name ∈ registry.ids ↔ ∃ controller, registry.get? name = some controller :=
  NameMap.mem_keys_iff

theorem not_mem_ids_iff : name ∉ registry.ids ↔ registry.get? name = none := by
  rw [mem_ids_iff, Option.eq_none_iff_forall_ne_some]
  exact not_exists

theorem mem_toList_iff :
    controller ∈ registry.toList ↔ ∃ name, registry.get? name = some controller := by
  simp only [toList, NameMap.values, List.mem_map, Prod.exists, exists_eq_right, get?,
    NameMap.get?_eq_some_iff]

theorem get?_put (registry : Registry R) (name other : String) (controller : Controller R) :
    (registry.put name controller).get? other =
      if other = name then some controller else registry.get? other :=
  NameMap.get?_insert registry.controllers name other controller

/-- What a call puts under a name that is free is found there. -/
theorem get?_put_of_none (h : registry.get? name = none) (other : String)
    (controller : Controller R) :
    (registry.put name controller).get? other =
      (registry.get? other).or (if other = name then some controller else none) := by
  rw [get?_put]
  split
  · next hname => rw [hname, h, Option.none_or]
  · rw [Option.or_none]

/-- What a call would put under a name that is taken is found nowhere. -/
theorem get?_or_of_some {stored : Controller R} (h : registry.get? name = some stored)
    (other : String) (controller : Controller R) :
    (registry.get? other).or (if other = name then some controller else none) =
      registry.get? other := by
  split
  · next hname => rw [hname, h, Option.some_or]
  · rw [Option.or_none]

theorem register_of_mem (h : controller.id ∈ registry.ids) :
    registry.register controller =
      .error (.invalidConfig s!"controller `{controller.id}` already registered") := by
  obtain ⟨stored, hstored⟩ := mem_ids_iff.mp h
  have hcontains : registry.controllers.contains controller.id = true :=
    congrArg Option.isSome hstored
  rw [register, if_pos hcontains]

theorem register_of_not_mem (h : controller.id ∉ registry.ids) :
    registry.register controller = .ok (registry.put controller.id controller) := by
  have hcontains : registry.controllers.contains controller.id = false :=
    congrArg Option.isSome (not_mem_ids_iff.mp h)
  rw [register, hcontains]
  rfl

theorem getOrInsertWith_of_some (make : Unit → Controller R)
    (h : registry.get? name = some controller) :
    registry.getOrInsertWith name make = (registry, controller) := by
  rw [getOrInsertWith, h]

theorem getOrInsertWith_of_none (make : Unit → Controller R) (h : registry.get? name = none) :
    registry.getOrInsertWith name make = (registry.put name (make ()), make ()) := by
  rw [getOrInsertWith, h]

/-- An operation that visits all controllers acts on each under its name. -/
theorem get?_visit {α : Type} (registry : Registry R)
    (operation : String → Controller R → Controller R × α) (name : String) :
    (registry.visit operation).1.get? name =
      (registry.get? name).map fun controller ↦ (operation name controller).1 := by
  have hvisited : (registry.visit operation).1.controllers =
      registry.controllers.mapEntries fun name controller ↦ (operation name controller).1 := by
    simp [visit, NameMap.mapValues, NameMap.mapEntries, Function.comp_def]
  rw [get?, hvisited]
  exact NameMap.get?_mapEntries ..

variable [Scalar R]

/-! ### Calls -/

/-- The registry after a call. A registration that is refused leaves it as it was. -/
def perform (registry : Registry R) : Call R → Registry R
  | .register controller =>
    match registry.register controller with
    | .error _ => registry
    | .ok registered => registered
  | .getOrInsertWith name make => (registry.getOrInsertWith name make).1
  | .snapshots source now => (registry.snapshots source now).1
  | .reconcileAll source now => (registry.reconcileAll source now).1
  | .act name move =>
    match registry.get? name with
    | none => registry
    | some controller => registry.put name (controller.perform move)

/-- The registry after several calls. -/
def run (registry : Registry R) (calls : List (Call R)) : Registry R := calls.foldl perform registry

theorem perform_register_of_mem (h : controller.id ∈ registry.ids) :
    registry.perform (.register controller) = registry := by
  rw [perform, register_of_mem h]

theorem get?_perform_act (registry : Registry R) (moved : String) (move : Move) (name : String) :
    (registry.perform (.act moved move)).get? name =
      (registry.get? name).map (·.run (if name = moved then [move] else [])) := by
  have hstill : (registry.get? name).map (·.run []) = registry.get? name := Option.map_id'
  rw [perform]
  split
  · next hnone =>
    split
    · next hname => rw [hname, hnone, Option.map_none]
    · exact hstill.symm
  · next stored hstored =>
    rw [get?_put]
    split
    · next hname =>
      rw [hname, hstored]
      rfl
    · exact hstill.symm

/-- Under every name a call leaves the controller that was there, after the moves that are part of
the call, or else what it puts there. -/
theorem get?_perform (registry : Registry R) (call : Call R) (name : String) :
    (registry.perform call).get? name =
      ((registry.get? name).map (·.run (call.movesOf name))).or (call.puts? name) := by
  have hstill : (registry.get? name).map (·.run []) = registry.get? name := Option.map_id'
  cases call with
  | register controller =>
    rw [Call.movesOf, hstill, Call.puts?]
    by_cases hmem : controller.id ∈ registry.ids
    · obtain ⟨stored, hstored⟩ := mem_ids_iff.mp hmem
      rw [perform_register_of_mem hmem, get?_or_of_some hstored]
    · rw [perform, register_of_not_mem hmem]
      exact get?_put_of_none (not_mem_ids_iff.mp hmem) name controller
  | getOrInsertWith asked make =>
    rw [Call.movesOf, hstill, Call.puts?, perform]
    cases hasked : registry.get? asked with
    | some stored => rw [getOrInsertWith_of_some make hasked, get?_or_of_some hasked]
    | none =>
      rw [getOrInsertWith_of_none make hasked]
      exact get?_put_of_none hasked name (make ())
  | snapshots source now =>
    rw [Call.puts?, Option.or_none]
    exact get?_visit registry (fun name controller ↦ controller.snapshot (source name) now) name
  | reconcileAll source now =>
    rw [Call.puts?, Option.or_none]
    exact get?_visit registry (fun name controller ↦
      let outcome := controller.reconcile (source name) now
      (outcome.controller, outcome.answer, outcome.notices)) name
  | act moved move =>
    rw [Call.puts?, Option.or_none]
    exact get?_perform_act ..

theorem get?_perform_of_some (h : registry.get? name = some controller) (call : Call R) :
    (registry.perform call).get? name = some (controller.run (call.movesOf name)) := by
  rw [get?_perform, h, Option.map_some, Option.some_or]

theorem get?_perform_of_none (h : registry.get? name = none) (call : Call R) :
    (registry.perform call).get? name = call.puts? name := by
  rw [get?_perform, h, Option.map_none, Option.none_or]

/-- A controller stays under its name whatever is asked for, and nothing happens to it but its own
moves. -/
theorem get?_run_of_some (h : registry.get? name = some controller) (calls : List (Call R)) :
    (registry.run calls).get? name =
      some (controller.run (calls.flatMap (·.movesOf name))) := by
  induction calls generalizing registry controller with
  | nil => exact h
  | cons call calls ih =>
    have hnext := ih (get?_perform_of_some h call)
    rw [Controller.run, Controller.run, ← List.foldl_append] at hnext
    exact hnext

end Registry

/-! ### Identifiers -/

namespace Controller

variable [Scalar R]

theorem id_perform (controller : Controller R) (move : Move) :
    (controller.perform move).id = controller.id :=
  Advances.keep (motive := fun changed ↦ changed.id = controller.id)
    (fun hadvance h ↦ hadvance.id_eq.trans h) (advances_perform controller move) rfl

theorem id_run (controller : Controller R) (moves : List Move) :
    (controller.run moves).id = controller.id := by
  induction moves generalizing controller with
  | nil => rfl
  | cons move moves ih => exact (ih _).trans (controller.id_perform move)

end Controller

namespace Registry

variable [Scalar R] {registry : Registry R} {controller : Controller R} {name : String}

/-! ### Names led astray -/

/-- The name under which a call puts a controller that is called something else, if it does. -/
def astray (registry : Registry R) : Call R → List String
  | .getOrInsertWith name make =>
    if (registry.get? name).isNone ∧ (make ()).id ≠ name then [name] else []
  | .register _ | .snapshots _ _ | .reconcileAll _ _ | .act _ _ => []

/-- The names under which calls put controllers that are called something else. -/
def strays (registry : Registry R) : List (Call R) → List String
  | [] => []
  | call :: calls => registry.astray call ++ (registry.perform call).strays calls

omit [Scalar R] in
theorem mem_astray_iff (call : Call R) :
    name ∈ registry.astray call ↔
      registry.get? name = none ∧ ∃ made, call.puts? name = some made ∧ made.id ≠ name := by
  cases call with
  | register controller =>
    simp only [astray, Call.puts?, List.not_mem_nil, Option.ite_none_right_eq_some,
      Option.some.injEq, false_iff, not_and, not_exists, not_not]
    rintro - made ⟨rfl, rfl⟩
    rfl
  | getOrInsertWith asked make =>
    by_cases hname : name = asked
    · subst hname
      simp [astray, Call.puts?]
    · have hother : name ∉ registry.astray (.getOrInsertWith asked make) := by
        intro hmem
        rw [astray] at hmem
        split at hmem
        · exact hname (List.mem_singleton.mp hmem)
        · exact List.not_mem_nil hmem
      simp [hother, Call.puts?, hname]
  | snapshots | reconcileAll | act => simp [astray, Call.puts?]

/-- The names that calls have led astray are those that were free and now have a controller that is
called something else. -/
theorem mem_strays_iff (calls : List (Call R)) :
    name ∈ registry.strays calls ↔
      registry.get? name = none ∧
        ∃ controller, (registry.run calls).get? name = some controller ∧ controller.id ≠ name := by
  induction calls generalizing registry with
  | nil =>
    refine ⟨fun hmem ↦ absurd hmem List.not_mem_nil, fun ⟨hnone, controller, hsome, _⟩ ↦ ?_⟩
    cases hnone.symm.trans hsome
  | cons call calls ih =>
    rw [strays, List.mem_append, mem_astray_iff, ih]
    change _ ↔ _ ∧ ∃ controller,
      ((registry.perform call).run calls).get? name = some controller ∧ controller.id ≠ name
    cases hbefore : registry.get? name with
    | some stored => simp [get?_perform_of_some hbefore]
    | none =>
      rw [get?_perform_of_none hbefore]
      cases hputs : call.puts? name with
      | none => simp
      | some made =>
        -- What is put there now stays to the end, and the rest of the run finds the name taken.
        have hlast := get?_run_of_some ((get?_perform_of_none hbefore call).trans hputs) calls
        simp [hlast, Controller.id_run]

/-! ### Registries in order -/

/-- Every controller stands under its own identifier, and so the registry can be listed and asked by
identifiers: the names are the identifiers of the controllers, each once and in order, in snapshots
too, a controller is found by its identifier, and only an identifier that is there is refused. -/
structure Orderly (registry : Registry R) : Prop where
  own : ∀ name controller, registry.get? name = some controller → controller.id = name
  ids : registry.ids = registry.toList.map (·.id)
  sorted : (registry.toList.map (·.id)).Pairwise (· < ·)
  shown : ∀ source now, (registry.snapshots source now).2.map (·.id) = registry.ids
  found : ∀ controller ∈ registry.toList, registry.get? controller.id = some controller
  refused : ∀ controller, (∃ error, registry.register controller = .error error) ↔
    ∃ stored ∈ registry.toList, stored.id = controller.id

/-- Nothing that is in the registry is given up. An identifier that is taken is refused and nothing
changes; one that is free is entered and nothing else changes. Nothing is made on demand where there
is a controller. Whatever is asked for later, a controller stays under its name and makes its own
moves. -/
structure Guarded (registry : Registry R) : Prop where
  sorted : registry.ids.Pairwise (· < ·)
  taken : ∀ controller, controller.id ∈ registry.ids →
    registry.register controller =
        .error (.invalidConfig s!"controller `{controller.id}` already registered") ∧
      registry.perform (.register controller) = registry
  free : ∀ controller, controller.id ∉ registry.ids →
    ∃ registered, registry.register controller = .ok registered ∧
      ∀ name, registered.get? name =
        if name = controller.id then some controller else registry.get? name
  present : ∀ name make controller, registry.get? name = some controller →
    registry.getOrInsertWith name make = (registry, controller)
  absent : ∀ name make, name ∉ registry.ids →
    (registry.getOrInsertWith name make).2 = make () ∧
      ∀ other, (registry.getOrInsertWith name make).1.get? other =
        if other = name then some (make ()) else registry.get? other
  kept : ∀ name controller later, registry.get? name = some controller →
    (registry.run later).get? name = some (controller.run (later.flatMap (·.movesOf name)))

/-- Snapshots are in the order of the controllers. -/
theorem map_id_snapshots (registry : Registry R) (source : String → Source) (now : Nat) :
    (registry.snapshots source now).2.map (·.id) = registry.toList.map (·.id) := by
  simp only [snapshots, visit, NameMap.values, NameMap.mapEntries, toList, List.map_map]
  refine List.map_congr_left fun entry _ ↦ ?_
  exact entry.2.id_perform ⟨.refresh, source entry.1, now⟩

omit [Scalar R] in
theorem ids_eq_map_id
    (hown : ∀ name controller, registry.get? name = some controller → controller.id = name) :
    registry.ids = registry.toList.map (·.id) := by
  rw [ids, NameMap.keys, toList, NameMap.values, List.map_map]
  refine List.map_congr_left fun entry hentry ↦ ?_
  exact (hown entry.1 entry.2 (NameMap.get?_eq_some_iff.mpr hentry)).symm

theorem Orderly.of_own
    (hown : ∀ name controller, registry.get? name = some controller → controller.id = name) :
    registry.Orderly := by
  have hids := ids_eq_map_id hown
  constructor
  case own => exact hown
  case ids => exact hids
  case sorted => exact hids ▸ registry.controllers.pairwise_keys
  case shown => exact fun source now ↦ (registry.map_id_snapshots source now).trans hids.symm
  case found =>
    intro controller hmem
    obtain ⟨name, hname⟩ := mem_toList_iff.mp hmem
    rw [hown name controller hname, hname]
  case refused =>
    intro controller
    rw [← List.mem_map, ← hids]
    constructor
    · rintro ⟨error, herror⟩
      by_contra hfree
      rw [register_of_not_mem hfree] at herror
      cases herror
    · exact fun hmem ↦ ⟨_, register_of_mem hmem⟩

theorem guarded (registry : Registry R) : registry.Guarded where
  sorted := registry.controllers.pairwise_keys
  taken := fun controller hmem ↦ ⟨register_of_mem hmem, perform_register_of_mem hmem⟩
  free := fun controller hfree ↦
    ⟨_, register_of_not_mem hfree, fun name ↦ get?_put registry controller.id name controller⟩
  present := fun name make controller hname ↦ getOrInsertWith_of_some make hname
  absent := by
    intro name make hfree
    rw [getOrInsertWith_of_none make (not_mem_ids_iff.mp hfree)]
    exact ⟨rfl, fun other ↦ get?_put registry name other (make ())⟩
  kept := fun name controller later hname ↦ get?_run_of_some hname later

/-- A registry that is orderly stays so if and only if nothing goes astray. -/
theorem Orderly.run_iff (h : registry.Orderly) (calls : List (Call R)) :
    (registry.run calls).Orderly ↔ registry.strays calls = [] := by
  constructor
  · intro hlast
    refine List.eq_nil_iff_forall_not_mem.mpr fun name hmem ↦ ?_
    obtain ⟨-, controller, hname, hother⟩ := (mem_strays_iff calls).mp hmem
    exact hother (hlast.own name controller hname)
  · intro hnone
    refine .of_own fun name controller hname ↦ ?_
    cases hbefore : registry.get? name with
    | some stored =>
      -- No move changes an identifier.
      rw [get?_run_of_some hbefore] at hname
      cases hname
      exact (stored.id_run _).trans (h.own name stored hbefore)
    | none =>
      by_contra hother
      have hmem := (mem_strays_iff calls).mpr ⟨hbefore, controller, hname, hother⟩
      exact List.not_mem_nil (hnone ▸ hmem)

omit [Scalar R] in
theorem get?_empty (name : String) : ({} : Registry R).get? name = none := rfl

theorem orderly_empty : ({} : Registry R).Orderly := by
  refine .of_own fun name controller hname ↦ ?_
  rw [get?_empty] at hname
  cases hname

/-! ### Registries of configurations -/

/-- Controllers that are built in turn are registered one after the other. -/
theorem run_of_buildAll {timings : Timings} {source : Source} {now : Nat} {ids : List String}
    {built : Registry R} (h : buildAll timings source now ids registry = .ok built) :
    registry.run ((ids.map fun id ↦ .build id timings source now).map .register) = built := by
  induction ids generalizing registry with
  | nil => exact Except.ok.inj h
  | cons id ids ih =>
    rw [buildAll] at h
    split at h
    · cases h
    · next registered hregister =>
      have hperform : registry.perform (.register (.build id timings source now)) = registered := by
        rw [perform, hregister]
      rw [List.map_cons, List.map_cons, run, List.foldl_cons, hperform]
      exact ih h

theorem strays_register (registry : Registry R) (controllers : List (Controller R)) :
    registry.strays (controllers.map .register) = [] := by
  induction controllers generalizing registry with
  | nil => rfl
  | cons controller controllers ih => exact ih _

/-- A registry that was built for a configuration is orderly. -/
theorem orderly_of_ofConfig {config : AdmissionConfig} {now : Nat} {store : ConfigStore}
    (h : ofConfig config now = .ok (registry, store)) : registry.Orderly := by
  rw [ofConfig] at h
  split at h
  · cases h
  · dsimp only at h
    split at h
    · cases h
    · next built hbuilt =>
      cases h
      rw [← run_of_buildAll hbuilt, orderly_empty.run_iff]
      exact strays_register _ _

/-! ### Runs of calls -/

/-- Whatever is asked of a registry that was empty, nothing that came into it is given up. The names
whose controllers are called something else are those for which a controller was made on demand with
another identifier, and the registry is orderly if and only if there are none. -/
theorem keeps_to_ids (calls : List (Call R)) :
    ((run {} calls : Registry R).Orderly ↔ strays ({} : Registry R) calls = []) ∧
      (∀ name, name ∈ strays ({} : Registry R) calls ↔
        ∃ controller, (run {} calls).get? name = some controller ∧ controller.id ≠ name) ∧
      (run {} calls : Registry R).Guarded := by
  refine ⟨orderly_empty.run_iff calls, fun name ↦ ?_, guarded _⟩
  rw [mem_strays_iff]
  exact and_iff_right (get?_empty name)

/-- In this run a controller is made for a name and asked for again with a maker that would give it
another identifier, its identifier is refused to another controller, and all are swept. -/
theorem keeps_to_ids_asked_twice :
    ∃ (source : Source) (calls : List (Call Rat)),
      strays {} calls = [] ∧ (run {} calls).Orderly ∧ (run {} calls).Guarded ∧
      (run {} calls).ids = ["jobs", "web"] ∧
      ((run {} calls).snapshots (fun _ ↦ source) 9).2.map (·.id) = ["jobs", "web"] := by
  let source : Source := ⟨fun _ ↦ ⟨1, {}⟩, fun _ _ ↦ none⟩
  let calls : List (Call Rat) :=
    [.register (.build "web" {} source 0),
      .getOrInsertWith "jobs" fun _ ↦ .build "jobs" {} source 0,
      .act "jobs" ⟨.request "a", source, 1⟩,
      .getOrInsertWith "jobs" fun _ ↦ .build "other" {} source 2,
      .register (.build "jobs" {} source 3),
      .reconcileAll (fun _ ↦ source) 4]
  obtain ⟨horderly, -, hguarded⟩ := keeps_to_ids calls
  have hnone : strays {} calls = [] := by decide +kernel
  have hids : (run {} calls).ids = ["jobs", "web"] := by decide +kernel
  have hlast := horderly.mpr hnone
  exact ⟨source, calls, hnone, hlast, hguarded, hids, (hlast.shown _ _).trans hids⟩

/-- A controller that is made for a name with another identifier stands under the name all the same.
Its identifier is then free to be registered again, and the controllers are neither in order of
their identifiers nor told apart by them. -/
theorem files_by_name_asked :
    ∃ (source : Source) (calls : List (Call Rat)) (made : Controller Rat),
      made.id = "a" ∧ made ∈ (run {} calls).toList ∧
      (run {} calls).ids = ["m", "z"] ∧ (run {} calls).toList.map (·.id) = ["m", "a"] ∧
      ((run {} calls).snapshots (fun _ ↦ source) 0).2.map (·.id) = ["m", "a"] ∧
      ((run {} calls).register made).toOption.isSome = true ∧
      ((run {} calls).perform (.register made)).toList.map (·.id) = ["a", "m", "a"] ∧
      ¬(run {} calls).Orderly := by
  let source : Source := ⟨fun _ ↦ ⟨1, {}⟩, fun _ _ ↦ none⟩
  let made : Controller Rat := .build "a" {} source 0
  let calls : List (Call Rat) :=
    [.register (.build "m" {} source 0), .getOrInsertWith "z" fun _ ↦ made]
  have hids : (run {} calls).toList.map (·.id) = ["m", "a"] := by decide +kernel
  have hmade : (run {} calls).get? "z" = some made :=
    get?_perform_of_none (by decide +kernel) (.getOrInsertWith "z" fun _ ↦ made)
  refine ⟨source, calls, made, rfl, mem_toList_iff.mpr ⟨"z", hmade⟩, by decide +kernel, hids,
    (map_id_snapshots _ _ _).trans hids, by decide +kernel, by decide +kernel, fun horderly ↦ ?_⟩
  have hsorted := horderly.sorted
  rw [hids] at hsorted
  exact absurd hsorted (by decide)

end Registry

end Admission
