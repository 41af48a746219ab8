import Admission.Json.Record
import Admission.Proofs.Writing
import Mathlib.Data.List.Nodup
import Mathlib.Data.List.Pairwise

/-!
# The order of the members makes no difference

A map is written in whatever order it is kept, so one value has many texts. `Json.Reordered` relates
values that differ only in the order of the members of their objects, no name repeated. What a
reader makes of such a value is the same (`Respects`): maps and records are filled in member by
member, and two members of different names can be exchanged, since they go to different entries
(`NameMap.insert_comm`) or to fields that do not touch each other (`Field.Commutes`).
-/

set_option autoImplicit false
set_option relaxedAutoImplicit false

namespace Admission

namespace NameMap

variable {α : Type}

theorem insert_comm (map : NameMap α) {name other : String} (h : name ≠ other)
    (value another : α) :
    (map.insert name value).insert other another =
      (map.insert other another).insert name value := by
  refine ext_get? fun wanted ↦ ?_
  rw [get?_insert, get?_insert, get?_insert, get?_insert]
  by_cases hname : wanted = name
  · subst hname
    rw [if_neg h, if_pos rfl, if_pos rfl]
  · rw [if_neg hname, if_neg hname]

end NameMap

namespace Json

/-- The same value with the members of its objects in another order, none of them named twice.
Since the names are different, what becomes of a member can be given by its name. -/
inductive Reordered : Json → Json → Prop
  | refl (json : Json) : Reordered json json
  | object {members others : List (String × Json)} (become : String → Json)
      (hnames : (members.map (·.1)).Nodup)
      (h : ∀ member ∈ members, Reordered member.2 (become member.1))
      (hperm : others.Perm (members.map fun member ↦ (member.1, become member.1))) :
    Reordered (.ofMembers members) (.ofMembers others)

variable {α β : Type} {json other : Json} {members others : List (String × Json)}

theorem ofMembers_inj : ofMembers members = ofMembers others ↔ members = others := by
  constructor
  · intro h
    have hnamed : named members = named others := Json.object.inj h
    refine List.map_injective_iff.mpr (fun member another hsame ↦ ?_) hnamed
    simp only [Prod.mk.injEq, Option.some.injEq] at hsame
    exact Prod.ext hsame.1 hsame.2
  · exact congrArg ofMembers

theorem plain_ofMembers_iff : Plain (.ofMembers members) ↔ ∀ member ∈ members, Plain member.2 := by
  constructor
  · intro h
    generalize hjson : Json.ofMembers members = json at h
    cases h with
    | object h => exact ofMembers_inj.mp hjson ▸ h
    | null | bool | number | text | array => cases hjson
  · exact .object

/-- A value in another order is as plain. -/
theorem Plain.reordered (hplain : Plain json) (h : Reordered json other) : Plain other := by
  induction h with
  | refl => exact hplain
  | object become _ _ hperm ih =>
    refine .object fun member hmem ↦ ?_
    obtain ⟨before, hbefore, rfl⟩ := List.mem_map.mp (hperm.mem_iff.mp hmem)
    exact ih before hbefore (plain_ofMembers_iff.mp hplain before hbefore)

/-! ### Readers that do not look at the order -/

/-- A reader makes the same of a value in whatever order its members are. -/
def Respects (read : Json → Option α) : Prop :=
  ∀ {json other : Json}, Reordered json other → read other = read json

/-- A reader of anything but objects. -/
theorem respects_of_object {read : Json → Option α}
    (h : ∀ members, read (.object members) = none) : Respects read := by
  intro json other hreordered
  cases hreordered with
  | refl => rfl
  | object => exact (h _).trans (h _).symm

theorem respects_nat? (bound : Nat) : Respects (nat? bound) := respects_of_object fun _ ↦ rfl

theorem respects_bool? : Respects bool? := respects_of_object fun _ ↦ rfl

theorem respects_string? : Respects string? := respects_of_object fun _ ↦ rfl

theorem respects_list? (read : Json → Option α) : Respects (list? read) :=
  respects_of_object fun _ ↦ rfl

theorem Respects.optional? {read : Json → Option α} (h : Respects read) :
    Respects (optional? read) := by
  intro json other hreordered
  have hread := h hreordered
  cases hreordered with
  | refl => rfl
  | object => exact congrArg (Option.map some) hread

/-- A fold over the members that reads nothing but their values respects a change of the values that
the readers respect, and a change of their order if members of different names can be exchanged. -/
theorem foldl_reordered {step : Option β → String × Json → Option β} {become : String → Json}
    (hnames : (members.map (·.1)).Nodup)
    (hperm : others.Perm (members.map fun member ↦ (member.1, become member.1)))
    (hvalue : ∀ member ∈ members, ∀ found,
      step found (member.1, become member.1) = step found member)
    (hcomm : ∀ first second : String × Json, first.1 ≠ second.1 → ∀ found,
      step (step found first) second = step (step found second) first)
    (start : Option β) : others.foldl step start = members.foldl step start := by
  have hothers : (others.map (·.1)).Nodup := by
    refine (hperm.map (·.1)).nodup_iff.mpr ?_
    rw [List.map_map]
    exact hnames
  have hexchange : ∀ first ∈ others, ∀ second ∈ others, ∀ found,
      step (step found first) second = step (step found second) first := by
    intro first hfirst second hsecond found
    by_cases hsame : first = second
    · rw [hsame]
    · exact hcomm first second
        (fun hname ↦ hsame (List.inj_on_of_nodup_map hothers hfirst hsecond hname)) found
  rw [hperm.foldl_eq' hexchange, List.foldl_map]
  exact List.foldl_ext _ _ _ fun found member hmem ↦ hvalue member hmem found

/-! ### Maps -/

/-- Reads a member into a map. -/
def insertInto (read : Json → Option α) (found : Option (NameMap α)) (member : String × Json) :
    Option (NameMap α) :=
  found.bind fun map ↦ (read member.2).map (map.insert member.1)

theorem foldl_insertInto_none (read : Json → Option α) (members : List (String × Json)) :
    members.foldl (insertInto read) none = none := by
  induction members with
  | nil => rfl
  | cons member members ih => exact ih

theorem insertMembers?_eq_foldl (read : Json → Option α) (members : List (String × Json))
    (map : NameMap α) :
    insertMembers? read (named members) map = members.foldl (insertInto read) (some map) := by
  induction members generalizing map with
  | nil => rfl
  | cons member members ih =>
    change ((read member.2).bind fun value ↦
      insertMembers? read (named members) (map.insert member.1 value)) = _
    rw [List.foldl_cons, insertInto, Option.bind_some]
    cases read member.2 with
    | none => exact (foldl_insertInto_none read members).symm
    | some value => exact ih _

theorem insertInto_comm (read : Json → Option α) {first second : String × Json}
    (h : first.1 ≠ second.1) (found : Option (NameMap α)) :
    insertInto read (insertInto read found first) second =
      insertInto read (insertInto read found second) first := by
  cases found with
  | none => rfl
  | some map =>
    cases hfirst : read first.2 <;> cases hsecond : read second.2 <;>
      simp [insertInto, hfirst, hsecond, NameMap.insert_comm map h]

theorem Respects.nameMap? {read : Json → Option α} (h : Respects read) :
    Respects (nameMap? read) := by
  intro json other hreordered
  cases hreordered with
  | refl => rfl
  | object become hnames hvalues hperm =>
    refine (insertMembers?_eq_foldl read _ _).trans (.trans ?_
      (insertMembers?_eq_foldl read _ _).symm)
    refine foldl_reordered hnames hperm (fun member hmem found ↦ ?_)
      (fun first second hne ↦ insertInto_comm read hne) _
    rw [insertInto, h (hvalues member hmem), insertInto]

/-! ### Records -/

/-- Fields that can be overwritten in either order. -/
def Field.Commutes (first second : Field α) : Prop :=
  ∀ (value another : Json) (record : α),
    (first.set? value record).bind (second.set? another) =
      (second.set? another record).bind (first.set? value)

instance : Std.Symm (Field.Commutes (α := α)) where
  symm _ _ h := fun value another record ↦ (h another value record).symm

/-- A field makes the same of a value in whatever order its members are. -/
def Field.Respects (field : Field α) : Prop :=
  ∀ record : α, Json.Respects fun value ↦ field.set? value record

theorem Field.commutes_of {γ : Type} {name name' : String} {read : Json → Option β}
    {read' : Json → Option γ} {store : β → α → α} {store' : γ → α → α}
    (h : ∀ value another record,
      store' another (store value record) = store value (store' another record)) :
    (Field.of name read store).Commutes (Field.of name' read' store') := by
  intro value another record
  simp only [Field.of]
  cases read value <;> cases read' another <;> simp [h]

theorem Field.respects_of {name : String} {read : Json → Option β} {store : β → α → α}
    (h : Json.Respects read) : (Field.of name read store).Respects := by
  intro record json other hreordered
  exact congrArg (Option.map fun value ↦ store value record) (h hreordered)

variable {fields : List (Field α)}

/-- Reads a member into a record. -/
def overwrite (fields : List (Field α)) (found : Option α) (member : String × Json) : Option α :=
  found.bind fun record ↦
    match fields.find? fun field ↦ field.name = member.1 with
    | none => some record
    | some field => field.set? member.2 record

/-- The names of the members that are fields. -/
def fieldNames (fields : List (Field α)) (members : List (String × Json)) : List String :=
  (members.map (·.1)).filter fun name ↦ (fields.find? fun field ↦ field.name = name).isSome

theorem foldl_overwrite_none (fields : List (Field α)) (members : List (String × Json)) :
    members.foldl (overwrite fields) none = none := by
  induction members with
  | nil => rfl
  | cons member members ih => exact ih

theorem setMembers?_cons_of_none {member : String × Json} (members : List (String × Json))
    (hfind : (fields.find? fun field ↦ field.name = member.1) = none) (given : List String)
    (record : α) :
    setMembers? fields (named (member :: members)) given record =
      setMembers? fields (named members) given record := by
  rw [named, List.map_cons, setMembers?, hfind]
  rfl

theorem setMembers?_cons_of_some {member : String × Json} (members : List (String × Json))
    {field : Field α} (hfind : (fields.find? fun field ↦ field.name = member.1) = some field)
    (given : List String) (record : α) :
    setMembers? fields (named (member :: members)) given record =
      if member.1 ∈ given then none
      else (field.set? member.2 record).bind
        (setMembers? fields (named members) (member.1 :: given)) := by
  rw [named, List.map_cons, setMembers?, hfind]
  rfl

/-- Without repetitions a record is filled in member by member, and the fields that are members are
noted. -/
theorem setMembers?_eq_foldl (hnames : (members.map (·.1)).Nodup) (given : List String)
    (hgiven : ∀ member ∈ members, member.1 ∉ given) (record : α) :
    setMembers? fields (named members) given record =
      (members.foldl (overwrite fields) (some record)).map fun record ↦
        (record, (fieldNames fields members).reverse ++ given) := by
  induction members generalizing given record with
  | nil => rfl
  | cons member members ih =>
    obtain ⟨hfirst, hrest⟩ := List.nodup_cons.mp hnames
    obtain ⟨hnew, hothers⟩ := List.forall_mem_cons.mp hgiven
    rw [List.foldl_cons, fieldNames, List.map_cons, List.filter_cons, overwrite, Option.bind_some]
    cases hfield : fields.find? fun field ↦ field.name = member.1 with
    | none =>
      rw [setMembers?_cons_of_none members hfield]
      exact ih hrest given hothers record
    | some field =>
      rw [setMembers?_cons_of_some members hfield]
      have hless : ∀ other ∈ members, other.1 ∉ member.1 :: given := by
        intro other hmem hin
        rcases List.mem_cons.mp hin with hsame | hin
        · exact hfirst (List.mem_map.mpr ⟨other, hmem, hsame⟩)
        · exact hothers other hmem hin
      simp only [if_neg hnew, Option.isSome_some, if_true, List.reverse_cons, List.append_assoc,
        List.singleton_append]
      cases field.set? member.2 record with
      | none => rw [foldl_overwrite_none]; rfl
      | some next => exact ih hrest _ hless next

theorem overwrite_comm (hcommute : fields.Pairwise Field.Commutes) {first second : String × Json}
    (h : first.1 ≠ second.1) (found : Option α) :
    overwrite fields (overwrite fields found first) second =
      overwrite fields (overwrite fields found second) first := by
  cases found with
  | none => rfl
  | some record =>
    cases hfirst : fields.find? fun field ↦ field.name = first.1 with
    | none => simp [overwrite, hfirst]
    | some field =>
      cases hsecond : fields.find? fun field ↦ field.name = second.1 with
      | none => simp [overwrite, hsecond]
      | some other =>
        have hne : field ≠ other := by
          rintro rfl
          have hname := List.find?_some hfirst
          have hother := List.find?_some hsecond
          rw [decide_eq_true_eq] at hname hother
          exact h (hname.symm.trans hother)
        simp only [overwrite, hfirst, hsecond, Option.bind_some]
        exact hcommute.forall (List.mem_of_find?_eq_some hfirst)
          (List.mem_of_find?_eq_some hsecond) hne first.2 second.2 record

/-- The fields that are read do not depend on the order of the members. -/
theorem fields?_reordered (hcommute : fields.Pairwise Field.Commutes)
    (hfields : ∀ field ∈ fields, field.Respects) (start : α) (h : Reordered json other) :
    ∃ (found : Option α) (given given' : List String), given.Perm given' ∧
      fields? fields start json = found.map (·, given) ∧
      fields? fields start other = found.map (·, given') := by
  cases h with
  | refl =>
    cases hread : fields? fields start json with
    | none => exact ⟨none, [], [], .refl _, rfl, rfl⟩
    | some read => exact ⟨some read.1, read.2, read.2, .refl _, rfl, rfl⟩
  | @object members others become hnames hvalues hperm =>
    have hothers : (others.map (·.1)).Perm (members.map (·.1)) := by
      have hmap := hperm.map (·.1)
      rw [List.map_map] at hmap
      exact hmap
    have hsame : others.foldl (overwrite fields) (some start) =
        members.foldl (overwrite fields) (some start) := by
      refine foldl_reordered hnames hperm (fun member hmem found ↦ ?_)
        (fun first second hne ↦ overwrite_comm hcommute hne) _
      cases found with
      | none => rfl
      | some record =>
        simp only [overwrite, Option.bind_some]
        cases hfield : fields.find? fun field ↦ field.name = member.1 with
        | none => rfl
        | some field =>
          exact hfields field (List.mem_of_find?_eq_some hfield) record (hvalues member hmem)
    refine ⟨members.foldl (overwrite fields) (some start),
      (fieldNames fields members).reverse ++ [], (fieldNames fields others).reverse ++ [], ?_,
      setMembers?_eq_foldl hnames [] (fun _ _ ↦ List.not_mem_nil) start, ?_⟩
    · refine List.Perm.append_right _ ?_
      exact (List.reverse_perm _).trans ((hothers.filter _).symm.trans (List.reverse_perm _).symm)
    · rw [← hsame]
      exact setMembers?_eq_foldl (hothers.nodup_iff.mpr hnames) [] (fun _ _ ↦ List.not_mem_nil)
        start

theorem respects_record? (hcommute : fields.Pairwise Field.Commutes)
    (hfields : ∀ field ∈ fields, field.Respects) (start : α) : Respects (record? fields start) := by
  intro json other h
  obtain ⟨found, given, given', -, hread, hother⟩ := fields?_reordered hcommute hfields start h
  rw [record?, record?, hread, hother, Option.map_map, Option.map_map]
  rfl

theorem respects_wholeRecord? (hcommute : fields.Pairwise Field.Commutes)
    (hfields : ∀ field ∈ fields, field.Respects) (start : α) :
    Respects (wholeRecord? fields start) := by
  intro json other h
  obtain ⟨found, given, given', hperm, hread, hother⟩ :=
    fields?_reordered hcommute hfields start h
  have hall : (fields.all fun field ↦ field.name ∈ given') =
      fields.all fun field ↦ field.name ∈ given := by
    simp only [hperm.mem_iff]
  rw [wholeRecord?, wholeRecord?, hread, hother]
  cases found with
  | none => rfl
  | some record =>
    simp only [Option.map_some, Option.bind_some, hall]

end Json

end Admission
