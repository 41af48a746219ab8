import Admission.Proofs.Reordering

/-!
# Records are filled in field by field

A reader goes through the members of an object in the order of the text. What it makes of them can
be said in the order of the fields instead: each field is overwritten by its member if there is one,
two are an error, and members that are no fields play no part (`record?_ofMembers`). Reading a
member can be put off until its field comes up because the fields before do not touch it
(`Field.Commutes`). A map keeps the last value under each name (`NameMap.get?_ofEntries`).

`Gives` written that members give a value for a name or nothing, and `Field.fill_of_gives` what the
field of that name is then.
-/

set_option autoImplicit false
set_option relaxedAutoImplicit false

namespace Admission

namespace NameMap

variable {α : Type}

/-- The value of the last entry with a name. -/
def lastOf (entries : List (String × α)) (name : String) : Option α :=
  (entries.reverse.find? fun entry ↦ entry.1 = name).map (·.2)

theorem lastOf_map {β : Type} (f : α → β) (entries : List (String × α)) (name : String) :
    lastOf (entries.map fun entry ↦ (entry.1, f entry.2)) name = (lastOf entries name).map f := by
  rw [lastOf, lastOf, ← List.map_reverse, List.find?_map, Option.map_map, Option.map_map]
  rfl

/-- The map of a list of entries. The last of several entries with one name stays. -/
def ofEntries (entries : List (String × α)) : NameMap α :=
  entries.foldl (fun map entry ↦ map.insert entry.1 entry.2) .empty

theorem get?_ofEntries (entries : List (String × α)) (name : String) :
    (ofEntries entries).get? name = lastOf entries name := by
  rw [ofEntries, lastOf, ← List.foldr_reverse]
  induction entries.reverse with
  | nil => rfl
  | cons entry entries ih =>
    rw [List.foldr_cons, get?_insert, ih, List.find?_cons]
    by_cases hname : entry.1 = name
    · simp [hname]
    · simp [hname, Ne.symm hname]

end NameMap

namespace Json

variable {α β γ : Type} {fields : List (Field α)} {members : List (String × Json)}

/-! ### Maps -/

/-- The values of a map are read one by one. -/
theorem nameMap?_ofMembers {read : Json → Option α} {entries : List (String × α)}
    (h : List.Forall₂ (fun entry member ↦ member.1 = entry.1 ∧ read member.2 = some entry.2)
      entries members) : nameMap? read (.ofMembers members) = some (.ofEntries entries) := by
  refine (insertMembers?_eq_foldl read members .empty).trans ?_
  rw [NameMap.ofEntries]
  generalize NameMap.empty = map
  induction h generalizing map with
  | nil => rfl
  | cons hfirst _ ih =>
    rw [List.foldl_cons, List.foldl_cons, insertInto, Option.bind_some, hfirst.1, hfirst.2]
    exact ih _

/-! ### Records -/

/-- Overwrites a field by its member, if there is one and the field was not given before. -/
def Field.fill (given : List String) (members : List (String × Json)) (record : α)
    (field : Field α) : Option α :=
  match members.filter fun member ↦ member.1 = field.name with
  | [] => some record
  | [member] => if field.name ∈ given then none else field.set? member.2 record
  | _ => none

namespace Field

variable {field other : Field α} {member : String × Json} {given : List String}

/-- A member of another name plays no part. -/
theorem fill_cons_of_ne (hne : field.name ≠ member.1) (given : List String) (record : α) :
    field.fill given (member :: members) record = field.fill given members record := by
  rw [fill, List.filter_cons_of_neg (by simpa using Ne.symm hne), fill]

theorem fill_given_of_ne {name : String} (hne : field.name ≠ name) (record : α) :
    field.fill (name :: given) members record = field.fill given members record := by
  simp only [fill, List.mem_cons, hne, false_or]

/-- A field that was given before is not given again. -/
theorem fill_cons_of_mem (hname : field.name = member.1) (hgiven : field.name ∈ given)
    (record : α) : field.fill given (member :: members) record = none := by
  rw [fill, List.filter_cons_of_pos (by simpa using hname.symm)]
  cases members.filter fun member ↦ member.1 = field.name with
  | nil => exact if_pos hgiven
  | cons => rfl

/-- The first member of a field overwrites it, and no other may. -/
theorem fill_cons_of_not_mem (hname : field.name = member.1) (hgiven : field.name ∉ given)
    (record : α) :
    field.fill given (member :: members) record =
      (field.set? member.2 record).bind (field.fill (member.1 :: given) members) := by
  have hsame : field.fill (member.1 :: given) members = fun record ↦
      if (members.filter fun member ↦ member.1 = field.name) = [] then some record else none := by
    funext record
    rw [fill]
    generalize members.filter (fun member ↦ member.1 = field.name) = own
    rcases own with _ | ⟨second, _ | ⟨third, own⟩⟩
    · rfl
    · simp [hname]
    · rfl
  rw [hsame, fill, List.filter_cons_of_pos (by simpa using hname.symm)]
  cases members.filter fun member ↦ member.1 = field.name with
  | nil => simp [hgiven]
  | cons => simp

/-- A field that is filled in does not stand in the way of another that is overwritten. -/
theorem Commutes.fill (h : field.Commutes other) (given : List String)
    (members : List (String × Json)) (value : Json) (record : α) :
    ((other.set? value record).bind fun record ↦ field.fill given members record) =
      (field.fill given members record).bind (other.set? value) := by
  unfold Field.fill
  split
  · simp
  · split
    · simp
    · exact (h _ value record).symm
  · simp

end Field

/-- Fields that are filled in do not stand in the way of another that is overwritten. -/
theorem foldlM_fill_comm {other : Field α} (h : ∀ field ∈ fields, field.Commutes other)
    (given : List String) (value : Json) (record : α) :
    (other.set? value record).bind (fields.foldlM (Field.fill given members)) =
      (fields.foldlM (Field.fill given members) record).bind (other.set? value) := by
  induction fields generalizing record with
  | nil => simp
  | cons field fields ih =>
    obtain ⟨hfirst, hrest⟩ := List.forall_mem_cons.mp h
    simp only [List.foldlM_cons, Option.bind_eq_bind]
    rw [← Option.bind_assoc, hfirst.fill, Option.bind_assoc, Option.bind_assoc]
    exact congrArg _ (funext fun next ↦ ih hrest next)

theorem foldlM_congr {step step' : β → α → Option β} {entries : List α}
    (h : ∀ entry ∈ entries, ∀ found, step found entry = step' found entry) (start : β) :
    entries.foldlM step start = entries.foldlM step' start := by
  induction entries generalizing start with
  | nil => rfl
  | cons entry entries ih =>
    obtain ⟨hfirst, hrest⟩ := List.forall_mem_cons.mp h
    rw [List.foldlM_cons, List.foldlM_cons, hfirst]
    exact bind_congr fun next ↦ ih hrest next

/-- Fields of other names do not see a member, nor that its field is given by now. -/
theorem foldlM_fill_cons {member : String × Json} (h : ∀ field ∈ fields, field.name ≠ member.1)
    (given : List String) (members : List (String × Json)) (record : α) :
    fields.foldlM (Field.fill given (member :: members)) record =
      fields.foldlM (Field.fill (member.1 :: given) members) record :=
  foldlM_congr (fun field hmem found ↦ (field.fill_cons_of_ne (h field hmem) given found).trans
    (field.fill_given_of_ne (h field hmem) found).symm) record

/-- Members overwrite a record as its fields come up. -/
theorem setMembers?_eq_foldlM (hcommute : fields.Pairwise Field.Commutes)
    (hnames : (fields.map Field.name).Nodup) (members : List (String × Json)) (given : List String)
    (record : α) :
    (setMembers? fields (named members) given record).map Prod.fst =
      fields.foldlM (Field.fill given members) record := by
  induction members generalizing given record with
  | nil =>
    have hnil : ∀ fields : List (Field α), fields.foldlM (Field.fill given []) record =
        some record := by
      intro fields
      induction fields with
      | nil => rfl
      | cons field fields ih => exact ih
    exact (hnil fields).symm
  | cons member members ih =>
    cases hfind : fields.find? fun field ↦ field.name = member.1 with
    | none =>
      rw [setMembers?_cons_of_none members hfind]
      have hnone := List.find?_eq_none.mp hfind
      refine (ih given record).trans (foldlM_congr (fun field hmem found ↦ ?_) record)
      exact (field.fill_cons_of_ne (by simpa using hnone field hmem) given found).symm
    | some field =>
      rw [setMembers?_cons_of_some members hfind]
      obtain ⟨hname, before, after, rfl, -⟩ := List.find?_eq_some_iff_append.mp hfind
      rw [decide_eq_true_eq] at hname
      have hothers : ∀ other ∈ before ++ after, other.name ≠ member.1 := by
        rw [List.map_append, List.map_cons, List.nodup_middle, List.nodup_cons,
          ← List.map_append, hname] at hnames
        exact fun other hmem hsame ↦ hnames.1 (List.mem_map.mpr ⟨other, hmem, hsame⟩)
      have hbefore : ∀ other ∈ before, other.Commutes field :=
        fun other hmem ↦ (List.pairwise_append.mp hcommute).2.2 other hmem field List.mem_cons_self
      rw [List.foldlM_append,
        foldlM_fill_cons fun other hmem ↦ hothers other (List.mem_append_left _ hmem)]
      simp only [List.foldlM_cons, Option.bind_eq_bind,
        foldlM_fill_cons fun other hmem ↦ hothers other (List.mem_append_right _ hmem)]
      by_cases hgiven : member.1 ∈ given
      · simp [field.fill_cons_of_mem hname (hname ▸ hgiven), hgiven]
      · simp only [field.fill_cons_of_not_mem hname (hname ▸ hgiven), if_neg hgiven,
          Option.map_bind, Function.comp_def, ih, List.foldlM_append, List.foldlM_cons,
          Option.bind_eq_bind]
        rw [← Option.bind_assoc, foldlM_fill_comm hbefore, Option.bind_assoc]
        simp only [Option.bind_assoc]

/-- A record is filled in field by field. -/
theorem record?_ofMembers (hcommute : fields.Pairwise Field.Commutes)
    (hnames : (fields.map Field.name).Nodup) (start : α) (members : List (String × Json)) :
    record? fields start (.ofMembers members) =
      fields.foldlM (Field.fill [] members) start :=
  setMembers?_eq_foldlM hcommute hnames members [] start

/-! ### What members give -/

/-- The members give this for a name: nothing at all, or one value, and no other under the name. -/
def Gives (written : β → Json → Prop) (members : List (String × Json)) (name : String) :
    Option β → Prop
  | none => ∀ member ∈ members, member.1 ≠ name
  | some value => ∃ json, written value json ∧
      members.filter (fun member ↦ member.1 = name) = [(name, json)]

/-- A value, however it is written, is read as what is made of it. -/
def ReadsWritten (read : Json → Option γ) (written : β → Json → Prop) (make : β → γ) : Prop :=
  ∀ value json, written value json → read json = some (make value)

/-- A field is overwritten by what is given for its name, or stays as it is. -/
theorem Field.fill_of_gives {read : Json → Option γ} {written : β → Json → Prop} {make : β → γ}
    (part : α → γ) (hread : ReadsWritten read written make) {name : String} {store : γ → α → α}
    {given : Option β} (hgives : Gives written members name given) {record : α}
    (hpart : store (part record) record = record) :
    (Field.of name read store).fill [] members record =
      some (store ((given.map make).getD (part record)) record) := by
  cases given with
  | none =>
    have hnone : members.filter (fun member ↦ member.1 = (Field.of name read store).name) = [] :=
      List.filter_eq_nil_iff.mpr fun member hmem hsame ↦
        hgives member hmem (of_decide_eq_true hsame)
    rw [fill, hnone]
    exact congrArg some hpart.symm
  | some value =>
    obtain ⟨json, hwritten, hmember⟩ := hgives
    have hone : members.filter (fun member ↦ member.1 = (Field.of name read store).name) =
        [(name, json)] := hmember
    rw [fill, hone]
    simp [Field.of, hread value json hwritten]

/-- The fields of a record are overwritten one after the other by what is given for them. -/
theorem foldlM_fill_of_gives {read : Json → Option γ} {written : β → Json → Prop} {make : β → γ}
    (part : α → γ) (hread : ReadsWritten read written make) {name : String} {store : γ → α → α}
    {given : Option β} (hgives : Gives written members name given) {record result : α}
    (hpart : store (part record) record = record)
    (hrest : fields.foldlM (Field.fill [] members)
      (store ((given.map make).getD (part record)) record) = some result) :
    (Field.of name read store :: fields).foldlM (Field.fill [] members) record = some result := by
  rw [List.foldlM_cons, Field.fill_of_gives part hread hgives hpart]
  exact hrest

/-! ### How values are written -/

/-- A number below a bound is written with its digits. -/
def WrittenNat (bound value : Nat) (json : Json) : Prop := value < bound ∧ json = .ofNat value

/-- A truth value is written as the word. -/
def WrittenBool (value : Bool) (json : Json) : Prop := json = .bool value

/-- A value that may be missing is written as null or as itself. -/
def WrittenOption (written : β → Json → Prop) : Option β → Json → Prop
  | none, json => json = .null
  | some value, json => written value json

/-- Entries of a map are written one after the other, names perhaps repeated. -/
def WrittenEntries (written : β → Json → Prop) (entries : List (String × β)) (json : Json) : Prop :=
  ∃ members, json = .ofMembers members ∧
    List.Forall₂ (fun entry member ↦ member.1 = entry.1 ∧ written entry.2 member.2) entries members

theorem readsWritten_bool? : ReadsWritten bool? WrittenBool id := by
  rintro value json rfl
  rfl

theorem ReadsWritten.optional? {read : Json → Option γ} {written : β → Json → Prop} {make : β → γ}
    (h : ReadsWritten read written make) (hnull : read .null = none) :
    ReadsWritten (optional? read) (WrittenOption written) (Option.map make) := by
  intro value json hwritten
  cases value with
  | none =>
    obtain rfl := hwritten
    rfl
  | some value =>
    have hread := h value json hwritten
    cases json with
    | null =>
      rw [hnull] at hread
      cases hread
    | bool | number | string | array | object => exact congrArg (Option.map some) hread

theorem ReadsWritten.nameMap? {read : Json → Option γ} {written : β → Json → Prop} {make : β → γ}
    (h : ReadsWritten read written make) :
    ReadsWritten (nameMap? read) (WrittenEntries written) fun entries ↦
      .ofEntries (entries.map fun entry ↦ (entry.1, make entry.2)) := by
  rintro entries json ⟨members, rfl, hmembers⟩
  refine nameMap?_ofMembers (List.forall₂_map_left_iff.mpr (hmembers.imp ?_))
  exact fun entry member hmember ↦ ⟨hmember.1, h _ _ hmember.2⟩

end Json

end Admission
