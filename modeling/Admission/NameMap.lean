/-!
# Maps from names to values

Controllers, weight overrides and registered controllers are kept under names. A `NameMap` lists
its entries in increasing order of name, so equal maps are equal lists: `ext_get?` says that two
maps which answer every look-up alike are the same map.

Main statements: `get?_insert` and `get?_erase` say what the two updates change, and
`mem_keys_iff` that the names listed are those with a value.
-/

set_option autoImplicit false
set_option relaxedAutoImplicit false

namespace Admission

/-- Values under names, in increasing order of name. -/
structure NameMap (α : Type) where
  entries : List (String × α)
  sorted : entries.Pairwise fun first second ↦ first.1 < second.1

namespace NameMap

variable {α β : Type}

instance [DecidableEq α] : DecidableEq (NameMap α) := fun first second ↦
  decidable_of_iff (first.entries = second.entries)
    ⟨fun h ↦ by cases first; cases second; simp_all, fun h ↦ h ▸ rfl⟩

/-- The map without entries. -/
def empty : NameMap α := ⟨[], .nil⟩

instance : Inhabited (NameMap α) := ⟨empty⟩

/-! ### The underlying lists -/

/-- Puts a value under a name, in place of the value that was there. -/
def insertEntry (name : String) (value : α) : List (String × α) → List (String × α)
  | [] => [(name, value)]
  | (other, kept) :: rest =>
    if name < other then (name, value) :: (other, kept) :: rest
    else if name = other then (name, value) :: rest
    else (other, kept) :: insertEntry name value rest

/-- The value listed under a name. -/
def findEntry (name : String) : List (String × α) → Option α
  | [] => none
  | (other, value) :: rest => if name = other then some value else findEntry name rest

theorem mem_insertEntry {name : String} {value : α} {entry : String × α}
    {entries : List (String × α)} (h : entry ∈ insertEntry name value entries) :
    entry = (name, value) ∨ entry ∈ entries := by
  induction entries with
  | nil => simpa [insertEntry] using h
  | cons head rest ih => grind [insertEntry]

private theorem lt_of_not_lt_of_ne {first second : String} (hlt : ¬first < second)
    (hne : first ≠ second) : second < first := by
  refine String.not_le.1 fun hle ↦ hne (String.le_antisymm hle ?_)
  exact Decidable.byContradiction fun hnle ↦ hlt (String.not_le.1 hnle)

theorem pairwise_insertEntry (name : String) (value : α) {entries : List (String × α)}
    (h : entries.Pairwise fun first second ↦ first.1 < second.1) :
    (insertEntry name value entries).Pairwise fun first second ↦ first.1 < second.1 := by
  induction entries with
  | nil => simp [insertEntry]
  | cons head rest ih =>
    obtain ⟨other, kept⟩ := head
    obtain ⟨hhead, hrest⟩ := List.pairwise_cons.1 h
    rw [insertEntry]
    split
    · next hlt =>
      refine List.pairwise_cons.2 ⟨fun entry hentry ↦ ?_, h⟩
      rcases List.mem_cons.1 hentry with rfl | hmem
      · exact hlt
      · exact String.lt_trans hlt (hhead entry hmem)
    · next hlt =>
      split
      · next heq => subst heq; exact List.pairwise_cons.2 ⟨hhead, hrest⟩
      · next hne =>
        refine List.pairwise_cons.2 ⟨fun entry hentry ↦ ?_, ih hrest⟩
        rcases mem_insertEntry hentry with rfl | hmem
        · exact lt_of_not_lt_of_ne hlt hne
        · exact hhead entry hmem

theorem findEntry_insertEntry (name other : String) (value : α) (entries : List (String × α)) :
    findEntry other (insertEntry name value entries) =
      if other = name then some value else findEntry other entries := by
  induction entries with
  | nil => simp [insertEntry, findEntry]
  | cons head rest ih =>
    obtain ⟨key, kept⟩ := head
    rw [insertEntry]
    split
    · rfl
    · split
      · next heq => subst heq; by_cases hother : other = name <;> simp [findEntry, hother]
      · next hne =>
        by_cases hkey : other = key
        · subst hkey; simp [findEntry, Ne.symm hne]
        · simp [findEntry, hkey, ih]

theorem findEntry_eq_some_iff {name : String} {value : α} {entries : List (String × α)}
    (h : entries.Pairwise fun first second ↦ first.1 < second.1) :
    findEntry name entries = some value ↔ (name, value) ∈ entries := by
  induction entries with
  | nil => simp [findEntry]
  | cons head rest ih =>
    obtain ⟨key, kept⟩ := head
    obtain ⟨hhead, hrest⟩ := List.pairwise_cons.1 h
    rw [findEntry]
    split
    · next heq =>
      subst heq
      constructor
      · intro hvalue; cases hvalue; exact List.mem_cons_self
      · intro hmem
        rcases List.mem_cons.1 hmem with heq | hmem
        · cases heq; rfl
        · exact absurd (hhead _ hmem) (String.lt_irrefl _)
    · next hne =>
      rw [ih hrest, List.mem_cons]
      constructor
      · exact .inr
      · rintro (heq | hmem)
        · cases heq; exact absurd rfl hne
        · exact hmem

/-! ### The map -/

/-- The value under a name. -/
def get? (map : NameMap α) (name : String) : Option α := findEntry name map.entries

/-- Whether a name has a value. -/
def contains (map : NameMap α) (name : String) : Bool := (map.get? name).isSome

/-- Puts a value under a name. -/
def insert (map : NameMap α) (name : String) (value : α) : NameMap α :=
  ⟨insertEntry name value map.entries, pairwise_insertEntry name value map.sorted⟩

/-- Takes a name out of the map. -/
def erase (map : NameMap α) (name : String) : NameMap α :=
  ⟨map.entries.filter fun entry ↦ entry.1 ≠ name, map.sorted.filter _⟩

/-- Applies a function to every value. -/
def mapValues (f : α → β) (map : NameMap α) : NameMap β :=
  ⟨map.entries.map fun entry ↦ (entry.1, f entry.2), map.sorted.map _ fun _ _ h ↦ h⟩

/-- Applies a function to every name and value. -/
def mapEntries (f : String → α → β) (map : NameMap α) : NameMap β :=
  ⟨map.entries.map fun entry ↦ (entry.1, f entry.1 entry.2), map.sorted.map _ fun _ _ h ↦ h⟩

/-- The names, in increasing order. -/
def keys (map : NameMap α) : List String := map.entries.map Prod.fst

/-- The values, in increasing order of their names. -/
def values (map : NameMap α) : List α := map.entries.map Prod.snd

/-- The number of names. -/
def size (map : NameMap α) : Nat := map.entries.length

@[simp] theorem get?_empty (name : String) : (empty : NameMap α).get? name = none := rfl

theorem get?_insert (map : NameMap α) (name other : String) (value : α) :
    (map.insert name value).get? other = if other = name then some value else map.get? other :=
  findEntry_insertEntry name other value map.entries

@[simp] theorem get?_insert_self (map : NameMap α) (name : String) (value : α) :
    (map.insert name value).get? name = some value := by
  simp [get?_insert]

theorem get?_eq_some_iff {map : NameMap α} {name : String} {value : α} :
    map.get? name = some value ↔ (name, value) ∈ map.entries :=
  findEntry_eq_some_iff map.sorted

theorem get?_erase (map : NameMap α) (name other : String) :
    (map.erase name).get? other = if other = name then none else map.get? other := by
  refine Option.ext fun value ↦ ?_
  rw [get?_eq_some_iff]
  by_cases h : other = name <;> simp [erase, h, get?_eq_some_iff]

theorem get?_mapEntries (f : String → α → β) (map : NameMap α) (name : String) :
    (map.mapEntries f).get? name = (map.get? name).map (f name) := by
  refine Option.ext fun value ↦ ?_
  rw [get?_eq_some_iff, Option.map_eq_some_iff]
  simp only [mapEntries, List.mem_map, Prod.mk.injEq, Prod.exists, get?_eq_some_iff]
  constructor
  · rintro ⟨_, kept, hmem, rfl, rfl⟩
    exact ⟨kept, hmem, rfl⟩
  · rintro ⟨kept, hmem, rfl⟩
    exact ⟨name, kept, hmem, rfl, rfl⟩

theorem mem_keys_iff {map : NameMap α} {name : String} :
    name ∈ map.keys ↔ ∃ value, map.get? name = some value := by
  simp [keys, get?_eq_some_iff]

theorem pairwise_keys (map : NameMap α) : map.keys.Pairwise (· < ·) :=
  List.pairwise_map.2 map.sorted

theorem nodup_keys (map : NameMap α) : map.keys.Nodup :=
  List.Pairwise.imp (fun h heq ↦ by subst heq; exact String.lt_irrefl _ h) map.pairwise_keys

/-- The first entry of one list of increasing names heads any other list with the same entries. -/
private theorem entries_eq_of_mem_iff : ∀ {first second : List (String × α)},
    (first.Pairwise fun entry next ↦ entry.1 < next.1) →
    (second.Pairwise fun entry next ↦ entry.1 < next.1) →
    (∀ entry, entry ∈ first ↔ entry ∈ second) → first = second
  | [], [], _, _, _ => rfl
  | [], head :: _, _, _, h => absurd ((h head).2 List.mem_cons_self) List.not_mem_nil
  | head :: _, [], _, _, h => absurd ((h head).1 List.mem_cons_self) List.not_mem_nil
  | head :: rest, other :: others, hfirst, hsecond, h => by
    obtain ⟨hhead, hrest⟩ := List.pairwise_cons.1 hfirst
    obtain ⟨hother, hothers⟩ := List.pairwise_cons.1 hsecond
    have heq : head = other := by
      rcases List.mem_cons.1 ((h head).1 List.mem_cons_self) with heq | hmem
      · exact heq
      · rcases List.mem_cons.1 ((h other).2 List.mem_cons_self) with heq | hmem'
        · exact heq.symm
        · exact absurd (hother _ hmem) (String.lt_asymm (hhead _ hmem'))
    subst heq
    refine congrArg (head :: ·) (entries_eq_of_mem_iff hrest hothers fun entry ↦ ?_)
    constructor
    · intro hmem
      rcases List.mem_cons.1 ((h entry).1 (List.mem_cons_of_mem _ hmem)) with rfl | hin
      · exact absurd (hhead _ hmem) (String.lt_irrefl _)
      · exact hin
    · intro hmem
      rcases List.mem_cons.1 ((h entry).2 (List.mem_cons_of_mem _ hmem)) with rfl | hin
      · exact absurd (hother _ hmem) (String.lt_irrefl _)
      · exact hin

/-- Maps that answer every look-up alike are the same map. -/
theorem ext_get? {first second : NameMap α} (h : ∀ name, first.get? name = second.get? name) :
    first = second := by
  have hentries : first.entries = second.entries :=
    entries_eq_of_mem_iff first.sorted second.sorted fun ⟨name, value⟩ ↦ by
      rw [← get?_eq_some_iff, ← get?_eq_some_iff, h name]
  cases first; cases second; simp_all

end NameMap

end Admission
