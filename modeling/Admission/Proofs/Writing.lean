import Admission.Proofs.Spelling

/-!
# What the writers write is spelled

Both ways of writing a value, on one line and with one item to a line, put blanks in the same three
places and are the same otherwise: `Lays` says so once for a writer with its blanks, and
`Lays.spells` that what it writes spells the value, whatever the blanks. So either text of a value
that has its texts and whole numbers for its numbers (`Plain`) spells it (`spells_compress`,
`spells_pretty`), which is all that the parser needs.
-/

set_option autoImplicit false
set_option relaxedAutoImplicit false

namespace Admission.Json

/-- A value with whole numbers whose texts are all there. -/
inductive Plain : Json → Prop
  | null : Plain .null
  | bool (value : Bool) : Plain (.bool value)
  | number (value : Nat) : Plain (.ofNat value)
  | text (text : String) : Plain (.ofText text)
  | array {items : List Json} (h : ∀ item ∈ items, Plain item) : Plain (.array items)
  | object {members : List (String × Json)} (h : ∀ member ∈ members, Plain member.2) :
    Plain (.ofMembers members)

variable {gap ahead rest : List Char} {piece : Piece}

theorem blanks_nil : Blanks [] := nofun

theorem blanks_lineBreak (depth : Nat) : Blanks (lineBreak depth) := by
  intro c hmem
  rcases List.mem_cons.mp hmem with rfl | hspace
  · rfl
  · rw [List.eq_of_mem_replicate hspace]
    rfl

theorem Spells.blanks (hgap : Blanks gap) (h : Spells piece ahead rest) :
    Spells piece (gap ++ ahead) rest := by
  induction gap with
  | nil => exact h
  | cons c gap ih =>
    obtain ⟨hc, hgap⟩ := List.forall_mem_cons.mp hgap
    exact .blank hc (ih hgap)

/-- Neither blanks nor a comma nor a bracket go on with a number. -/
theorem endsNumber_append (hgap : Blanks gap) (h : EndsNumber rest) : EndsNumber (gap ++ rest) := by
  cases gap with
  | nil => exact h
  | cons c gap => exact endsNumber_blank (hgap c List.mem_cons_self)

/-! ### Items and members with blanks between them -/

/-- The blanks before an item or member, before the closing bracket, and after a colon. -/
structure Gaps where
  before : List Char
  closing : List Char
  colon : List Char

/-- The gaps are blanks. -/
structure Gaps.Blank (gaps : Gaps) : Prop where
  before : Blanks gaps.before
  closing : Blanks gaps.closing
  colon : Blanks gaps.colon

/-- The items after the first and the closing bracket. -/
def listItems (gaps : Gaps) (spell : Json → List Char) : List Json → List Char
  | [] => gaps.closing ++ [']']
  | item :: items => ',' :: gaps.before ++ spell item ++ listItems gaps spell items

/-- A member. -/
def listMember (gaps : Gaps) (spell : Json → List Char) (member : Option String × Json) :
    List Char :=
  writeText (member.1.getD "") ++ ':' :: gaps.colon ++ spell member.2

/-- The members after the first and the closing brace. -/
def listMembers (gaps : Gaps) (spell : Json → List Char) :
    List (Option String × Json) → List Char
  | [] => gaps.closing ++ ['\x7d']
  | member :: members =>
    ',' :: gaps.before ++ listMember gaps spell member ++ listMembers gaps spell members

/-- What is written for a value spells it, before anything that does not go on with a number. -/
def SpelledBy (spell : Json → List Char) (json : Json) : Prop :=
  ∀ rest, EndsNumber rest → Spells (.value json) (spell json ++ rest) rest

variable {gaps : Gaps} {spell : Json → List Char}

theorem endsNumber_listItems (hgaps : gaps.Blank) (spell : Json → List Char) (items : List Json)
    (rest : List Char) : EndsNumber (listItems gaps spell items ++ rest) := by
  cases items with
  | nil =>
    rw [listItems, List.append_assoc]
    exact endsNumber_append hgaps.closing (endsNumber_cons (by decide))
  | cons => exact endsNumber_cons (by decide)

theorem endsNumber_listMembers (hgaps : gaps.Blank) (spell : Json → List Char)
    (members : List (Option String × Json)) (rest : List Char) :
    EndsNumber (listMembers gaps spell members ++ rest) := by
  cases members with
  | nil =>
    rw [listMembers, List.append_assoc]
    exact endsNumber_append hgaps.closing (endsNumber_cons (by decide))
  | cons => exact endsNumber_cons (by decide)

theorem spells_listItems (hgaps : gaps.Blank) {first : Json} {items : List Json}
    (h : ∀ item ∈ first :: items, SpelledBy spell item) (rest : List Char) :
    Spells (.items (first :: items)) (spell first ++ (listItems gaps spell items ++ rest))
      rest := by
  induction items generalizing first with
  | nil =>
    refine .lastItem (h first List.mem_cons_self _ (endsNumber_listItems hgaps spell [] rest)) ?_
    rw [listItems, List.append_assoc, skipBlanks_append hgaps.closing]
    rfl
  | cons second items ih =>
    obtain ⟨hfirst, hitems⟩ := List.forall_mem_cons.mp h
    refine .nextItem (hfirst _ (endsNumber_listItems hgaps spell (second :: items) rest)) ?_
      ((ih hitems).blanks hgaps.before)
    rw [listItems, List.append_assoc, List.append_assoc]
    rfl

theorem writeText_append (text : String) (rest : List Char) :
    writeText text ++ rest = quoted text rest := by
  simp [writeText, quoted]

/-- Members whose names are texts. -/
def named (members : List (String × Json)) : List (Option String × Json) :=
  members.map fun member ↦ (some member.1, member.2)

theorem spells_listMembers (hgaps : gaps.Blank) {first : String × Json}
    {members : List (String × Json)} (h : ∀ member ∈ first :: members, SpelledBy spell member.2)
    (rest : List Char) :
    Spells (.members (named (first :: members)))
      (listMember gaps spell (some first.1, first.2) ++
        (listMembers gaps spell (named members) ++ rest)) rest := by
  have hmember : ∀ (member : String × Json) (after : List Char),
      listMember gaps spell (some member.1, member.2) ++ after =
        quoted member.1 (':' :: (gaps.colon ++ (spell member.2 ++ after))) := by
    intro member after
    rw [← writeText_append, listMember, Option.getD_some]
    simp only [List.append_assoc, List.cons_append]
  have hcolon : ∀ after : List Char, skipBlanks (':' :: after) = ':' :: after :=
    skipBlanks_of_not rfl
  induction members generalizing first with
  | nil =>
    have hfirst := h first List.mem_cons_self _ (endsNumber_listMembers hgaps spell [] rest)
    rw [hmember]
    refine .lastMember (hcolon _) (hfirst.blanks hgaps.colon) ?_
    rw [listMembers, List.append_assoc, skipBlanks_append hgaps.closing]
    rfl
  | cons second members ih =>
    obtain ⟨hfirst, hmembers⟩ := List.forall_mem_cons.mp h
    have hnumber := endsNumber_listMembers hgaps spell (named (second :: members)) rest
    rw [hmember]
    refine .nextMember (hcolon _) ((hfirst _ hnumber).blanks hgaps.colon) ?_
      ((ih hmembers).blanks hgaps.before)
    rw [named, List.map_cons, listMembers, List.append_assoc, List.append_assoc]
    rfl

/-! ### Writers -/

/-- A writer writes words, numbers and texts plainly and puts blanks into gaps that depend on the
depth. -/
structure Lays (gaps : Nat → Gaps) (spell : Nat → Json → List Char) : Prop where
  blank : ∀ depth, (gaps depth).Blank
  null : ∀ depth, spell depth .null = "null".toList
  true : ∀ depth, spell depth (.bool true) = "true".toList
  false : ∀ depth, spell depth (.bool false) = "false".toList
  number : ∀ depth literal, spell depth (.number literal) = literal.toList
  text : ∀ depth text, spell depth (.ofText text) = writeText text
  emptyArray : ∀ depth, spell depth (.array []) = ['[', ']']
  array : ∀ depth item items, spell depth (.array (item :: items)) =
    '[' :: (gaps depth).before ++ spell (depth + 1) item ++
      listItems (gaps depth) (spell (depth + 1)) items
  emptyObject : ∀ depth, spell depth (.object []) = ['\x7b', '\x7d']
  object : ∀ depth member members, spell depth (.object (member :: members)) =
    '\x7b' :: (gaps depth).before ++ listMember (gaps depth) (spell (depth + 1)) member ++
      listMembers (gaps depth) (spell (depth + 1)) members

/-- What such a writer writes for a plain value spells it. -/
theorem Lays.spells {gaps : Nat → Gaps} {spell : Nat → Json → List Char} (hlays : Lays gaps spell)
    {json : Json} (h : Plain json) (depth : Nat) : SpelledBy (spell depth) json := by
  induction h generalizing depth with
  | null =>
    intro rest _
    rw [hlays.null]
    exact .null rest
  | bool value =>
    intro rest _
    cases value with
    | true =>
      rw [hlays.true]
      exact .true rest
    | false =>
      rw [hlays.false]
      exact .false rest
  | number value =>
    intro rest hrest
    rw [ofNat, hlays.number, Nat.toString_eq_repr, Nat.toList_repr]
    exact .number value hrest
  | text text =>
    intro rest _
    rw [hlays.text, writeText_append]
    exact .text text rest
  | @array items _ ih =>
    intro rest _
    cases items with
    | nil =>
      rw [hlays.emptyArray]
      exact .emptyArray rfl
    | cons first items =>
      rw [hlays.array, List.append_assoc, List.append_assoc]
      refine .array ((spells_listItems (hlays.blank depth) (fun item hmem ↦ ?_) rest).blanks
        (hlays.blank depth).before)
      exact ih item hmem (depth + 1)
  | @object members _ ih =>
    intro rest _
    cases members with
    | nil =>
      change Spells (.value (.object [])) (spell depth (.object []) ++ rest) rest
      rw [hlays.emptyObject]
      exact .emptyObject rfl
    | cons first members =>
      change Spells (.value (.object (named (first :: members)))) (spell depth
        (.object ((some first.1, first.2) :: named members)) ++ rest) rest
      rw [hlays.object, List.append_assoc, List.append_assoc]
      refine .object ((spells_listMembers (hlays.blank depth) (fun member hmem ↦ ?_) rest).blanks
        (hlays.blank depth).before)
      exact ih member hmem (depth + 1)

/-- The writer of one line leaves no gaps. -/
theorem lays_write : Lays (fun _ ↦ ⟨[], [], []⟩) fun _ ↦ write := by
  have hitems : ∀ items, writeItems items = listItems ⟨[], [], []⟩ write items := by
    intro items
    induction items with
    | nil => rw [writeItems, listItems, List.nil_append]
    | cons item items ih =>
      rw [writeItems, listItems, ih]
      rfl
  have hmembers : ∀ members, writeMembers members = listMembers ⟨[], [], []⟩ write members := by
    intro members
    induction members with
    | nil => rw [writeMembers, listMembers, List.nil_append]
    | cons member members ih =>
      rw [writeMembers, listMembers, ih, listMember]
      simp only [List.append_assoc, List.cons_append, List.nil_append]
  constructor
  case blank => exact fun _ ↦ ⟨blanks_nil, blanks_nil, blanks_nil⟩
  case array =>
    intro _ item items
    rw [write, hitems]
    rfl
  case object =>
    intro _ member members
    rw [write, hmembers, listMember]
    simp only [List.append_assoc, List.cons_append, List.nil_append]
  case text => exact fun _ text ↦ by rw [ofText, write, Option.getD_some]
  all_goals intros; rw [write]

/-- The gaps of the writer of one item to a line. -/
def lineGaps (depth : Nat) : Gaps := ⟨lineBreak (depth + 1), lineBreak depth, [' ']⟩

theorem lays_layOut : Lays lineGaps layOut := by
  have hitems : ∀ depth items,
      layOutItems depth items = listItems (lineGaps depth) (layOut (depth + 1)) items := by
    intro depth items
    induction items with
    | nil =>
      rw [layOutItems, listItems]
      rfl
    | cons item items ih =>
      rw [layOutItems, listItems, ih]
      rfl
  have hmembers : ∀ depth members,
      layOutMembers depth members = listMembers (lineGaps depth) (layOut (depth + 1)) members := by
    intro depth members
    induction members with
    | nil =>
      rw [layOutMembers, listMembers]
      rfl
    | cons member members ih =>
      rw [layOutMembers, listMembers, ih, listMember, lineGaps]
      simp only [List.append_assoc, List.cons_append, List.nil_append]
  constructor
  case blank =>
    refine fun depth ↦ ⟨blanks_lineBreak (depth + 1), blanks_lineBreak depth, fun c hmem ↦ ?_⟩
    rw [List.mem_singleton.mp hmem]
    rfl
  case array =>
    intro depth item items
    rw [layOut, hitems]
    rfl
  case object =>
    intro depth member members
    rw [layOut, hmembers, listMember, lineGaps]
    simp only [List.append_assoc, List.cons_append, List.nil_append]
  case text => exact fun depth text ↦ by rw [ofText, layOut, Option.getD_some]
  all_goals intros; rw [layOut]

/-! ### Whole texts -/

variable {json : Json}

theorem Lays.spells_ofList {gaps : Nat → Gaps} {spell : Nat → Json → List Char}
    (hlays : Lays gaps spell) (h : Plain json) :
    Spells (.value json) (String.ofList (spell 0 json)).toList [] := by
  have hspells := hlays.spells h 0 [] nofun
  rw [List.append_nil] at hspells
  rw [String.toList_ofList]
  exact hspells

theorem spells_compress (h : Plain json) : Spells (.value json) json.compress.toList [] :=
  lays_write.spells_ofList h

theorem Plain.derives_compress (h : Plain json) : Derives (.value json) json.compress.toList := by
  obtain ⟨chars, hderives, hchars⟩ := (spells_compress h).derives
  rwa [hchars, List.append_nil]

theorem spells_pretty (h : Plain json) : Spells (.value json) json.pretty.toList [] :=
  lays_layOut.spells_ofList h

end Admission.Json
