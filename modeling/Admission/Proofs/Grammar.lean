import Admission.Proofs.Tokens
import Mathlib.Data.List.DropRight

/-!
# The grammar of JSON

`Json.Derives` is the grammar, one rule for each way to write a value: words, numbers and texts of
any kind, arrays and objects with blanks wherever they may stand. No rule mentions a reader.

`parse?_eq_some_iff` is that the parser takes what the grammar derives and nothing else. Each rule
is one step of a reader (`Piece.Found`): what is read stops where the grammar says, because a number
is followed by a blank, a comma, a bracket or nothing, and twice as much fuel as there are
characters is enough. The other way round a reader that gives a value has gone through characters
that the grammar derives (`Piece.Reads.derives`).
-/

set_option autoImplicit false
set_option relaxedAutoImplicit false

namespace Admission.Json

/-! ### Values -/

/-- Blanks alone. -/
def Blanks (gap : List Char) : Prop := ∀ c ∈ gap, isBlank c = true

/-- What is read at a time: a value, or all that is left of an array or an object. -/
inductive Piece where
  | value (json : Json)
  | items (items : List Json)
  | members (members : List (Option String × Json))

/-- The characters, all of them, spell a piece. -/
inductive Derives : Piece → List Char → Prop
  | blank {piece : Piece} {c : Char} {chars : List Char} (hblank : isBlank c = true)
      (h : Derives piece chars) : Derives piece (c :: chars)
  | blankAfter {json : Json} {c : Char} {chars : List Char} (hblank : isBlank c = true)
      (h : Derives (.value json) chars) : Derives (.value json) (chars ++ [c])
  | null : Derives (.value .null) "null".toList
  | true : Derives (.value (.bool true)) "true".toList
  | false : Derives (.value (.bool false)) "false".toList
  | number {chars : List Char} (h : Numeral chars) :
    Derives (.value (.number (String.ofList chars))) chars
  | text {text : Option String} {units : List Nat} {chars : List Char} (h : Units units chars)
      (hmeans : Means units text) : Derives (.value (.string text)) ('"' :: chars ++ ['"'])
  | emptyArray {gap : List Char} (hgap : Blanks gap) :
    Derives (.value (.array [])) ('[' :: gap ++ [']'])
  | array {items : List Json} {chars : List Char} (h : Derives (.items items) chars) :
    Derives (.value (.array items)) ('[' :: chars)
  | lastItem {item : Json} {chars : List Char} (h : Derives (.value item) chars) :
    Derives (.items [item]) (chars ++ [']'])
  | nextItem {item : Json} {items : List Json} {chars others : List Char}
      (h : Derives (.value item) chars) (hnext : Derives (.items items) others) :
    Derives (.items (item :: items)) (chars ++ ',' :: others)
  | emptyObject {gap : List Char} (hgap : Blanks gap) :
    Derives (.value (.object [])) ('\x7b' :: gap ++ ['\x7d'])
  | object {members : List (Option String × Json)} {chars : List Char}
      (h : Derives (.members members) chars) : Derives (.value (.object members)) ('\x7b' :: chars)
  | lastMember {name : Option String} {value : Json} {units : List Nat}
      {inside gap chars : List Char} (hname : Units units inside) (hmeans : Means units name)
      (hgap : Blanks gap) (h : Derives (.value value) chars) :
    Derives (.members [(name, value)])
      ('"' :: inside ++ '"' :: (gap ++ ':' :: (chars ++ ['\x7d'])))
  | nextMember {name : Option String} {value : Json} {members : List (Option String × Json)}
      {units : List Nat} {inside gap chars others : List Char} (hname : Units units inside)
      (hmeans : Means units name) (hgap : Blanks gap) (h : Derives (.value value) chars)
      (hnext : Derives (.members members) others) :
    Derives (.members ((name, value) :: members))
      ('"' :: inside ++ '"' :: (gap ++ ':' :: (chars ++ ',' :: others)))

variable {units : List Nat} {chars ahead rest : List Char} {piece : Piece} {c : Char} {fuel : Nat}

/-! ### Reading values -/

/-- The reader of a piece reads it from the characters in front and leaves the others. -/
def Piece.Reads (fuel : Nat) (ahead rest : List Char) : Piece → Prop
  | .value json => readValue? fuel ahead = some (json, rest)
  | .items read => readItems? fuel ahead = some (read, rest)
  | .members read => readMembers? fuel ahead = some (read, rest)

theorem skipBlanks_cons (hblank : isBlank c = true) (ahead : List Char) :
    skipBlanks (c :: ahead) = skipBlanks ahead :=
  List.dropWhile_cons_of_pos hblank

theorem skipBlanks_of_not (hblank : isBlank c = false) (ahead : List Char) :
    skipBlanks (c :: ahead) = c :: ahead :=
  List.dropWhile_cons_of_neg (by simp [hblank])

theorem length_skipBlanks_le (ahead : List Char) : (skipBlanks ahead).length ≤ ahead.length :=
  (List.dropWhile_suffix _).length_le

theorem skipBlanks_skipBlanks (ahead : List Char) :
    skipBlanks (skipBlanks ahead) = skipBlanks ahead :=
  List.dropWhile_idempotent _ _

/-- Every reader passes over blanks. -/
theorem Piece.reads_skipBlanks (piece : Piece) (fuel : Nat) (ahead rest : List Char) :
    piece.Reads fuel (skipBlanks ahead) rest ↔ piece.Reads fuel ahead rest := by
  have hvalue : ∀ fuel, readValue? fuel (skipBlanks ahead) = readValue? fuel ahead := by
    intro fuel
    cases fuel with
    | zero => rfl
    | succ fuel => simp only [readValue?, skipBlanks_skipBlanks]
  cases piece with
  | value json => rw [Reads, Reads, hvalue]
  | items items =>
    cases fuel with
    | zero => rfl
    | succ fuel => simp only [Reads, readItems?, hvalue]
  | members members =>
    cases fuel with
    | zero => rfl
    | succ fuel => simp only [Reads, readMembers?, skipBlanks_skipBlanks]

theorem Piece.reads_blank (hblank : isBlank c = true) (h : piece.Reads fuel ahead rest) :
    piece.Reads fuel (c :: ahead) rest := by
  rw [← reads_skipBlanks, skipBlanks_cons hblank, reads_skipBlanks]
  exact h

/-- No item begins with a closing bracket. -/
theorem skipBlanks_ne_of_readItems? {items : List Json} {next : List Char}
    (h : readItems? fuel ahead = some (items, rest)) : skipBlanks ahead ≠ ']' :: next := by
  intro hclose
  have hvalue : readValue? (fuel - 1) ahead = none := by
    cases fuel - 1 with
    | zero => rfl
    | succ fuel =>
      simp only [readValue?, hclose]
      rfl
  cases fuel with
  | zero => cases h
  | succ fuel =>
    rw [Nat.add_sub_cancel] at hvalue
    rw [readItems?, hvalue] at h
    cases h

/-- Every member begins with a quote. -/
theorem skipBlanks_ne_of_readMembers? {members : List (Option String × Json)} {next : List Char}
    (h : readMembers? fuel ahead = some (members, rest)) : skipBlanks ahead ≠ '\x7d' :: next := by
  intro hclose
  cases fuel with
  | zero => cases h
  | succ fuel =>
    simp only [readMembers?, hclose] at h
    cases h

/-- A value that begins like a number is one. -/
theorem readValue?_of_readNumber? {first : Char} {digits : List Char}
    (hfirst : first.isDigit = true ∨ first = '-')
    (hread : readNumber? (first :: digits ++ rest) = some (first :: digits, rest)) (fuel : Nat) :
    readValue? (fuel + 1) (first :: digits ++ rest) =
      some (.number (String.ofList (first :: digits)), rest) := by
  have hne : ∀ other : Char, other.isDigit = false → other ≠ '-' → first ≠ other := by
    rintro other hother hminus rfl
    rcases hfirst with hdigit | hsign
    · rw [hdigit] at hother
      cases hother
    · exact hminus hsign
  have hblank : isBlank first = false := by
    simp [isBlank, hne ' ' rfl, hne '\t' rfl, hne '\n' rfl, hne '\r' rfl]
  rw [List.cons_append] at hread ⊢
  rw [readValue?, skipBlanks_of_not hblank]
  split
  · next h => cases h
  · next h => exact absurd (List.cons.inj h).1 (hne '"' rfl (by decide))
  · next h => exact absurd (List.cons.inj h).1 (hne '[' rfl (by decide))
  · next h => exact absurd (List.cons.inj h).1 (hne '\x7b' rfl (by decide))
  · next h => exact absurd (List.cons.inj h).1 (hne 'n' rfl (by decide))
  · next h => exact absurd (List.cons.inj h).1 (hne 't' rfl (by decide))
  · next h => exact absurd (List.cons.inj h).1 (hne 'f' rfl (by decide))
  · rw [hread]
    rfl

theorem length_lt_inQuotes (chars rest : List Char) :
    rest.length < ('"' :: chars ++ '"' :: rest).length := by
  simp only [List.length_cons, List.length_append]
  omega

/-- A piece is found in front of other characters: reading it uses some up, and twice as much fuel
as it uses up is enough. -/
structure Piece.Found (piece : Piece) (ahead rest : List Char) : Prop where
  length_lt : rest.length < ahead.length
  reads : ∀ fuel, 2 * ahead.length ≤ fuel + 2 * rest.length → piece.Reads fuel ahead rest

namespace Piece.Found

variable {item json : Json} {items : List Json} {members : List (Option String × Json)}
  {after next : List Char}

/-- There is fuel for a first step. -/
theorem of_succ (hlt : rest.length < ahead.length)
    (h : ∀ fuel, 2 * ahead.length ≤ fuel + 1 + 2 * rest.length →
      piece.Reads (fuel + 1) ahead rest) : piece.Found ahead rest where
  length_lt := hlt
  reads := by
    intro fuel hfuel
    cases fuel with
    | zero => omega
    | succ fuel => exact h fuel hfuel

theorem blank (hblank : isBlank c = true) (h : piece.Found ahead rest) :
    piece.Found (c :: ahead) rest where
  length_lt := Nat.lt_succ_of_lt h.length_lt
  reads := by
    intro fuel hfuel
    rw [List.length_cons] at hfuel
    exact reads_blank hblank (h.reads fuel (by omega))

theorem number (h : Numeral chars) (hrest : EndsNumber rest) :
    (value (.number (String.ofList chars))).Found (chars ++ rest) rest := by
  have hread := h.read hrest
  obtain ⟨first, digits, rfl, hfirst⟩ := h.head
  refine of_succ ?_ fun fuel _ ↦ readValue?_of_readNumber? hfirst hread fuel
  rw [List.length_append]
  exact Nat.lt_add_of_pos_left (Nat.succ_pos _)

theorem text {text : Option String} (h : Units units chars) (hmeans : Means units text)
    (rest : List Char) : (value (.string text)).Found ('"' :: chars ++ '"' :: rest) rest := by
  refine of_succ (length_lt_inQuotes chars rest) fun fuel _ ↦ ?_
  simp only [Reads, List.cons_append, readValue?, skipBlanks_of_not (c := '"') rfl, h.read,
    h.text?_eq_iff.mpr hmeans, Option.map_some]

theorem emptyArray (hclose : skipBlanks ahead = ']' :: rest) :
    (value (.array [])).Found ('[' :: ahead) rest := by
  have hle := length_skipBlanks_le ahead
  rw [hclose, List.length_cons] at hle
  refine of_succ (Nat.lt_succ_of_lt hle) fun fuel _ ↦ ?_
  simp only [Reads, readValue?, skipBlanks_of_not (c := '[') rfl, hclose]

theorem array (h : (Piece.items items).Found ahead rest) :
    (value (.array items)).Found ('[' :: ahead) rest := by
  refine of_succ (Nat.lt_succ_of_lt h.length_lt) fun fuel hfuel ↦ ?_
  rw [List.length_cons] at hfuel
  have hread := h.reads fuel (by omega)
  have hskip : (Piece.items items).Reads fuel (skipBlanks ahead) rest :=
    (reads_skipBlanks ..).mpr hread
  simp only [Reads] at hread hskip ⊢
  simp only [readValue?, skipBlanks_of_not (c := '[') rfl]
  split
  · next hclose => exact absurd hclose (skipBlanks_ne_of_readItems? hread)
  · rw [hskip]
    rfl

theorem lastItem (h : (value item).Found ahead after) (hclose : skipBlanks after = ']' :: rest) :
    (Piece.items [item]).Found ahead rest := by
  have hlt := h.length_lt
  have hle := length_skipBlanks_le after
  rw [hclose, List.length_cons] at hle
  refine of_succ (by omega) fun fuel hfuel ↦ ?_
  have hitem : readValue? fuel ahead = some (item, after) := h.reads fuel (by omega)
  simp only [Reads, readItems?, hitem, hclose, Option.bind_eq_bind, Option.bind_some,
    Option.pure_def]

theorem nextItem (h : (value item).Found ahead after) (hcomma : skipBlanks after = ',' :: next)
    (hnext : (Piece.items items).Found next rest) :
    (Piece.items (item :: items)).Found ahead rest := by
  have hlt := h.length_lt
  have hless := hnext.length_lt
  have hle := length_skipBlanks_le after
  rw [hcomma, List.length_cons] at hle
  refine of_succ (by omega) fun fuel hfuel ↦ ?_
  have hitem : readValue? fuel ahead = some (item, after) := h.reads fuel (by omega)
  have hitems : readItems? fuel next = some (items, rest) := hnext.reads fuel (by omega)
  simp only [Reads, readItems?, hitem, hcomma, hitems, Option.bind_eq_bind, Option.bind_some,
    Option.pure_def]

theorem emptyObject (hclose : skipBlanks ahead = '\x7d' :: rest) :
    (value (.object [])).Found ('\x7b' :: ahead) rest := by
  have hle := length_skipBlanks_le ahead
  rw [hclose, List.length_cons] at hle
  refine of_succ (Nat.lt_succ_of_lt hle) fun fuel _ ↦ ?_
  simp only [Reads, readValue?, skipBlanks_of_not (c := '\x7b') rfl, hclose]

theorem object (h : (Piece.members members).Found ahead rest) :
    (value (.object members)).Found ('\x7b' :: ahead) rest := by
  refine of_succ (Nat.lt_succ_of_lt h.length_lt) fun fuel hfuel ↦ ?_
  rw [List.length_cons] at hfuel
  have hread := h.reads fuel (by omega)
  have hskip : (Piece.members members).Reads fuel (skipBlanks ahead) rest :=
    (reads_skipBlanks ..).mpr hread
  simp only [Reads] at hread hskip ⊢
  simp only [readValue?, skipBlanks_of_not (c := '\x7b') rfl]
  split
  · next hclose => exact absurd hclose (skipBlanks_ne_of_readMembers? hread)
  · rw [hskip]
    rfl

variable {colon : List Char} {name : Option String}

theorem lastMember (hname : Units units chars) (hmeans : Means units name)
    (hcolon : skipBlanks colon = ':' :: ahead) (h : (value json).Found ahead after)
    (hclose : skipBlanks after = '\x7d' :: rest) :
    (Piece.members [(name, json)]).Found ('"' :: chars ++ '"' :: colon) rest := by
  have hlt := h.length_lt
  have hquotes := length_lt_inQuotes chars colon
  have hafter := length_skipBlanks_le after
  have hahead := length_skipBlanks_le colon
  rw [hclose, List.length_cons] at hafter
  rw [hcolon, List.length_cons] at hahead
  refine of_succ (by omega) fun fuel hfuel ↦ ?_
  have hjson : readValue? fuel ahead = some (json, after) := h.reads fuel (by omega)
  simp only [Reads, List.cons_append, readMembers?, skipBlanks_of_not (c := '"') rfl,
    hname.read, hname.text?_eq_iff.mpr hmeans, hcolon, hjson, hclose, Option.bind_eq_bind,
    Option.bind_some, Option.pure_def]

theorem nextMember (hname : Units units chars) (hmeans : Means units name)
    (hcolon : skipBlanks colon = ':' :: ahead) (h : (value json).Found ahead after)
    (hcomma : skipBlanks after = ',' :: next)
    (hnext : (Piece.members members).Found next rest) :
    (Piece.members ((name, json) :: members)).Found ('"' :: chars ++ '"' :: colon) rest := by
  have hlt := h.length_lt
  have hless := hnext.length_lt
  have hquotes := length_lt_inQuotes chars colon
  have hafter := length_skipBlanks_le after
  have hahead := length_skipBlanks_le colon
  rw [hcomma, List.length_cons] at hafter
  rw [hcolon, List.length_cons] at hahead
  refine of_succ (by omega) fun fuel hfuel ↦ ?_
  have hjson : readValue? fuel ahead = some (json, after) := h.reads fuel (by omega)
  have hmembers : readMembers? fuel next = some (members, rest) := hnext.reads fuel (by omega)
  simp only [Reads, List.cons_append, readMembers?, skipBlanks_of_not (c := '"') rfl,
    hname.read, hname.text?_eq_iff.mpr hmeans, hcolon, hjson, hcomma, hmembers,
    Option.bind_eq_bind, Option.bind_some, Option.pure_def]

end Piece.Found

theorem skipBlanks_append {gap : List Char} (hgap : Blanks gap) (rest : List Char) :
    skipBlanks (gap ++ rest) = skipBlanks rest :=
  List.dropWhile_append_of_pos hgap

theorem Blanks.skip {gap : List Char} (hgap : Blanks gap) (hblank : isBlank c = false)
    (rest : List Char) : skipBlanks (gap ++ c :: rest) = c :: rest :=
  (skipBlanks_append hgap _).trans (skipBlanks_of_not hblank rest)

/-- The parser finds what the grammar derives. What it leaves is what follows, but for blanks. -/
theorem Derives.found (h : Derives piece chars) (hrest : EndsNumber rest) :
    ∃ after, skipBlanks after = skipBlanks rest ∧ piece.Found (chars ++ rest) after := by
  -- A comma or a bracket ends a number, and no blank stands before it.
  have hnext : ∀ {c : Char} (rest : List Char), c = ',' ∨ c = ']' ∨ c = '\x7d' →
      EndsNumber (c :: rest) ∧ skipBlanks (c :: rest) = c :: rest := by
    rintro c rest (rfl | rfl | rfl) <;> exact ⟨endsNumber_cons (by decide), rfl⟩
  induction h generalizing rest with
  | blank hblank _ ih =>
    obtain ⟨after, hafter, hfound⟩ := ih hrest
    exact ⟨after, hafter, hfound.blank hblank⟩
  | blankAfter hblank _ ih =>
    obtain ⟨after, hafter, hfound⟩ := ih (endsNumber_blank hblank)
    rw [skipBlanks_cons hblank] at hafter
    rw [List.append_assoc]
    exact ⟨after, hafter, hfound⟩
  | null | true | false =>
    refine ⟨rest, rfl, .of_succ ?_ fun _ _ ↦ rfl⟩
    rw [List.length_append]
    exact Nat.lt_add_of_pos_left (by decide)
  | number h => exact ⟨rest, rfl, .number h hrest⟩
  | text h hmeans =>
    rw [List.append_assoc]
    exact ⟨rest, rfl, .text h hmeans rest⟩
  | emptyArray hgap =>
    rw [List.append_assoc]
    exact ⟨rest, rfl, .emptyArray (hgap.skip rfl rest)⟩
  | array _ ih =>
    obtain ⟨after, hafter, hfound⟩ := ih hrest
    exact ⟨after, hafter, hfound.array⟩
  | lastItem _ ih =>
    obtain ⟨hends, hskip⟩ := hnext (c := ']') rest (.inr (.inl rfl))
    obtain ⟨after, hafter, hfound⟩ := ih hends
    rw [List.append_assoc]
    exact ⟨rest, rfl, hfound.lastItem (hafter.trans hskip)⟩
  | @nextItem _ _ _ others _ _ ih ihnext =>
    obtain ⟨last, hlast, hothers⟩ := ihnext hrest
    obtain ⟨hends, hskip⟩ := hnext (c := ',') (others ++ rest) (.inl rfl)
    obtain ⟨after, hafter, hfound⟩ := ih hends
    rw [List.append_assoc]
    exact ⟨last, hlast, hfound.nextItem (hafter.trans hskip) hothers⟩
  | emptyObject hgap =>
    rw [List.append_assoc]
    exact ⟨rest, rfl, .emptyObject (hgap.skip rfl rest)⟩
  | object _ ih =>
    obtain ⟨after, hafter, hfound⟩ := ih hrest
    exact ⟨after, hafter, hfound.object⟩
  | lastMember hname hmeans hgap _ ih =>
    obtain ⟨hends, hskip⟩ := hnext (c := '\x7d') rest (.inr (.inr rfl))
    obtain ⟨after, hafter, hfound⟩ := ih hends
    refine ⟨rest, rfl, ?_⟩
    have hmember := Piece.Found.lastMember hname hmeans (hgap.skip rfl _) hfound
      (hafter.trans hskip)
    simpa using hmember
  | @nextMember _ _ _ _ _ _ _ others hname hmeans hgap _ _ ih ihnext =>
    obtain ⟨last, hlast, hothers⟩ := ihnext hrest
    obtain ⟨hends, hskip⟩ := hnext (c := ',') (others ++ rest) (.inl rfl)
    obtain ⟨after, hafter, hfound⟩ := ih hends
    refine ⟨last, hlast, ?_⟩
    have hmember := Piece.Found.nextMember hname hmeans (hgap.skip rfl _) hfound
      (hafter.trans hskip) hothers
    simpa using hmember

/-! ### Only what the grammar derives -/

/-- The characters ahead begin with blanks, perhaps none. -/
theorem exists_blanks (ahead : List Char) :
    ∃ gap, Blanks gap ∧ ahead = gap ++ skipBlanks ahead :=
  ⟨ahead.takeWhile isBlank, List.all_eq_true.mp List.all_takeWhile,
    List.takeWhile_append_dropWhile.symm⟩

theorem Derives.blanks {gap : List Char} (hgap : Blanks gap) (h : Derives piece chars) :
    Derives piece (gap ++ chars) := by
  induction gap with
  | nil => exact h
  | cons c gap ih =>
    obtain ⟨hc, hgap⟩ := List.forall_mem_cons.mp hgap
    exact .blank hc (ih hgap)

theorem Derives.blanksAfter {json : Json} {gap : List Char} (hgap : Blanks gap)
    (h : Derives (.value json) chars) : Derives (.value json) (chars ++ gap) := by
  induction gap generalizing chars with
  | nil => rwa [List.append_nil]
  | cons c gap ih =>
    obtain ⟨hc, hgap⟩ := List.forall_mem_cons.mp hgap
    have hmore := ih hgap (h.blankAfter hc)
    rwa [List.append_assoc] at hmore

/-- Blanks in front make no difference to what is derived. -/
theorem derives_of_skipBlanks
    (h : ∃ chars, Derives piece chars ∧ skipBlanks ahead = chars ++ rest) :
    ∃ chars, Derives piece chars ∧ ahead = chars ++ rest := by
  obtain ⟨chars, hchars, hskip⟩ := h
  obtain ⟨gap, hgap, hahead⟩ := exists_blanks ahead
  exact ⟨gap ++ chars, hchars.blanks hgap, by rw [List.append_assoc, ← hskip, ← hahead]⟩

theorem eq_of_stripWord? {word : List Char} (h : stripWord? word ahead = some rest) :
    ahead = word ++ rest := by
  induction word generalizing ahead with
  | nil => exact Option.some.inj h
  | cons c word ih =>
    cases ahead with
    | nil => cases h
    | cons d ahead =>
      rw [stripWord?] at h
      split at h
      · next hsame => rw [hsame, ih h, List.cons_append]
      · cases h

/-- A word that is read stands there. -/
theorem derives_of_stripWord? {word after : List Char} {value json : Json}
    (hahead : ahead = c :: after) (hword : Derives (.value value) (c :: word))
    (h : (stripWord? word after).map (fun rest ↦ (value, rest)) = some (json, rest)) :
    ∃ chars, Derives (.value json) chars ∧ ahead = chars ++ rest := by
  obtain ⟨last, hread, hsame⟩ := Option.map_eq_some_iff.mp h
  cases hsame
  exact ⟨_, hword, by rw [hahead, eq_of_stripWord? hread, List.cons_append]⟩

theorem derives_of_readValue? {json : Json}
    (hitems : ∀ {ahead rest items}, readItems? fuel ahead = some (items, rest) →
      ∃ chars, Derives (.items items) chars ∧ ahead = chars ++ rest)
    (hmembers : ∀ {ahead rest members}, readMembers? fuel ahead = some (members, rest) →
      ∃ chars, Derives (.members members) chars ∧ ahead = chars ++ rest)
    (h : readValue? (fuel + 1) ahead = some (json, rest)) :
    ∃ chars, Derives (.value json) chars ∧ ahead = chars ++ rest := by
  refine derives_of_skipBlanks ?_
  rw [readValue?] at h
  split at h
  · cases h
  · next after htext =>
    obtain ⟨⟨units, last⟩, hread, hsame⟩ := Option.map_eq_some_iff.mp h
    cases hsame
    obtain ⟨chars, hchars, rfl⟩ := units_of_readText? hread
    exact ⟨_, .text hchars (hchars.text?_eq_iff.mp rfl), by rw [htext]; simp⟩
  · next after harray =>
    obtain ⟨inner, hinner, hafter⟩ := exists_blanks after
    split at h
    · next last hclose =>
      cases h
      rw [harray, hafter, hclose]
      exact ⟨_, .emptyArray hinner, by simp⟩
    · obtain ⟨⟨items, last⟩, hread, hsame⟩ := Option.map_eq_some_iff.mp h
      cases hsame
      obtain ⟨chars, hchars, hskip⟩ := hitems hread
      rw [harray, hafter, hskip]
      exact ⟨_, .array (hchars.blanks hinner), by simp⟩
  · next after hobject =>
    obtain ⟨inner, hinner, hafter⟩ := exists_blanks after
    split at h
    · next last hclose =>
      cases h
      rw [hobject, hafter, hclose]
      exact ⟨_, .emptyObject hinner, by simp⟩
    · obtain ⟨⟨members, last⟩, hread, hsame⟩ := Option.map_eq_some_iff.mp h
      cases hsame
      obtain ⟨chars, hchars, hskip⟩ := hmembers hread
      rw [hobject, hafter, hskip]
      exact ⟨_, .object (hchars.blanks hinner), by simp⟩
  · next after hahead => exact derives_of_stripWord? hahead .null h
  · next after hahead => exact derives_of_stripWord? hahead .true h
  · next after hahead => exact derives_of_stripWord? hahead .false h
  · obtain ⟨⟨literal, last⟩, hread, hsame⟩ := Option.map_eq_some_iff.mp h
    cases hsame
    obtain ⟨hliteral, hskip⟩ := numeral_of_readNumber? hread
    exact ⟨_, .number hliteral, hskip⟩

theorem derives_of_readItems? {items : List Json}
    (hvalue : ∀ {ahead rest item}, readValue? fuel ahead = some (item, rest) →
      ∃ chars, Derives (.value item) chars ∧ ahead = chars ++ rest)
    (hitems : ∀ {ahead rest items}, readItems? fuel ahead = some (items, rest) →
      ∃ chars, Derives (.items items) chars ∧ ahead = chars ++ rest)
    (h : readItems? (fuel + 1) ahead = some (items, rest)) :
    ∃ chars, Derives (.items items) chars ∧ ahead = chars ++ rest := by
  rw [readItems?, Option.bind_eq_bind, Option.bind_eq_some_iff] at h
  obtain ⟨⟨item, after⟩, hread, h⟩ := h
  obtain ⟨chars, hitem, rfl⟩ := hvalue hread
  obtain ⟨gap, hgap, hafter⟩ := exists_blanks after
  dsimp only at h
  split at h
  · next last hclose =>
    cases h
    rw [hafter, hclose]
    exact ⟨_, .lastItem (hitem.blanksAfter hgap), by simp⟩
  · next next hcomma =>
    simp only [Option.bind_eq_bind, Option.bind_eq_some_iff, Option.pure_def, Option.some.injEq,
      Prod.mk.injEq, Prod.exists] at h
    obtain ⟨others, _, hread, rfl, rfl⟩ := h
    obtain ⟨more, hmore, rfl⟩ := hitems hread
    rw [hafter, hcomma]
    exact ⟨_, .nextItem (hitem.blanksAfter hgap) hmore, by simp⟩
  · cases h

theorem derives_of_readMembers? {members : List (Option String × Json)}
    (hvalue : ∀ {ahead rest value}, readValue? fuel ahead = some (value, rest) →
      ∃ chars, Derives (.value value) chars ∧ ahead = chars ++ rest)
    (hmembers : ∀ {ahead rest members}, readMembers? fuel ahead = some (members, rest) →
      ∃ chars, Derives (.members members) chars ∧ ahead = chars ++ rest)
    (h : readMembers? (fuel + 1) ahead = some (members, rest)) :
    ∃ chars, Derives (.members members) chars ∧ ahead = chars ++ rest := by
  refine derives_of_skipBlanks ?_
  rw [readMembers?] at h
  split at h
  · next inside hquote =>
    rw [hquote]
    rw [Option.bind_eq_bind, Option.bind_eq_some_iff] at h
    obtain ⟨⟨units, colon⟩, hname, h⟩ := h
    obtain ⟨name, hunits, rfl⟩ := units_of_readText? hname
    obtain ⟨gap, hgap, hcolon⟩ := exists_blanks colon
    dsimp only at h
    split at h
    · next ahead hskip =>
      rw [hskip] at hcolon
      rw [Option.bind_eq_bind, Option.bind_eq_some_iff] at h
      obtain ⟨⟨value, after⟩, hread, h⟩ := h
      obtain ⟨chars, hderives, rfl⟩ := hvalue hread
      obtain ⟨last, hlast, hafter⟩ := exists_blanks after
      have hmeans := hunits.text?_eq_iff.mp rfl
      dsimp only at h
      split at h
      · next final hclose =>
        cases h
        rw [hcolon, hafter, hclose]
        exact ⟨_, .lastMember hunits hmeans hgap (hderives.blanksAfter hlast), by simp⟩
      · next next hcomma =>
        simp only [Option.bind_eq_bind, Option.bind_eq_some_iff, Option.pure_def,
          Option.some.injEq, Prod.mk.injEq, Prod.exists] at h
        obtain ⟨others, _, hread, rfl, rfl⟩ := h
        obtain ⟨more, hmore, rfl⟩ := hmembers hread
        rw [hcolon, hafter, hcomma]
        exact ⟨_, .nextMember hunits hmeans hgap (hderives.blanksAfter hlast) hmore, by simp⟩
      · cases h
    · cases h
  · cases h

/-- What a reader takes is derived. -/
theorem Piece.Reads.derives (h : piece.Reads fuel ahead rest) :
    ∃ chars, Derives piece chars ∧ ahead = chars ++ rest := by
  induction fuel generalizing piece ahead rest with
  | zero => cases piece <;> cases h
  | succ fuel ih =>
    cases piece with
    | value json =>
      exact derives_of_readValue? (fun hread ↦ @ih _ _ (.items _) hread)
        (fun hread ↦ @ih _ _ (.members _) hread) h
    | items items =>
      exact derives_of_readItems? (fun hread ↦ @ih _ _ (.value _) hread)
        (fun hread ↦ @ih _ _ (.items _) hread) h
    | members members =>
      exact derives_of_readMembers? (fun hread ↦ @ih _ _ (.value _) hread)
        (fun hread ↦ @ih _ _ (.members _) hread) h

/-- The parser takes what the grammar derives and nothing else. -/
theorem parse?_eq_some_iff {text : String} {json : Json} :
    parse? text = some json ↔ Derives (.value json) text.toList := by
  rw [parse?]
  constructor
  · intro h
    split at h
    · cases h
    · next value rest hread =>
      split at h
      · next hblank =>
        obtain rfl := Option.some.inj h
        have hreads : (Piece.value value).Reads _ text.toList rest := hread
        obtain ⟨chars, hderives, hchars⟩ := hreads.derives
        obtain ⟨gap, hgap, hrest⟩ := exists_blanks rest
        rw [List.isEmpty_iff.mp hblank, List.append_nil] at hrest
        rw [hchars, hrest]
        exact hderives.blanksAfter hgap
      · cases h
  · intro h
    have hend : EndsNumber [] := nofun
    obtain ⟨rest, hrest, hfound⟩ := h.found hend
    rw [List.append_nil] at hfound
    have hread : readValue? (2 * text.length + 2) text.toList = some (json, rest) := by
      refine hfound.reads _ ?_
      rw [String.length_toList]
      omega
    simp only [hread, hrest]
    rfl

end Admission.Json
