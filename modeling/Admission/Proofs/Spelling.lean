import Admission.Json.Printer
import Admission.Proofs.Grammar

/-!
# Texts that spell a value

`Json.Spells` says which characters stand for a value, or for what is left of an array or an object
after its bracket, and what follows them: words, whole numbers and texts as they are written, and
blanks between them as anybody likes. There is one rule for each thing that can come next.

What is spelled is derived by the grammar (`Spells.derives`), so the parser takes it
(`parse?_of_spells`). A whole number is a number without fraction and exponent
(`numeral_toDigits`), and every character inside quotes is either written as it is or escaped
(`Units.writeChar`).
-/

set_option autoImplicit false
set_option relaxedAutoImplicit false

namespace Admission.Json

/-! ### Numbers and texts that are written -/

/-- Only zero is written with a leading zero. -/
theorem head?_toDigits_ne {value : Nat} (h : 0 < value) :
    (Nat.toDigits 10 value).head? ≠ some '0' := by
  induction value using Nat.base_induction 10 (by decide) with
  | single value hlt =>
    rw [Nat.toDigits_of_lt_base hlt, List.head?_cons, Ne, Option.some.injEq,
      Nat.digitChar_eq_zero]
    exact Nat.ne_of_gt h
  | digit leading last hlast hleading ih =>
    rw [← Nat.toDigits_append_toDigits (by decide) hleading hlast,
      List.head?_append, Option.or_of_isSome (by simp)]
    exact ih hleading

theorem isDigit_toDigits {value : Nat} {c : Char} (h : c ∈ Nat.toDigits 10 value) :
    c.isDigit = true :=
  Nat.isDigit_of_mem_toDigits (by decide) (by decide) h

theorem whole_toDigits (value : Nat) : Whole (Nat.toDigits 10 value) := by
  by_cases hzero : value = 0
  · rw [hzero, Nat.toDigits_zero]
    exact .zero
  · have hhead := head?_toDigits_ne (Nat.pos_of_ne_zero hzero)
    have hdigits : Digits (Nat.toDigits 10 value) :=
      ⟨Nat.toDigits_ne_nil, fun _ hmem ↦ isDigit_toDigits hmem⟩
    cases hwhole : Nat.toDigits 10 value with
    | nil => exact absurd hwhole Nat.toDigits_ne_nil
    | cons first others =>
      rw [hwhole] at hhead hdigits
      exact .digits (by simpa using hhead) hdigits

/-- A whole number is a number. -/
theorem numeral_toDigits (value : Nat) : Numeral (Nat.toDigits 10 value) := by
  have h := Numeral.mk (.inl rfl) (whole_toDigits value) .none .none
  rwa [List.append_nil, List.append_nil, List.nil_append] at h

/-- A character that is written in quotes gives its code. -/
theorem Units.writeChar {units : List Nat} {chars : List Char} (c : Char) (h : Units units chars) :
    Units (c.toNat :: units) (writeChar c ++ chars) := by
  by_cases hletter : c = '"' ∨ c = '\\' ∨ c = '\n' ∨ c = '\r' ∨ c = '\t' ∨ c = '\x08' ∨ c = '\x0c'
  · -- The quote, the backslash and five blanks are escaped by a letter.
    rcases hletter with rfl | rfl | rfl | rfl | rfl | rfl | rfl <;>
      exact .letter (by decide) h
  · simp only [not_or] at hletter
    obtain ⟨hquote, hslash, hline, hreturn, htab, hback, hfeed⟩ := hletter
    have hwrite : Json.writeChar c = if c.toNat < 0x20 then
        ['\\', 'u', '0', '0', Nat.digitChar (c.toNat / 16), Nat.digitChar (c.toNat % 16)]
      else [c] := by
      simp [Json.writeChar, hquote, hslash, hline, hreturn, htab, hback, hfeed]
    rw [hwrite]
    split
    · next hcontrol =>
      have hzero : HexDigit '0' 0 := ⟨by decide, .inl rfl⟩
      have hhigh : HexDigit (Nat.digitChar (c.toNat / 16)) (c.toNat / 16) :=
        ⟨by omega, .inl rfl⟩
      have hlow : HexDigit (Nat.digitChar (c.toNat % 16)) (c.toNat % 16) :=
        ⟨Nat.mod_lt _ (by decide), .inl rfl⟩
      have hcode := h.code hzero hzero hhigh hlow
      have hvalue : ((0 * 16 + 0) * 16 + c.toNat / 16) * 16 + c.toNat % 16 = c.toNat := by omega
      rwa [hvalue] at hcode
    · next hcontrol => exact .plain (Nat.not_lt.mp hcontrol) hquote hslash h

/-- The characters of a text give their codes. -/
theorem units_flatMap (characters : List Char) :
    Units (characters.map Char.toNat) (characters.flatMap writeChar) := by
  induction characters with
  | nil => exact .nil
  | cons c characters ih => exact ih.writeChar c

theorem means_toNat (text : String) : Means (text.toList.map Char.toNat) (some text) := by
  rw [Means]
  induction text.toList with
  | nil => exact .nil
  | cons c characters ih => exact .one c ih

/-! ### Spelled values -/

/-- A text in quotes, before other characters. -/
def quoted (text : String) (rest : List Char) : List Char :=
  '"' :: text.toList.flatMap writeChar ++ '"' :: rest

/-- The characters in front spell a piece, and the others follow. -/
inductive Spells : Piece → List Char → List Char → Prop
  | blank {piece : Piece} {c : Char} {ahead rest : List Char} (hblank : isBlank c = true)
      (h : Spells piece ahead rest) : Spells piece (c :: ahead) rest
  | null (rest : List Char) : Spells (.value .null) ("null".toList ++ rest) rest
  | true (rest : List Char) : Spells (.value (.bool true)) ("true".toList ++ rest) rest
  | false (rest : List Char) : Spells (.value (.bool false)) ("false".toList ++ rest) rest
  | number (value : Nat) {rest : List Char} (hrest : EndsNumber rest) :
    Spells (.value (.ofNat value)) (Nat.toDigits 10 value ++ rest) rest
  | text (text : String) (rest : List Char) :
    Spells (.value (.ofText text)) (quoted text rest) rest
  | emptyArray {ahead rest : List Char} (hclose : skipBlanks ahead = ']' :: rest) :
    Spells (.value (.array [])) ('[' :: ahead) rest
  | array {items : List Json} {ahead rest : List Char} (h : Spells (.items items) ahead rest) :
    Spells (.value (.array items)) ('[' :: ahead) rest
  | lastItem {item : Json} {ahead after rest : List Char} (h : Spells (.value item) ahead after)
      (hclose : skipBlanks after = ']' :: rest) : Spells (.items [item]) ahead rest
  | nextItem {item : Json} {items : List Json} {ahead after next rest : List Char}
      (h : Spells (.value item) ahead after) (hcomma : skipBlanks after = ',' :: next)
      (hnext : Spells (.items items) next rest) : Spells (.items (item :: items)) ahead rest
  | emptyObject {ahead rest : List Char} (hclose : skipBlanks ahead = '\x7d' :: rest) :
    Spells (.value (.object [])) ('\x7b' :: ahead) rest
  | object {members : List (Option String × Json)} {ahead rest : List Char}
      (h : Spells (.members members) ahead rest) :
    Spells (.value (.object members)) ('\x7b' :: ahead) rest
  | lastMember {name : String} {value : Json} {colon ahead after rest : List Char}
      (hcolon : skipBlanks colon = ':' :: ahead) (h : Spells (.value value) ahead after)
      (hclose : skipBlanks after = '\x7d' :: rest) :
    Spells (.members [(some name, value)]) (quoted name colon) rest
  | nextMember {name : String} {value : Json} {members : List (Option String × Json)}
      {colon ahead after next rest : List Char} (hcolon : skipBlanks colon = ':' :: ahead)
      (h : Spells (.value value) ahead after) (hcomma : skipBlanks after = ',' :: next)
      (hnext : Spells (.members members) next rest) :
    Spells (.members ((some name, value) :: members)) (quoted name colon) rest

variable {piece : Piece} {ahead rest : List Char}

/-- What is spelled is derived by the grammar. -/
theorem Spells.derives (h : Spells piece ahead rest) :
    ∃ chars, Derives piece chars ∧ ahead = chars ++ rest := by
  induction h with
  | blank hblank _ ih =>
    obtain ⟨chars, hderives, rfl⟩ := ih
    exact ⟨_, hderives.blank hblank, rfl⟩
  | null rest => exact ⟨_, .null, rfl⟩
  | true rest => exact ⟨_, .true, rfl⟩
  | false rest => exact ⟨_, .false, rfl⟩
  | number value _ => exact ⟨_, .number (numeral_toDigits value), rfl⟩
  | text text rest =>
    exact ⟨_, .text (units_flatMap text.toList) (means_toNat text), by simp [quoted]⟩
  | @emptyArray ahead _ hclose =>
    obtain ⟨gap, hgap, hahead⟩ := exists_blanks ahead
    rw [hahead, hclose]
    exact ⟨_, .emptyArray hgap, by simp⟩
  | array _ ih =>
    obtain ⟨chars, hderives, rfl⟩ := ih
    exact ⟨_, .array hderives, rfl⟩
  | @lastItem _ _ after _ _ hclose ih =>
    obtain ⟨chars, hderives, rfl⟩ := ih
    obtain ⟨gap, hgap, hafter⟩ := exists_blanks after
    rw [hafter, hclose]
    exact ⟨_, .lastItem (hderives.blanksAfter hgap), by simp⟩
  | @nextItem _ _ _ after _ _ _ hcomma _ ih ihnext =>
    obtain ⟨chars, hderives, rfl⟩ := ih
    obtain ⟨others, hothers, rfl⟩ := ihnext
    obtain ⟨gap, hgap, hafter⟩ := exists_blanks after
    rw [hafter, hcomma]
    exact ⟨_, .nextItem (hderives.blanksAfter hgap) hothers, by simp⟩
  | @emptyObject ahead _ hclose =>
    obtain ⟨gap, hgap, hahead⟩ := exists_blanks ahead
    rw [hahead, hclose]
    exact ⟨_, .emptyObject hgap, by simp⟩
  | object _ ih =>
    obtain ⟨chars, hderives, rfl⟩ := ih
    exact ⟨_, .object hderives, rfl⟩
  | @lastMember name _ colon _ after _ hcolon _ hclose ih =>
    obtain ⟨chars, hderives, rfl⟩ := ih
    obtain ⟨gap, hgap, hafter⟩ := exists_blanks after
    obtain ⟨before, hbefore, hbetween⟩ := exists_blanks colon
    rw [hbetween, hcolon, hafter, hclose]
    exact ⟨_, .lastMember (units_flatMap name.toList) (means_toNat name) hbefore
      (hderives.blanksAfter hgap), by simp [quoted]⟩
  | @nextMember name _ _ colon _ after _ _ hcolon _ hcomma _ ih ihnext =>
    obtain ⟨chars, hderives, rfl⟩ := ih
    obtain ⟨others, hothers, rfl⟩ := ihnext
    obtain ⟨gap, hgap, hafter⟩ := exists_blanks after
    obtain ⟨before, hbefore, hbetween⟩ := exists_blanks colon
    rw [hbetween, hcolon, hafter, hcomma]
    exact ⟨_, .nextMember (units_flatMap name.toList) (means_toNat name) hbefore
      (hderives.blanksAfter hgap) hothers, by simp [quoted]⟩

/-- A text that spells a value, with blanks at most after it, is parsed as that value. -/
theorem parse?_of_spells {json : Json} {text : String}
    (h : Spells (.value json) text.toList rest) (hrest : skipBlanks rest = []) :
    parse? text = some json := by
  obtain ⟨chars, hderives, htext⟩ := h.derives
  obtain ⟨gap, hgap, hlast⟩ := exists_blanks rest
  rw [hrest, List.append_nil] at hlast
  rw [parse?_eq_some_iff, htext, hlast]
  exact hderives.blanksAfter hgap

end Admission.Json
