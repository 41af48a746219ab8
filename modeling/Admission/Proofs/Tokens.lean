import Admission.Json.Parser

/-!
# Numbers and texts of JSON

How a number and a text are written, and that the readers of both take what is written and nothing
else. A number has a whole part without leading zeros, and perhaps a fraction and an exponent
(`Numeral`). The characters inside quotes are first read off as numbers, one for each character or
escape (`Units`); what these numbers mean is a matter of its own (`Means`), since a text that names
half of a surrogate pair is well written and means nothing.

`Numeral.read` needs to know that no number goes on after the one that is read, `Units.read` only
that a quote closes the text. `Units.text?_eq_iff` is that the reader takes texts as they are meant.
-/

set_option autoImplicit false
set_option relaxedAutoImplicit false

namespace Admission.Json

/-! ### Numbers -/

/-- Decimal digits, at least one. -/
def Digits (chars : List Char) : Prop := chars ≠ [] ∧ ∀ c ∈ chars, c.isDigit = true

/-- The whole part of a number: digits, and a leading zero only alone. -/
inductive Whole : List Char → Prop
  | zero : Whole ['0']
  | digits {first : Char} {others : List Char} (hzero : first ≠ '0')
      (h : Digits (first :: others)) : Whole (first :: others)

/-- The fraction of a number, if it has one. -/
inductive Fraction : List Char → Prop
  | none : Fraction []
  | digits {chars : List Char} (h : Digits chars) : Fraction ('.' :: chars)

/-- The exponent of a number, if it has one. -/
inductive Exponent : List Char → Prop
  | none : Exponent []
  | digits {letter : Char} {sign chars : List Char} (hletter : letter = 'e' ∨ letter = 'E')
      (hsign : sign = [] ∨ sign = ['+'] ∨ sign = ['-']) (h : Digits chars) :
    Exponent (letter :: sign ++ chars)

/-- A number. -/
inductive Numeral : List Char → Prop
  | mk {sign whole fraction exponent : List Char} (hsign : sign = [] ∨ sign = ['-'])
      (hwhole : Whole whole) (hfraction : Fraction fraction) (hexponent : Exponent exponent) :
    Numeral (sign ++ whole ++ fraction ++ exponent)

/-! ### Texts -/

/-- The letters of the one-letter escapes, and what they stand for. -/
def letters : List (Char × Char) :=
  [('"', '"'), ('\\', '\\'), ('/', '/'), ('b', '\x08'), ('f', '\x0c'), ('n', '\n'), ('r', '\r'),
   ('t', '\t')]

/-- A hexadecimal digit in either case, and its value. -/
def HexDigit (c : Char) (value : Nat) : Prop :=
  value < 16 ∧ (c = Nat.digitChar value ∨ c = (Nat.digitChar value).toUpper)

/-- The characters inside quotes give these numbers, one for each character or escape. -/
inductive Units : List Nat → List Char → Prop
  | nil : Units [] []
  | plain {c : Char} {units : List Nat} {chars : List Char} (hcontrol : 0x20 ≤ c.toNat)
      (hquote : c ≠ '"') (hslash : c ≠ '\\') (h : Units units chars) :
    Units (c.toNat :: units) (c :: chars)
  | letter {letter c : Char} {units : List Nat} {chars : List Char}
      (hletter : (letter, c) ∈ letters) (h : Units units chars) :
    Units (c.toNat :: units) ('\\' :: letter :: chars)
  | code {a b c d : Char} {first second third fourth : Nat} {units : List Nat} {chars : List Char}
      (ha : HexDigit a first) (hb : HexDigit b second) (hc : HexDigit c third)
      (hd : HexDigit d fourth) (h : Units units chars) :
    Units ((((first * 16 + second) * 16 + third) * 16 + fourth) :: units)
      ('\\' :: 'u' :: a :: b :: c :: d :: chars)

/-- The numbers stand for these characters: a number for the character with that code, or the halves
of a surrogate pair for a character beyond all numbers of four digits. -/
inductive Encodes : List Nat → List Char → Prop
  | nil : Encodes [] []
  | one (c : Char) {units : List Nat} {chars : List Char} (h : Encodes units chars) :
    Encodes (c.toNat :: units) (c :: chars)
  | pair {c : Char} {units : List Nat} {chars : List Char} (hc : 0x10000 ≤ c.toNat)
      (h : Encodes units chars) :
    Encodes
      ((0xD800 + (c.toNat - 0x10000) / 0x400) :: (0xDC00 + (c.toNat - 0x10000) % 0x400) :: units)
      (c :: chars)

/-- What numbers mean: the text they stand for, if there is one. -/
def Means (units : List Nat) : Option String → Prop
  | some text => Encodes units text.toList
  | none => ∀ chars, ¬Encodes units chars

variable {units : List Nat} {chars ahead rest : List Char} {c : Char}

/-! ### Reading numbers -/

/-- What stands here does not go on with digits. -/
def EndsDigits (rest : List Char) : Prop := ∀ c ∈ rest.head?, c.isDigit = false

/-- What stands here does not go on with a number. -/
def EndsNumber (rest : List Char) : Prop :=
  ∀ c ∈ rest.head?, c.isDigit = false ∧ c ≠ '.' ∧ c ≠ 'e' ∧ c ≠ 'E'

theorem endsNumber_cons (h : c.isDigit = false ∧ c ≠ '.' ∧ c ≠ 'e' ∧ c ≠ 'E') :
    EndsNumber (c :: rest) := by
  intro other hother
  obtain rfl : c = other := by simpa using hother
  exact h

/-- A blank does not go on with a number. -/
theorem endsNumber_blank (hblank : isBlank c = true) : EndsNumber (c :: rest) := by
  simp only [isBlank, Bool.or_eq_true, decide_eq_true_eq] at hblank
  refine endsNumber_cons ?_
  rcases hblank with ((rfl | rfl) | rfl) | rfl <;> decide

theorem EndsNumber.endsDigits (h : EndsNumber rest) : EndsDigits rest := fun c hc ↦ (h c hc).1

theorem Digits.read (h : Digits chars) (hrest : EndsDigits rest) :
    readDigits? (chars ++ rest) = some (chars, rest) := by
  have hstop : rest.takeWhile Char.isDigit = [] ∧ rest.dropWhile Char.isDigit = rest := by
    cases rest with
    | nil => exact ⟨rfl, rfl⟩
    | cons c rest =>
      have hc := hrest c rfl
      exact ⟨List.takeWhile_cons_of_neg (by simp [hc]), List.dropWhile_cons_of_neg (by simp [hc])⟩
  rw [readDigits?, List.takeWhile_append_of_pos h.2, List.dropWhile_append_of_pos h.2, hstop.1,
    hstop.2, List.append_nil]
  cases chars with
  | nil => exact absurd rfl h.1
  | cons => rfl

theorem Whole.read (h : Whole chars) (hrest : EndsDigits rest) :
    readWhole? (chars ++ rest) = some (chars, rest) := by
  cases h with
  | zero => rfl
  | digits hzero h =>
    have hread := h.read hrest
    rw [List.cons_append] at hread ⊢
    rw [readWhole?]
    · exact hread
    · exact fun _ hhead ↦ hzero (List.cons.inj hhead).1

theorem Fraction.read (h : Fraction chars) (hrest : EndsDigits rest)
    (hpoint : rest.head? ≠ some '.') : readFraction? (chars ++ rest) = some (chars, rest) := by
  cases h with
  | none =>
    rw [List.nil_append]
    unfold readFraction?
    split
    · exact absurd rfl hpoint
    · rfl
  | digits h => rw [List.cons_append, readFraction?, h.read hrest, Option.map_some]

theorem readSign_append {sign : List Char} (hsign : sign = [] ∨ sign = ['+'] ∨ sign = ['-'])
    (h : Digits chars) : readSign (sign ++ (chars ++ rest)) = (sign, chars ++ rest) := by
  rcases hsign with rfl | rfl | rfl
  · cases chars with
    | nil => exact absurd rfl h.1
    | cons first others =>
      have hfirst := h.2 first List.mem_cons_self
      rw [List.nil_append, List.cons_append]
      unfold readSign
      split
      · next hhead => simp [(List.cons.inj hhead).1] at hfirst
      · next hhead => simp [(List.cons.inj hhead).1] at hfirst
      · rfl
  · rfl
  · rfl

theorem Exponent.read (h : Exponent chars) (hrest : EndsNumber rest) :
    readExponent? (chars ++ rest) = some (chars, rest) := by
  cases h with
  | none =>
    cases rest with
    | nil => rfl
    | cons c rest =>
      obtain ⟨-, -, hsmall, hlarge⟩ := hrest c rfl
      simp [readExponent?, hsmall, hlarge]
  | digits hletter hsign h =>
    rw [List.cons_append, List.cons_append, List.append_assoc, readExponent?,
      if_pos (by simpa using hletter)]
    simp only [readSign_append hsign h, h.read hrest.endsDigits, Option.map_some,
      List.cons_append]

/-- Neither digits nor a point come next after the fraction. -/
theorem Exponent.head?_append (h : Exponent chars) (hrest : EndsNumber rest) :
    ∀ c ∈ (chars ++ rest).head?, c.isDigit = false ∧ c ≠ '.' := by
  intro c hc
  cases h with
  | none => exact ⟨(hrest c hc).1, (hrest c hc).2.1⟩
  | digits hletter =>
    obtain rfl : _ = c := by simpa using hc
    rcases hletter with rfl | rfl <;> decide

theorem Whole.head (h : Whole chars) :
    ∃ first others, chars = first :: others ∧ first.isDigit = true := by
  cases h with
  | zero => exact ⟨_, _, rfl, rfl⟩
  | digits _ h => exact ⟨_, _, rfl, h.2 _ List.mem_cons_self⟩

/-- A number is read as far as it goes. -/
theorem Numeral.read (h : Numeral chars) (hrest : EndsNumber rest) :
    readNumber? (chars ++ rest) = some (chars, rest) := by
  cases h with
  | @mk sign whole fraction exponent hsign hwhole hfraction hexponent =>
    have hpoint := hexponent.head?_append hrest
    have hafter : EndsDigits (fraction ++ (exponent ++ rest)) := by
      cases hfraction with
      | none => exact fun c hc ↦ (hpoint c hc).1
      | digits h =>
        intro c hc
        obtain rfl : '.' = c := by simpa using hc
        rfl
    have hwhole' := hwhole.read hafter
    have hfraction' := hfraction.read (fun c hc ↦ (hpoint c hc).1)
      (fun hhead ↦ (hpoint '.' hhead).2 rfl)
    have hexponent' := hexponent.read hrest
    obtain ⟨first, others, rfl, hfirst⟩ := hwhole.head
    simp only [List.append_assoc]
    rcases hsign with rfl | rfl
    · unfold readNumber?
      split
      next minus ahead hminus =>
      split at hminus
      · next hhead =>
        rw [(List.cons.inj hhead).1] at hfirst
        cases hfirst
      · cases hminus
        simp only [List.nil_append, hwhole', hfraction', hexponent', Option.bind_eq_bind,
          Option.bind_some, Option.pure_def, List.append_assoc]
    · simp only [List.singleton_append, readNumber?, hwhole', hfraction', hexponent',
        Option.bind_eq_bind, Option.bind_some, Option.pure_def, List.append_assoc]
      rfl

/-- A number begins with a digit or a sign. -/
theorem Numeral.head (h : Numeral chars) :
    ∃ first others, chars = first :: others ∧ (first.isDigit = true ∨ first = '-') := by
  cases h with
  | mk hsign hwhole =>
    obtain ⟨first, others, rfl, hfirst⟩ := hwhole.head
    rcases hsign with rfl | rfl
    · exact ⟨first, _, rfl, .inl hfirst⟩
    · exact ⟨'-', _, rfl, .inr rfl⟩

/-- What is read as digits are digits. -/
theorem digits_of_readDigits? {digits : List Char} (h : readDigits? ahead = some (digits, rest)) :
    Digits digits ∧ ahead = digits ++ rest := by
  have hall : ∀ c ∈ ahead.takeWhile Char.isDigit, c.isDigit = true :=
    List.all_eq_true.mp List.all_takeWhile
  have happend : ahead.takeWhile Char.isDigit ++ ahead.dropWhile Char.isDigit = ahead :=
    List.takeWhile_append_dropWhile
  rw [readDigits?] at h
  split at h
  · cases h
  · next hne =>
    cases h
    exact ⟨⟨fun hnil ↦ hne hnil, hall⟩, happend.symm⟩

theorem whole_of_readWhole? {whole : List Char} (h : readWhole? ahead = some (whole, rest)) :
    Whole whole ∧ ahead = whole ++ rest := by
  unfold readWhole? at h
  split at h
  · cases h
    exact ⟨.zero, rfl⟩
  · next hzero =>
    obtain ⟨hdigits, rfl⟩ := digits_of_readDigits? h
    cases whole with
    | nil => exact absurd rfl hdigits.1
    | cons first others => exact ⟨.digits (fun hfirst ↦ hzero _ (by rw [hfirst]; rfl)) hdigits, rfl⟩

theorem fraction_of_readFraction? {fraction : List Char}
    (h : readFraction? ahead = some (fraction, rest)) :
    Fraction fraction ∧ ahead = fraction ++ rest := by
  unfold readFraction? at h
  split at h
  · obtain ⟨⟨digits, after⟩, hread, hsame⟩ := Option.map_eq_some_iff.mp h
    cases hsame
    obtain ⟨hdigits, rfl⟩ := digits_of_readDigits? hread
    exact ⟨.digits hdigits, rfl⟩
  · cases h
    exact ⟨.none, rfl⟩

theorem exists_readSign (ahead : List Char) :
    ∃ sign after, readSign ahead = (sign, after) ∧ (sign = [] ∨ sign = ['+'] ∨ sign = ['-']) ∧
      ahead = sign ++ after := by
  unfold readSign
  split
  · exact ⟨_, _, rfl, .inr (.inl rfl), rfl⟩
  · exact ⟨_, _, rfl, .inr (.inr rfl), rfl⟩
  · exact ⟨_, _, rfl, .inl rfl, rfl⟩

theorem exponent_of_readExponent? {exponent : List Char}
    (h : readExponent? ahead = some (exponent, rest)) :
    Exponent exponent ∧ ahead = exponent ++ rest := by
  unfold readExponent? at h
  split at h
  · cases h
    exact ⟨.none, rfl⟩
  · next letter after =>
    split at h
    · next hletter =>
      obtain ⟨sign, next, hread, hsign, rfl⟩ := exists_readSign after
      simp only [hread] at h
      obtain ⟨⟨digits, last⟩, hread, hsame⟩ := Option.map_eq_some_iff.mp h
      cases hsame
      obtain ⟨hdigits, rfl⟩ := digits_of_readDigits? hread
      exact ⟨.digits (by simpa using hletter) hsign hdigits, by simp⟩
    · cases h
      exact ⟨.none, rfl⟩

/-- What is read as a number is one. -/
theorem numeral_of_readNumber? {literal : List Char}
    (h : readNumber? ahead = some (literal, rest)) : Numeral literal ∧ ahead = literal ++ rest := by
  have hparts : ∀ {sign after : List Char}, sign = [] ∨ sign = ['-'] →
      ((readWhole? after).bind fun whole ↦ (readFraction? whole.2).bind fun fraction ↦
        (readExponent? fraction.2).bind fun exponent ↦
          some (sign ++ whole.1 ++ fraction.1 ++ exponent.1, exponent.2)) = some (literal, rest) →
      Numeral literal ∧ sign ++ after = literal ++ rest := by
    intro sign after hsign hread
    simp only [Option.bind_eq_some_iff, Option.some.injEq, Prod.mk.injEq, Prod.exists] at hread
    obtain ⟨whole, _, hfirst, fraction, _, hsecond, exponent, _, hthird, rfl, rfl⟩ := hread
    obtain ⟨hwhole, rfl⟩ := whole_of_readWhole? hfirst
    obtain ⟨hfraction, rfl⟩ := fraction_of_readFraction? hsecond
    obtain ⟨hexponent, rfl⟩ := exponent_of_readExponent? hthird
    refine ⟨.mk hsign hwhole hfraction hexponent, ?_⟩
    simp only [List.append_assoc]
  unfold readNumber? at h
  split at h
  next sign after hsign =>
  split at hsign
  · cases hsign
    exact hparts (.inr rfl) h
  · cases hsign
    exact hparts (.inl rfl) h

/-! ### Reading texts -/

theorem HexDigit.read {value : Nat} (h : HexDigit c value) : hexDigit? c = some value := by
  have hall : ∀ value < 16, hexDigit? (Nat.digitChar value) = some value ∧
      hexDigit? (Nat.digitChar value).toUpper = some value := by decide
  rcases h.2 with rfl | rfl
  · exact (hall value h.1).1
  · exact (hall value h.1).2

/-- No escape of one letter begins like one of four digits. -/
theorem escaped?_of_mem {letter : Char} (h : (letter, c) ∈ letters) :
    escaped? letter = some c ∧ letter ≠ 'u' := by
  simp only [letters, List.mem_cons, Prod.mk.injEq, List.not_mem_nil, or_false] at h
  rcases h with ⟨rfl, rfl⟩ | ⟨rfl, rfl⟩ | ⟨rfl, rfl⟩ | ⟨rfl, rfl⟩ | ⟨rfl, rfl⟩ | ⟨rfl, rfl⟩ |
    ⟨rfl, rfl⟩ | ⟨rfl, rfl⟩ <;> exact ⟨rfl, by decide⟩

/-- The characters inside quotes are read up to the closing one. -/
theorem Units.read (h : Units units chars) (rest : List Char) :
    readText? (chars ++ '"' :: rest) = some (units, rest) := by
  induction h with
  | nil => rfl
  | plain hcontrol hquote hslash _ ih =>
    simp [readText?, hslash, Nat.not_lt.mpr hcontrol, ih]
  | letter hletter _ ih =>
    obtain ⟨hescaped, hne⟩ := escaped?_of_mem hletter
    simp [readText?, hne, hescaped, ih]
  | code ha hb hc hd _ ih => simp [readText?, hexUnit?, ha.read, hb.read, hc.read, hd.read, ih]

theorem hexDigit_of_hexDigit? {value : Nat} (h : hexDigit? c = some value) :
    HexDigit c value := by
  have hall : ∀ code < 0x80, ∀ value ∈ hexDigit? (Char.ofNat code), value < 16 ∧
      (Char.ofNat code = Nat.digitChar value ∨
        Char.ofNat code = (Nat.digitChar value).toUpper) := by
    decide +kernel
  have hbound : c.toNat < 0x80 := by
    have hle : ∀ last : Char, c ≤ last → c.toNat ≤ last.toNat := fun _ ↦ id
    unfold hexDigit? at h
    split at h
    · next hdigit => exact Nat.lt_of_le_of_lt (hle '9' hdigit.2) (by decide)
    · split at h
      · next hsmall => exact Nat.lt_of_le_of_lt (hle 'f' hsmall.2) (by decide)
      · split at h
        · next hlarge => exact Nat.lt_of_le_of_lt (hle 'F' hlarge.2) (by decide)
        · cases h
  have hdigit := hall c.toNat hbound value
  rw [Char.ofNat_toNat] at hdigit
  exact hdigit h

theorem mem_letters_of_escaped? {letter : Char} (h : escaped? letter = some c) :
    (letter, c) ∈ letters := by
  unfold escaped? at h
  split at h <;> cases h <;> decide

/-- What is read inside quotes is written there. -/
theorem units_of_readText? (h : readText? ahead = some (units, rest)) :
    ∃ chars, Units units chars ∧ ahead = chars ++ '"' :: rest := by
  induction ahead using readText?.induct generalizing units with
  | case1 => cases h
  | case2 after =>
    cases h
    exact ⟨[], .nil, rfl⟩
  | case3 a b c d after ih =>
    simp only [readText?, hexUnit?, Option.bind_eq_bind, Option.bind_eq_some_iff, Option.pure_def,
      Option.some.injEq, Prod.mk.injEq, Prod.exists] at h
    obtain ⟨_, ⟨first, ha, second, hb, third, hc, fourth, hd, rfl⟩, units, _, hread, rfl, rfl⟩ := h
    obtain ⟨chars, hchars, rfl⟩ := ih hread
    exact ⟨_, .code (hexDigit_of_hexDigit? ha) (hexDigit_of_hexDigit? hb)
      (hexDigit_of_hexDigit? hc) (hexDigit_of_hexDigit? hd) hchars, rfl⟩
  | case4 letter after hcode ih =>
    rw [readText?] at h
    · simp only [Option.bind_eq_bind, Option.bind_eq_some_iff, Option.pure_def,
        Option.some.injEq, Prod.mk.injEq, Prod.exists] at h
      obtain ⟨c, hletter, units, _, hread, rfl, rfl⟩ := h
      obtain ⟨chars, hchars, rfl⟩ := ih hread
      exact ⟨_, .letter (mem_letters_of_escaped? hletter) hchars, rfl⟩
    · exact hcode
  | case5 c after hquote hcode hletter hcontrol =>
    rw [readText?, if_pos hcontrol] at h
    · cases h
    all_goals assumption
  | case6 c after hquote hcode hletter hcontrol ih =>
    rw [readText?, if_neg hcontrol] at h
    · simp only [Option.bind_eq_bind, Option.bind_eq_some_iff, Option.pure_def,
        Option.some.injEq, Prod.mk.injEq, Prod.exists] at h
      obtain ⟨units, _, hread, rfl, rfl⟩ := h
      have hslash : c ≠ '\\' := by
        rintro rfl
        cases after with
        | nil => cases hread
        | cons next after => exact hletter next after rfl rfl
      obtain ⟨chars, hchars, rfl⟩ := ih hread
      exact ⟨_, .plain (Nat.not_lt.mp hcontrol) hquote hslash hchars, rfl⟩
    all_goals assumption

/-- The codes of characters leave out the halves of surrogate pairs. -/
theorem valid_toNat (c : Char) : c.toNat < 0xD800 ∨ 0xDFFF < c.toNat ∧ c.toNat < 0x110000 :=
  c.valid

theorem not_surrogate (c : Char) :
    isHighSurrogate c.toNat = false ∧ isLowSurrogate c.toNat = false := by
  have hvalid := valid_toNat c
  simp only [isHighSurrogate, isLowSurrogate, Bool.and_eq_false_iff, decide_eq_false_iff_not]
  omega

theorem Encodes.assemble? {characters : List Char} (h : Encodes units characters) :
    assemble? units = some characters := by
  induction h with
  | nil => rfl
  | @one c units _ _ ih =>
    obtain ⟨hhigh, hlow⟩ := not_surrogate c
    cases units with
    | nil =>
      obtain rfl := Option.some.inj ih
      simp [Json.assemble?, hhigh, hlow, Char.ofNat_toNat]
    | cons next units => simp [Json.assemble?, hhigh, hlow, ih, Char.ofNat_toNat]
  | @pair c units _ hc _ ih =>
    have hvalid := valid_toNat c
    have hhigh : isHighSurrogate (0xD800 + (c.toNat - 0x10000) / 0x400) = true := by
      simp only [isHighSurrogate, Bool.and_eq_true, decide_eq_true_eq]
      omega
    have hlow : isLowSurrogate (0xDC00 + (c.toNat - 0x10000) % 0x400) = true := by
      simp only [isLowSurrogate, Bool.and_eq_true, decide_eq_true_eq]
      omega
    have hjoin : joinSurrogates (0xD800 + (c.toNat - 0x10000) / 0x400)
        (0xDC00 + (c.toNat - 0x10000) % 0x400) = c.toNat := by
      unfold joinSurrogates
      omega
    rw [Json.assemble?, if_pos hhigh, if_pos hlow, hjoin, ih, Char.ofNat_toNat]
    rfl

theorem toNat_ofNat {code : Nat} (h : code.isValidChar) : (Char.ofNat code).toNat = code := by
  rw [Char.ofNat, dif_pos h]
  rfl

/-- A number within bounds that is no half of a pair is the code of a character. -/
theorem Encodes.ofNat {unit : Nat} {characters : List Char} (hbound : unit < 0x110000)
    (hhigh : isHighSurrogate unit = false) (hlow : isLowSurrogate unit = false)
    (h : Encodes units characters) : Encodes (unit :: units) (Char.ofNat unit :: characters) := by
  have hvalid : unit.isValidChar := by
    simp only [isHighSurrogate, isLowSurrogate, Bool.and_eq_false_iff,
      decide_eq_false_iff_not] at hhigh hlow
    unfold Nat.isValidChar
    omega
  have hone := Encodes.one (Char.ofNat unit) h
  rwa [toNat_ofNat hvalid] at hone

/-- The halves of a pair stand for a character. -/
theorem Encodes.join {high low : Nat} {characters : List Char} (hhigh : isHighSurrogate high = true)
    (hlow : isLowSurrogate low = true) (h : Encodes units characters) :
    Encodes (high :: low :: units) (Char.ofNat (joinSurrogates high low) :: characters) := by
  simp only [isHighSurrogate, isLowSurrogate, Bool.and_eq_true, decide_eq_true_eq] at hhigh hlow
  have hvalid : (joinSurrogates high low).isValidChar := by
    unfold Nat.isValidChar joinSurrogates
    omega
  have hpair := Encodes.pair (c := Char.ofNat (joinSurrogates high low))
    (by rw [toNat_ofNat hvalid]; unfold joinSurrogates; omega) h
  have hfirst : 0xD800 + (joinSurrogates high low - 0x10000) / 0x400 = high := by
    unfold joinSurrogates
    omega
  have hsecond : 0xDC00 + (joinSurrogates high low - 0x10000) % 0x400 = low := by
    unfold joinSurrogates
    omega
  rwa [toNat_ofNat hvalid, hfirst, hsecond] at hpair

/-- What is put together from numbers within bounds is what they stand for. -/
theorem encodes_of_assemble? {characters : List Char} (hbound : ∀ unit ∈ units, unit < 0x110000)
    (h : assemble? units = some characters) : Encodes units characters := by
  induction units using Json.assemble?.induct generalizing characters with
  | case1 =>
    obtain rfl := Option.some.inj h
    exact .nil
  | case2 unit hhalf =>
    rw [assemble?, if_pos hhalf] at h
    cases h
  | case3 unit hwhole =>
    rw [assemble?, if_neg hwhole] at h
    obtain rfl := Option.some.inj h
    rw [Bool.not_eq_true, Bool.or_eq_false_iff] at hwhole
    exact .ofNat (hbound unit List.mem_cons_self) hwhole.1 hwhole.2 .nil
  | case4 high low units hhigh hlow ih =>
    rw [assemble?, if_pos hhigh, if_pos hlow, Option.map_eq_some_iff] at h
    obtain ⟨others, hothers, rfl⟩ := h
    refine .join hhigh hlow (ih (fun unit hmem ↦ hbound unit ?_) hothers)
    exact List.mem_cons_of_mem _ (List.mem_cons_of_mem _ hmem)
  | case5 high low units hhigh hlow =>
    rw [assemble?, if_pos hhigh, if_neg hlow] at h
    cases h
  | case6 low next units hhigh hlow =>
    rw [assemble?, if_neg hhigh, if_pos hlow] at h
    cases h
  | case7 unit next units hhigh hlow ih =>
    rw [assemble?, if_neg hhigh, if_neg hlow, Option.map_eq_some_iff] at h
    obtain ⟨others, hothers, rfl⟩ := h
    rw [Bool.not_eq_true] at hhigh hlow
    refine .ofNat (hbound unit List.mem_cons_self) hhigh hlow (ih (fun unit hmem ↦ ?_) hothers)
    exact hbound unit (List.mem_cons_of_mem _ hmem)

theorem Units.bound (h : Units units chars) : ∀ unit ∈ units, unit < 0x110000 := by
  induction h with
  | nil => exact nofun
  | @plain c _ _ _ _ _ _ ih | @letter _ c _ _ _ _ ih =>
    have hvalid := valid_toNat c
    exact List.forall_mem_cons.mpr ⟨by omega, ih⟩
  | code ha hb hc hd _ ih =>
    have hbounds := And.intro (And.intro ha.1 hb.1) (And.intro hc.1 hd.1)
    exact List.forall_mem_cons.mpr ⟨by omega, ih⟩

/-- The text that characters inside quotes are read as is what they mean. -/
theorem Units.text?_eq_iff (h : Units units chars) {text : Option String} :
    text? units = text ↔ Means units text := by
  have hencodes : ∀ characters, assemble? units = some characters ↔ Encodes units characters :=
    fun _ ↦ ⟨encodes_of_assemble? h.bound, Encodes.assemble?⟩
  cases text with
  | none =>
    rw [text?, Option.map_eq_none_iff, Option.eq_none_iff_forall_ne_some]
    exact forall_congr' fun characters ↦ not_congr (hencodes characters)
  | some text =>
    rw [Means, ← hencodes, text?, Option.map_eq_some_iff]
    constructor
    · rintro ⟨characters, hcharacters, rfl⟩
      rwa [String.toList_ofList]
    · exact fun hcharacters ↦ ⟨_, hcharacters, String.ofList_toList⟩

end Admission.Json
