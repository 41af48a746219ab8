import Admission.Json

/-!
# Reading JSON

`Json.parse?` reads a whole text as one value, blanks around it allowed. It accepts what the JSON
grammar derives and nothing else. Escapes are read as numbers first and put together afterwards, so
a text is well formed even when its escapes name no characters; `assemble?` tells the two apart.

Each reader takes the characters ahead and answers what it read and what is left.
-/

set_option autoImplicit false
set_option relaxedAutoImplicit false

namespace Admission.Json

/-! ### Blanks and words -/

/-- The characters that may stand between tokens. -/
def isBlank (c : Char) : Bool := c = ' ' || c = '\t' || c = '\n' || c = '\r'

/-- The characters ahead without the blanks in front. -/
def skipBlanks (ahead : List Char) : List Char := ahead.dropWhile isBlank

/-- What follows a given word. -/
def stripWord? : List Char → List Char → Option (List Char)
  | [], ahead => some ahead
  | c :: word, d :: ahead => if c = d then stripWord? word ahead else none
  | _ :: _, [] => none

/-! ### Texts -/

/-- The value of a hexadecimal digit. -/
def hexDigit? (c : Char) : Option Nat :=
  if '0' ≤ c ∧ c ≤ '9' then some (c.toNat - '0'.toNat)
  else if 'a' ≤ c ∧ c ≤ 'f' then some (c.toNat - 'a'.toNat + 10)
  else if 'A' ≤ c ∧ c ≤ 'F' then some (c.toNat - 'A'.toNat + 10)
  else none

/-- The number that four hexadecimal digits name. -/
def hexUnit? (a b c d : Char) : Option Nat := do
  let a ← hexDigit? a
  let b ← hexDigit? b
  let c ← hexDigit? c
  let d ← hexDigit? d
  return ((a * 16 + b) * 16 + c) * 16 + d

/-- The character that a one-letter escape names. -/
def escaped? (c : Char) : Option Char :=
  match c with
  | '"' => some '"'
  | '\\' => some '\\'
  | '/' => some '/'
  | 'b' => some '\x08'
  | 'f' => some '\x0c'
  | 'n' => some '\n'
  | 'r' => some '\r'
  | 't' => some '\t'
  | _ => none

/-- Reads a text up to its closing quote, as code points and halves of surrogate pairs. -/
def readText? : List Char → Option (List Nat × List Char)
  | [] => none
  | '"' :: rest => some ([], rest)
  | '\\' :: 'u' :: a :: b :: c :: d :: rest => do
    let unit ← hexUnit? a b c d
    let (units, rest) ← readText? rest
    return (unit :: units, rest)
  | '\\' :: c :: rest => do
    let c ← escaped? c
    let (units, rest) ← readText? rest
    return (c.toNat :: units, rest)
  | c :: rest =>
    if c.toNat < 0x20 then none
    else do
      let (units, rest) ← readText? rest
      return (c.toNat :: units, rest)

/-- Whether a number is the first half of a surrogate pair. -/
def isHighSurrogate (unit : Nat) : Bool := 0xD800 ≤ unit && unit ≤ 0xDBFF

/-- Whether a number is the second half of a surrogate pair. -/
def isLowSurrogate (unit : Nat) : Bool := 0xDC00 ≤ unit && unit ≤ 0xDFFF

/-- The code point that a surrogate pair stands for. -/
def joinSurrogates (high low : Nat) : Nat := 0x10000 + (high - 0xD800) * 0x400 + (low - 0xDC00)

/-- The characters that code points and surrogate pairs stand for. -/
def assemble? : List Nat → Option (List Char)
  | [] => some []
  | [unit] =>
    if isHighSurrogate unit || isLowSurrogate unit then none else some [Char.ofNat unit]
  | unit :: next :: rest =>
    if isHighSurrogate unit then
      if isLowSurrogate next then (assemble? rest).map (Char.ofNat (joinSurrogates unit next) :: ·)
      else none
    else if isLowSurrogate unit then none
    else (assemble? (next :: rest)).map (Char.ofNat unit :: ·)

/-- The text of a list of code points and surrogate pairs. -/
def text? (units : List Nat) : Option String := (assemble? units).map String.ofList

/-! ### Numbers -/

/-- A nonempty run of decimal digits. -/
def readDigits? (ahead : List Char) : Option (List Char × List Char) :=
  match ahead.takeWhile Char.isDigit with
  | [] => none
  | digits => some (digits, ahead.dropWhile Char.isDigit)

/-- The whole part of a number: a zero alone, or digits that start with another. -/
def readWhole? : List Char → Option (List Char × List Char)
  | '0' :: rest => some (['0'], rest)
  | ahead => readDigits? ahead

/-- The fraction of a number, which may be missing. -/
def readFraction? : List Char → Option (List Char × List Char)
  | '.' :: rest => (readDigits? rest).map fun (digits, rest) ↦ ('.' :: digits, rest)
  | ahead => some ([], ahead)

/-- A sign, which may be missing. -/
def readSign : List Char → List Char × List Char
  | '+' :: rest => (['+'], rest)
  | '-' :: rest => (['-'], rest)
  | ahead => ([], ahead)

/-- The exponent of a number, which may be missing. -/
def readExponent? : List Char → Option (List Char × List Char)
  | [] => some ([], [])
  | c :: rest =>
    if c = 'e' || c = 'E' then
      let (sign, rest) := readSign rest
      (readDigits? rest).map fun (digits, rest) ↦ (c :: sign ++ digits, rest)
    else some ([], c :: rest)

/-- The spelling of a number. -/
def readNumber? (ahead : List Char) : Option (List Char × List Char) := do
  let (minus, ahead) := match ahead with
    | '-' :: rest => (['-'], rest)
    | _ => ([], ahead)
  let (whole, ahead) ← readWhole? ahead
  let (fraction, ahead) ← readFraction? ahead
  let (exponent, ahead) ← readExponent? ahead
  return (minus ++ whole ++ fraction ++ exponent, ahead)

/-! ### Values

The fuel bounds the depth of the calls. Every call that does not use up a character is followed by
one that does, so twice the number of characters is enough. -/

mutual

/-- Reads a value. -/
def readValue? : Nat → List Char → Option (Json × List Char)
  | 0, _ => none
  | fuel + 1, ahead =>
    match skipBlanks ahead with
    | [] => none
    | '"' :: rest => (readText? rest).map fun (units, rest) ↦ (.string (text? units), rest)
    | '[' :: rest =>
      match skipBlanks rest with
      | ']' :: rest => some (.array [], rest)
      | rest => (readItems? fuel rest).map fun (items, rest) ↦ (.array items, rest)
    | '\x7b' :: rest =>
      match skipBlanks rest with
      | '\x7d' :: rest => some (.object [], rest)
      | rest => (readMembers? fuel rest).map fun (members, rest) ↦ (.object members, rest)
    | 'n' :: rest => (stripWord? "ull".toList rest).map fun rest ↦ (.null, rest)
    | 't' :: rest => (stripWord? "rue".toList rest).map fun rest ↦ (.bool true, rest)
    | 'f' :: rest => (stripWord? "alse".toList rest).map fun rest ↦ (.bool false, rest)
    | rest =>
      (readNumber? rest).map fun (literal, rest) ↦ (.number (String.ofList literal), rest)

/-- Reads the items of an array and its closing bracket. -/
def readItems? : Nat → List Char → Option (List Json × List Char)
  | 0, _ => none
  | fuel + 1, ahead => do
    let (item, rest) ← readValue? fuel ahead
    match skipBlanks rest with
    | ']' :: rest => return ([item], rest)
    | ',' :: rest => do
      let (items, rest) ← readItems? fuel rest
      return (item :: items, rest)
    | _ => none

/-- Reads the members of an object and its closing brace. -/
def readMembers? : Nat → List Char → Option (List (Option String × Json) × List Char)
  | 0, _ => none
  | fuel + 1, ahead =>
    match skipBlanks ahead with
    | '"' :: rest => do
      let (units, rest) ← readText? rest
      match skipBlanks rest with
      | ':' :: rest => do
        let (value, rest) ← readValue? fuel rest
        match skipBlanks rest with
        | '\x7d' :: rest => return ([(text? units, value)], rest)
        | ',' :: rest => do
          let (members, rest) ← readMembers? fuel rest
          return ((text? units, value) :: members, rest)
        | _ => none
      | _ => none
    | _ => none

end

/-- The value that a whole text stands for. -/
def parse? (text : String) : Option Json :=
  match readValue? (2 * text.length + 2) text.toList with
  | none => none
  | some (value, rest) => if (skipBlanks rest).isEmpty then some value else none

end Admission.Json
