/-!
# Identifiers of events

An event has an identifier of 128 bits. It is written as thirty-two hexadecimal digits in lower
case, in groups of eight, four, four, four and twelve with hyphens between them. It is also read
without the hyphens, in braces, and behind the words `urn:uuid:`, and capitals count as small
letters throughout.
-/

set_option autoImplicit false
set_option relaxedAutoImplicit false

namespace Admission

/-- An identifier of an event. -/
structure EventId where
  bits : BitVec 128
deriving DecidableEq, Inhabited

namespace EventId

/-- The lengths of the groups of digits. -/
def groupLengths : List Nat := [8, 4, 4, 4, 12]

/-- Puts digits into groups with hyphens between them. -/
def group (digits : List Char) : List Nat → List Char
  | [] => digits
  | [_] => digits
  | length :: lengths => digits.take length ++ '-' :: group (digits.drop length) lengths

/-- Takes out the hyphens between the groups. There is no value if one is missing. -/
def ungroup? (ahead : List Char) : List Nat → Option (List Char)
  | [] => some ahead
  | [_] => some ahead
  | length :: lengths =>
    match ahead.drop length with
    | '-' :: rest => (ungroup? rest lengths).map (ahead.take length ++ ·)
    | _ => none

/-- The identifier as text. -/
def text (id : EventId) : String :=
  let digits := Nat.toDigits 16 id.bits.toNat
  String.ofList (group (List.replicate (32 - digits.length) '0' ++ digits) groupLengths)

/-- The value of a hexadecimal digit in either case. -/
def digit? (c : Char) : Option Nat :=
  if '0' ≤ c ∧ c ≤ '9' then some (c.toNat - '0'.toNat)
  else if 'a' ≤ c ∧ c ≤ 'f' then some (c.toNat - 'a'.toNat + 10)
  else if 'A' ≤ c ∧ c ≤ 'F' then some (c.toNat - 'A'.toNat + 10)
  else none

/-- Reads thirty-two digits. -/
def ofDigits? (digits : List Char) : Option EventId :=
  if digits.length = 32 then
    (digits.mapM digit?).map fun values ↦
      ⟨BitVec.ofNat 128 (values.foldl (fun total value ↦ 16 * total + value) 0)⟩
  else none

/-- Reads digits in groups. -/
def ofGroups? (letters : List Char) : Option EventId :=
  (ungroup? letters groupLengths).bind ofDigits?

/-- What stands in front of an identifier that is written as a name, in either case. -/
def scheme : String := "urn:uuid:"

/-- Reads an identifier. -/
def ofText? (text : String) : Option EventId :=
  let letters := text.toList
  match letters with
  | '\x7b' :: rest =>
    match rest.reverse with
    | '\x7d' :: inner => ofGroups? inner.reverse
    | _ => none
  | _ =>
    if letters.length = 32 then ofDigits? letters
    else if (letters.take scheme.length).map Char.toLower = scheme.toList then
      ofGroups? (letters.drop scheme.length)
    else ofGroups? letters

end EventId

end Admission
