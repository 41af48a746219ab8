import Admission.Json
import Admission.NameMap

/-!
# Records written as JSON

A record is read from an object or from an array. An object names the fields it sets, each at most
once, in any order, and may have members that are no fields. An array gives the values in the order
of the fields and may stop early. What is not given keeps the value it had at the start, so the
fields of a record are a list of `Field`s, each of which overwrites one part of the record.
-/

set_option autoImplicit false
set_option relaxedAutoImplicit false

namespace Admission.Json

/-! ### Plain values -/

/-- The truth value. -/
def bool? : Json → Option Bool
  | .bool value => some value
  | _ => none

/-- The text. -/
def string? : Json → Option String
  | .string text => text
  | _ => none

/-- The items of an array. -/
def array? : Json → Option (List Json)
  | .array items => some items
  | _ => none

/-- The number that a list of decimal digits names. -/
def digitsValue (digits : List Char) : Nat :=
  digits.foldl (fun value digit ↦ value * 10 + (digit.toNat - '0'.toNat)) 0

/-- A number written with digits alone and below a bound. -/
def nat? (bound : Nat) : Json → Option Nat
  | .number literal =>
    if literal.toList.all Char.isDigit && digitsValue literal.toList < bound then
      some (digitsValue literal.toList)
    else none
  | _ => none

/-- A number that fits a word of 32 bits. -/
def nat32? : Json → Option Nat := nat? 0x100000000

/-- A number that fits a word of 64 bits. -/
def nat64? : Json → Option Nat := nat? 0x10000000000000000

/-- A value that may be missing. -/
def optional? {α : Type} (read : Json → Option α) : Json → Option (Option α)
  | .null => some none
  | value => (read value).map some

/-- A list of values. -/
def list? {α : Type} (read : Json → Option α) (json : Json) : Option (List α) :=
  json.array?.bind fun items ↦ items.mapM read

/-- Adds the members of an object to a map. The last of several members with one name stays. -/
def insertMembers? {α : Type} (read : Json → Option α) :
    List (Option String × Json) → NameMap α → Option (NameMap α)
  | [], map => some map
  | (none, _) :: _, _ => none
  | (some name, value) :: members, map =>
    (read value).bind fun value ↦ insertMembers? read members (map.insert name value)

/-- A map from the member names of an object. -/
def nameMap? {α : Type} (read : Json → Option α) : Json → Option (NameMap α)
  | .object members => insertMembers? read members .empty
  | _ => none

/-! ### Records -/

/-- A field of a record: its name, and how its value overwrites that part of the record. -/
structure Field (α : Type) where
  name : String
  set? : Json → α → Option α

/-- A field that is read by `read` and stored by `store`. -/
def Field.of {α β : Type} (name : String) (read : Json → Option β) (store : β → α → α) :
    Field α where
  name
  set? json record := (read json).map fun value ↦ store value record

variable {α : Type}

/-- Overwrites the fields that the members name; `given` are the names given before. -/
def setMembers? (fields : List (Field α)) :
    List (Option String × Json) → List String → α → Option (α × List String)
  | [], given, record => some (record, given)
  | (none, _) :: _, _, _ => none
  | (some name, value) :: members, given, record =>
    match fields.find? fun field ↦ field.name = name with
    | none => setMembers? fields members given record
    | some field =>
      if name ∈ given then none
      else (field.set? value record).bind (setMembers? fields members (name :: given))

/-- Overwrites the leading fields by the items of an array. -/
def setItems? : List (Field α) → List Json → List String → α → Option (α × List String)
  | _, [], given, record => some (record, given)
  | [], _ :: _, _, _ => none
  | field :: fields, value :: values, given, record =>
    (field.set? value record).bind (setItems? fields values (field.name :: given))

/-- The record and the names of the fields that were given. -/
def fields? (fields : List (Field α)) (start : α) : Json → Option (α × List String)
  | .object members => setMembers? fields members [] start
  | .array values => setItems? fields values [] start
  | _ => none

/-- The record, fields that are not given keeping their values. -/
def record? (fields : List (Field α)) (start : α) (json : Json) : Option α :=
  (fields? fields start json).map Prod.fst

/-- The record, which must give every field. -/
def wholeRecord? (fields : List (Field α)) (start : α) (json : Json) : Option α :=
  (fields? fields start json).bind fun (record, given) ↦
    if fields.all fun field ↦ field.name ∈ given then some record else none

end Admission.Json
