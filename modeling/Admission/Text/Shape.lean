import Admission.Text.Printable

/-!
# Values written out for a diagnosis

A value is written as the name of its type followed by its parts: named fields in braces, plain
parts in parentheses, and a text in quotes. A record that keeps some of its fields to itself ends in
two dots.
-/

set_option autoImplicit false
set_option relaxedAutoImplicit false

namespace Admission.Text

/-- The hexadecimal digits of a number, in lower case. -/
def hexDigits (value : Nat) : List Char := Nat.toDigits 16 value

/-- A character inside quotes. Quotes and backslashes are escaped, and so is a character that
cannot be shown. -/
def escapeChar (c : Char) : List Char :=
  if c = '"' then ['\\', '"']
  else if c = '\\' then ['\\', '\\']
  else if c = '\n' then ['\\', 'n']
  else if c = '\r' then ['\\', 'r']
  else if c = '\t' then ['\\', 't']
  else if c = '\x00' then ['\\', '0']
  else if isPrintable c then [c]
  else ['\\', 'u', '\x7b'] ++ hexDigits c.toNat ++ ['\x7d']

/-- A text in quotes. -/
def quote (text : String) : String :=
  String.ofList (['"'] ++ text.toList.flatMap escapeChar ++ ['"'])

namespace Shape

/-- A truth value. -/
def ofBool (value : Bool) : String := if value then "true" else "false"

/-- A value that may be missing. -/
def ofOption {α : Type} (write : α → String) : Option α → String
  | none => "None"
  | some value => "Some(" ++ write value ++ ")"

/-- A name with one part in parentheses. -/
def wrapped (name part : String) : String := name ++ "(" ++ part ++ ")"

/-- The fields of a record, each with its name. -/
def fieldTexts (fields : List (String × String)) : List String :=
  fields.map fun field ↦ field.1 ++ ": " ++ field.2

/-- A record with all its fields. -/
def record (name : String) (fields : List (String × String)) : String :=
  name ++ " \x7b " ++ ", ".intercalate (fieldTexts fields) ++ " \x7d"

/-- A record that shows only some of its fields. -/
def openRecord (name : String) (fields : List (String × String)) : String :=
  name ++ " \x7b " ++ ", ".intercalate (fieldTexts fields ++ [".."]) ++ " \x7d"

end Shape

end Admission.Text
