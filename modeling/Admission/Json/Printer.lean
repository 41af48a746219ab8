import Admission.Json

/-!
# Writing JSON

A value is written either on one line or with one item to a line. Texts are escaped where the
grammar asks for it and are otherwise written as they are. A text that could not be read is written
as an empty one.
-/

set_option autoImplicit false
set_option relaxedAutoImplicit false

namespace Admission.Json

/-- A character inside quotes. -/
def writeChar (c : Char) : List Char :=
  if c = '"' then ['\\', '"']
  else if c = '\\' then ['\\', '\\']
  else if c = '\n' then ['\\', 'n']
  else if c = '\r' then ['\\', 'r']
  else if c = '\t' then ['\\', 't']
  else if c = '\x08' then ['\\', 'b']
  else if c = '\x0c' then ['\\', 'f']
  else if c.toNat < 0x20 then
    ['\\', 'u', '0', '0', Nat.digitChar (c.toNat / 16), Nat.digitChar (c.toNat % 16)]
  else [c]

/-- A text in quotes. -/
def writeText (text : String) : List Char := '"' :: text.toList.flatMap writeChar ++ ['"']

mutual

/-- A value on one line. -/
def write : Json → List Char
  | .null => "null".toList
  | .bool true => "true".toList
  | .bool false => "false".toList
  | .number literal => literal.toList
  | .string text => writeText (text.getD "")
  | .array [] => ['[', ']']
  | .array (item :: items) => '[' :: write item ++ writeItems items
  | .object [] => ['\x7b', '\x7d']
  | .object ((name, value) :: members) =>
    '\x7b' :: writeText (name.getD "") ++ ':' :: write value ++ writeMembers members

/-- The items after the first and the closing bracket. -/
def writeItems : List Json → List Char
  | [] => [']']
  | item :: items => ',' :: write item ++ writeItems items

/-- The members after the first and the closing brace. -/
def writeMembers : List (Option String × Json) → List Char
  | [] => ['\x7d']
  | (name, value) :: members =>
    ',' :: writeText (name.getD "") ++ ':' :: write value ++ writeMembers members

end

/-- A line break and the given number of steps of indentation. -/
def lineBreak (depth : Nat) : List Char := '\n' :: List.replicate (2 * depth) ' '

mutual

/-- A value with one item to a line, at the given depth. -/
def layOut (depth : Nat) : Json → List Char
  | .null => "null".toList
  | .bool true => "true".toList
  | .bool false => "false".toList
  | .number literal => literal.toList
  | .string text => writeText (text.getD "")
  | .array [] => ['[', ']']
  | .array (item :: items) =>
    '[' :: lineBreak (depth + 1) ++ layOut (depth + 1) item ++ layOutItems depth items
  | .object [] => ['\x7b', '\x7d']
  | .object ((name, value) :: members) =>
    '\x7b' :: lineBreak (depth + 1) ++ writeText (name.getD "") ++ ':' :: ' ' ::
      layOut (depth + 1) value ++ layOutMembers depth members

/-- The items after the first and the closing bracket. -/
def layOutItems (depth : Nat) : List Json → List Char
  | [] => lineBreak depth ++ [']']
  | item :: items =>
    ',' :: lineBreak (depth + 1) ++ layOut (depth + 1) item ++ layOutItems depth items

/-- The members after the first and the closing brace. -/
def layOutMembers (depth : Nat) : List (Option String × Json) → List Char
  | [] => lineBreak depth ++ ['\x7d']
  | (name, value) :: members =>
    ',' :: lineBreak (depth + 1) ++ writeText (name.getD "") ++ ':' :: ' ' ::
      layOut (depth + 1) value ++ layOutMembers depth members

end

/-- The text of a value on one line. -/
def compress (value : Json) : String := String.ofList (write value)

/-- The text of a value with one item to a line. -/
def pretty (value : Json) : String := String.ofList (layOut 0 value)

end Admission.Json
