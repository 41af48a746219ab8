/-!
# JSON values

A value is kept as its text says it: a number keeps its spelling, an object its members in order and
with repetitions. A text in quotes may name half of a surrogate pair, which no `String` can hold;
the value then keeps only that there was a text.
-/

set_option autoImplicit false
set_option relaxedAutoImplicit false

namespace Admission

/-- A JSON value. A text that is no sequence of characters is `none`. -/
inductive Json where
  | null
  | bool (value : Bool)
  | number (literal : String)
  | string (text : Option String)
  | array (items : List Json)
  | object (members : List (Option String × Json))
deriving Inhabited

namespace Json

/-- A text. -/
def ofText (text : String) : Json := .string (some text)

/-- A whole number. -/
def ofNat (value : Nat) : Json := .number (toString value)

/-- A value that may be missing. -/
def ofOption {α : Type} (write : α → Json) : Option α → Json
  | none => .null
  | some value => write value

/-- An object whose member names are texts. -/
def ofMembers (members : List (String × Json)) : Json :=
  .object (members.map fun member ↦ (some member.1, member.2))

/-- The members of a list under their names. -/
def ofEntries {α : Type} (write : α → Json) (entries : List (String × α)) : Json :=
  ofMembers (entries.map fun entry ↦ (entry.1, write entry.2))

/-- The value of a member of an object. -/
def member? (json : Json) (name : String) : Option Json :=
  match json with
  | .object members => (members.find? fun member ↦ member.1 = some name).map (·.2)
  | _ => none

end Json

end Admission
