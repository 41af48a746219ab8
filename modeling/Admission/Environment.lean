import Admission.Config.Json
import Admission.Files
import Admission.Text.Alphanumeric

/-!
# Configuration named by the environment

A variable of the environment may name the file that holds the configuration. Variables may also be
set by a file of assignments, one to a line, which never replaces a variable that is set already.

An assignment is a name, an equals sign and a value, perhaps after the word `export`. The value may
be put together from plain and quoted parts; a dollar sign outside single quotes stands for the
value of the variable whose name follows it, in braces or as far as letters and numbers go, and a
number sign after a blank starts a comment. A quoted part may contain line breaks, so lines are
found first: `logicalLines` breaks a text where no quote is open. Reading stops at the first line
that is no assignment.
-/

set_option autoImplicit false
set_option relaxedAutoImplicit false

namespace Admission.Environment

/-! ### Lines -/

/-- The characters that count as blank around names and values. -/
def isBlank (c : Char) : Bool :=
  let point := c.toNat
  (9 ≤ point && point ≤ 13) || point = 0x20 || point = 0x85 || point = 0xA0 || point = 0x1680 ||
    (0x2000 ≤ point && point ≤ 0x200A) || point = 0x2028 || point = 0x2029 || point = 0x202F ||
    point = 0x205F || point = 0x3000

/-- What a line is in the middle of. -/
inductive LineState where
  | plain
  /-- After a blank, where a comment may start. -/
  | blank
  | escape
  | singleQuoted
  | singleEscape
  | doubleQuoted
  | doubleEscape
deriving DecidableEq

/-- The state after a character outside quotes. -/
def LineState.outside (c : Char) : LineState :=
  if c = '\\' then .escape
  else if c = '"' then .doubleQuoted
  else if c = '\'' then .singleQuoted
  else .plain

/-- The state after a character. -/
def LineState.next (state : LineState) (c : Char) : LineState :=
  match state with
  | .plain => if isBlank c && c ≠ '\n' && c ≠ '\r' then .blank else .outside c
  | .blank => .outside c
  | .escape => .plain
  | .doubleQuoted => if c = '\\' then .doubleEscape else if c = '"' then .plain else .doubleQuoted
  | .doubleEscape => .doubleQuoted
  | .singleQuoted => if c = '\\' then .singleEscape else if c = '\'' then .plain else .singleQuoted
  | .singleEscape => .singleQuoted

/-- The part of a physical line before its comment, the state after it, and whether there is a
comment. -/
def scanLine : LineState → List Char → List Char × LineState × Bool
  | state, [] => ([], state, false)
  | state, c :: rest =>
    if state = .blank ∧ c = '#' then ([], state, true)
    else
      let (kept, state, comment) := scanLine (state.next c) rest
      (c :: kept, state, comment)

/-- The physical lines of a text, each with its line break. -/
def physicalLines : List Char → List (List Char)
  | [] => []
  | c :: rest =>
    if c = '\n' then [c] :: physicalLines rest
    else
      match physicalLines rest with
      | [] => [[c]]
      | line :: lines => (c :: line) :: lines

/-- A line without its line break. -/
def dropLineBreak (line : List Char) : List Char :=
  match line.reverse with
  | '\n' :: '\r' :: rest => rest.reverse
  | '\n' :: rest => rest.reverse
  | _ => line

/-- The lines of a text, broken where no quote is open. `pending` and `state` are what has been read
of the present line. A text that ends within a line ends in `none`. -/
def logicalLines : List (List Char) → List Char → LineState → List (Option (List Char))
  | [], _, state => if state = .plain then [] else [none]
  | line :: lines, pending, state =>
    let whole := pending ++ line
    if (whole.dropWhile isBlank).head? = some '#' then some [] :: logicalLines lines [] .plain
    else
      let (kept, next, comment) := scanLine state line
      if comment then some (pending ++ kept) :: logicalLines lines [] .plain
      else if next = .plain then some (dropLineBreak whole) :: logicalLines lines [] .plain
      else logicalLines lines whole next

/-! ### Values -/

/-- What a dollar sign is followed by. The letters of a name come last one first. -/
inductive Substitution where
  | none
  /-- A plain name. -/
  | name (letters : List Char)
  /-- A name in braces. -/
  | braced (letters : List Char)
deriving DecidableEq

/-- What has been read of a value. -/
structure ValueState where
  singleQuoted : Bool := false
  doubleQuoted : Bool := false
  escaped : Bool := false
  /-- Only a comment may follow. -/
  ending : Bool := false
  substitution : Substitution := .none
  /-- The value so far, its last character first. -/
  output : List Char := []

/-- A character after a backslash. -/
def unescape? (c : Char) : Option Char :=
  if c = '\\' ∨ c = '\'' ∨ c = '"' ∨ c = '$' ∨ c = ' ' then some c
  else if c = 'n' then some '\n'
  else none

namespace ValueState

/-- Adds a character to the output. -/
def push (state : ValueState) (c : Char) : ValueState := { state with output := c :: state.output }

/-- Adds the value of a variable to the output. -/
def substitute (state : ValueState) (lookUp : List Char → List Char) (letters : List Char) :
    ValueState :=
  { state with output := (lookUp letters.reverse).reverse ++ state.output, substitution := .none }

/-- The state after a character outside single quotes that belongs to no name. -/
def plain (state : ValueState) (c : Char) : ValueState :=
  if c = '$' then { state with substitution := .name [] }
  else if c = '\\' then { state with escaped := true }
  else if c = '"' then { state with doubleQuoted := !state.doubleQuoted }
  else if state.doubleQuoted then state.push c
  else if c = '\'' then { state with singleQuoted := true }
  else if c = ' ' ∨ c = '\t' then { state with ending := true }
  else state.push c

/-- The state after a character that follows a dollar sign. -/
def inName (state : ValueState) (lookUp : List Char → List Char) (c : Char) : ValueState :=
  match state.substitution with
  | .none => state
  | .name letters =>
    if Text.isAlphanumeric c then { state with substitution := .name (c :: letters) }
    else if c = '\x7b' ∧ letters = [] then { state with substitution := .braced [] }
    else
      let state := state.substitute lookUp letters
      if c = '$' then { state with substitution := .name [] } else state.push c
  | .braced letters =>
    if c = '\x7d' then state.substitute lookUp letters
    else { state with substitution := .braced (c :: letters) }

/-- The value read, if nothing is left open. -/
def finish? (state : ValueState) (lookUp : List Char → List Char) : Option (List Char) :=
  if state.singleQuoted || state.doubleQuoted then none
  else
    match state.substitution with
    | .none => some state.output.reverse
    | .name letters => some (state.substitute lookUp letters).output.reverse
    | .braced _ => none

end ValueState

/-- Reads a value; `lookUp` gives the values of variables. -/
def readValue? (lookUp : List Char → List Char) : ValueState → List Char → Option (List Char)
  | state, [] => state.finish? lookUp
  | state, c :: rest =>
    if state.ending then
      if c = ' ' ∨ c = '\t' then readValue? lookUp state rest
      else if c = '#' then state.finish? lookUp
      else none
    else if state.escaped then
      (unescape? c).bind fun c ↦ readValue? lookUp { state.push c with escaped := false } rest
    else if state.singleQuoted then
      if c = '\'' then readValue? lookUp { state with singleQuoted := false } rest
      else readValue? lookUp (state.push c) rest
    else if state.substitution ≠ .none then readValue? lookUp (state.inName lookUp c) rest
    else readValue? lookUp (state.plain c) rest

/-! ### Assignments -/

/-- The name in front, if there is one, and what follows it. -/
def readName? (ahead : List Char) : Option (List Char × List Char) :=
  match ahead with
  | [] => none
  | c :: _ =>
    if c.isAlpha || c = '_' then
      let inName (c : Char) : Bool := c.isAlphanum || c = '_' || c = '.'
      some (ahead.takeWhile inName, ahead.dropWhile inName)
    else none

/-- What follows an equals sign and blanks around it. -/
def skipEquals? (ahead : List Char) : Option (List Char) :=
  match ahead.dropWhile isBlank with
  | '=' :: rest => some (rest.dropWhile isBlank)
  | _ => none

/-- The name and the rest of an assignment. The word `export` may be a name itself. -/
def readHead? (line : List Char) : Option (List Char × List Char) := do
  let (name, rest) ← readName? line
  match skipEquals? rest with
  | some value => return (name, value)
  | none =>
    if name = "export".toList then
      let (name, rest) ← readName? (rest.dropWhile isBlank)
      let value ← skipEquals? rest
      return (name, value)
    else none

/-- What follows a text that stands in front. -/
def dropPrefix? : List Char → List Char → Option (List Char)
  | [], ahead => some ahead
  | _, [] => none
  | c :: front, d :: ahead => if c = d then dropPrefix? front ahead else none

/-- What names stand for. -/
structure Bindings where
  /-- The variables that are set. -/
  known : NameMap String
  /-- The values that the file has given to names so far. -/
  assigned : NameMap String := .empty

/-- What follows a name and an equals sign in the entries of the environment, each of which is a
variable, an equals sign and its value. A name that has an equals sign of its own so reaches into
the value of a variable. -/
def entryValue? (known : NameMap String) (letters : List Char) : Option (List Char) :=
  known.entries.findSome? fun (name, value) ↦
    dropPrefix? (letters ++ ['=']) (name.toList ++ '=' :: value.toList)

/-- The value that a name stands for. -/
def Bindings.lookUp (bindings : Bindings) (letters : List Char) : List Char :=
  match entryValue? bindings.known letters with
  | some value => value
  | none => ((bindings.assigned.get? (String.ofList letters)).getD "").toList

/-- Makes an assignment. A variable that is set stays as it is. -/
def Bindings.assign (bindings : Bindings) (name value : String) : Bindings :=
  { known :=
      if bindings.known.contains name then bindings.known
      else bindings.known.insert name value
    assigned := bindings.assigned.insert name value }

/-- Obeys a line: an empty one and a comment do nothing. -/
def obey? (bindings : Bindings) (line : List Char) : Option Bindings :=
  let line := ((line.reverse.dropWhile isBlank).reverse).dropWhile isBlank
  match line with
  | [] => some bindings
  | '#' :: _ => some bindings
  | _ => do
    let (name, rest) ← readHead? line
    match rest with
    | [] => return bindings.assign (String.ofList name) ""
    | '#' :: _ => return bindings.assign (String.ofList name) ""
    | _ =>
      let value ← readValue? bindings.lookUp {} rest
      return bindings.assign (String.ofList name) (String.ofList value)

/-- Obeys lines until one is no assignment. -/
def obeyAll (bindings : Bindings) : List (Option (List Char)) → Bindings
  | [] => bindings
  | none :: _ => bindings
  | some line :: lines =>
    match obey? bindings line with
    | none => bindings
    | some bindings => obeyAll bindings lines

/-- The variables after a file of assignments has been read. A byte order mark in front of it is
skipped. -/
def load (assignments : String) (known : NameMap String) : NameMap String :=
  let text := match assignments.toList with
    | '\uFEFF' :: rest => rest
    | text => text
  (obeyAll { known } (logicalLines (physicalLines text) [] .plain)).known

end Environment

/-! ### Configuration files -/

/-- Why a configuration cannot be loaded: what was being done, and what went wrong. -/
structure LoadError where
  context : String
  cause : String
deriving DecidableEq, Inhabited

/-- The error in words. -/
def LoadError.message (error : LoadError) : String := error.context ++ ": " ++ error.cause

namespace AdmissionConfig

/-- Loads a configuration from what is read at a path. -/
def ofFile (path : String) (contents : Except ReadError String) :
    Except LoadError AdmissionConfig :=
  match contents with
  | .error error => .error ⟨"reading admission config " ++ path, error.message⟩
  | .ok content =>
    match ofText content with
    | .ok config => .ok config
    | .error error => .error ⟨"loading admission config " ++ path, error.message⟩

/-- The variable that names the configuration file. -/
def fileVariable : String := "FAIR_SHARE_CONFIG"

/-- The file of assignments in the working directory. -/
def assignmentsFile : String := ".env"

/-- Loads the configuration that the environment names, or the usual one if it names none. -/
def ofEnvironment (environment : NameMap String) (files : FileTree) :
    Except LoadError AdmissionConfig :=
  let known := match files.read assignmentsFile with
    | .error _ => environment
    | .ok assignments => Environment.load assignments environment
  match known.get? fileVariable with
  | none => .ok default
  | some path => ofFile path (files.read path)

end AdmissionConfig

end Admission
