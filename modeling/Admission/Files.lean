/-!
# Files and the paths that lead to them

A path is a chain of names between slashes. It starts at the root if it begins with a slash and at
the working directory if it does not. Every name leads from a directory to what it holds; an empty
name and a single dot stay where they are, and two dots lead up, except from the root. So a path
that ends in a slash leads to a directory or nowhere.
-/

set_option autoImplicit false
set_option relaxedAutoImplicit false

namespace Admission

/-- What a file holds. -/
inductive FileContents where
  /-- The bytes are no text. -/
  | undecodable
  | text (content : String)
deriving DecidableEq, Inhabited

/-- What a path can lead to. -/
inductive FileNode where
  | directory
  | file (contents : FileContents)
deriving DecidableEq, Inhabited

/-- Why no text can be read from a path. -/
inductive ReadError where
  | missing
  /-- A name follows on something that is no directory. -/
  | notDirectory
  | isDirectory
  | nameTooLong
  | undecodable
deriving DecidableEq, Inhabited

/-- The error in words. -/
def ReadError.message : ReadError → String
  | .missing => "No such file or directory (os error 2)"
  | .notDirectory => "Not a directory (os error 20)"
  | .isDirectory => "Is a directory (os error 21)"
  | .nameTooLong => "File name too long (os error 36)"
  | .undecodable => "stream did not contain valid UTF-8"

/-- The text that a file holds. -/
def FileContents.read : FileContents → Except ReadError String
  | .undecodable => .error .undecodable
  | .text content => .ok content

/-- The names between the slashes of a path. -/
def pathNames : List Char → List (List Char)
  | [] => [[]]
  | c :: rest =>
    if c = '/' then [] :: pathNames rest
    else
      match pathNames rest with
      | [] => [[c]]
      | name :: names => (c :: name) :: names

/-- Files and directories, each at the names that lead to it from the root. -/
structure FileTree where
  nodeAt : List String → Option FileNode
  workingDirectory : List String

namespace FileTree

/-- The most bytes of a name. -/
def nameLimit : Nat := 255

/-- The most bytes of a path. -/
def pathLimit : Nat := 4095

/-- Where a name leads from a directory. -/
def follow (directory : List String) (name : String) : List String :=
  if name = "" ∨ name = "." then directory
  else if name = ".." then directory.dropLast
  else directory ++ [name]

/-- Follows names and reads the file that they lead to. -/
def walk (tree : FileTree) (place : List String) : List String → Except ReadError String
  | [] =>
    match tree.nodeAt place with
    | none => .error .missing
    | some .directory => .error .isDirectory
    | some (.file contents) => contents.read
  | name :: names =>
    match tree.nodeAt place with
    | none => .error .missing
    | some (.file _) => .error .notDirectory
    | some .directory =>
      if nameLimit < name.utf8ByteSize then .error .nameTooLong
      else tree.walk (follow place name) names

/-- Reads the file that a path leads to. The empty path leads nowhere. -/
def read (tree : FileTree) (path : String) : Except ReadError String :=
  if path = "" then .error .missing
  else if pathLimit < path.utf8ByteSize then .error .nameTooLong
  else
    let start := if path.toList.head? = some '/' then [] else tree.workingDirectory
    tree.walk start ((pathNames path.toList).map String.ofList)

end FileTree

end Admission
