import Admission.Environment

/-!
# The files around a simulation

A configuration is looked for on a machine that has the usual directories, one scratch file, and a
working directory, which may hold a file of assignments.
-/

set_option autoImplicit false
set_option relaxedAutoImplicit false

namespace Admission.Simulation

/-- What differs from one simulation to another. -/
structure Workplace where
  /-- What the scratch file holds, if there is one. -/
  scratch : Option FileContents
  /-- The text of the file of assignments, if there is one. -/
  assignments : Option String

namespace Workplace

/-- Where the scratch file is. -/
def scratchPlace : List String := ["tmp", "admission", "scratch", "config.json"]

/-- The path of the scratch file. -/
def scratchPath : String := String.join (scratchPlace.map ("/" ++ ·))

/-- The working directory. -/
def workingDirectory : List String := ["tmp", "admission", "work"]

/-- The directories at the root of every machine. -/
def rootDirectories : List String :=
  ["bin", "boot", "dev", "etc", "home", "lib", "media", "mnt", "opt", "proc", "root", "run", "sbin",
   "srv", "sys", "tmp", "usr", "var"]

/-- The text of a file that is on every machine: one that is always empty, and the list of users. -/
def usualText? (place : List String) : Option String :=
  if place = ["dev", "null"] then some ""
  else if place = ["etc", "passwd"] then some "root:x:0:0:root:/root:/bin/sh\n"
  else none

/-- Whether there is a directory at a place. -/
def isDirectory (place : List String) : Bool :=
  workingDirectory.take place.length = place ||
    scratchPlace.dropLast.take place.length = place ||
    rootDirectories.any fun name ↦ place = [name]

/-- What there is at a place. -/
def nodeAt (workplace : Workplace) (place : List String) : Option FileNode :=
  if place = scratchPlace then workplace.scratch.map .file
  else if place = workingDirectory ++ [AdmissionConfig.assignmentsFile] then
    workplace.assignments.map fun text ↦ .file (.text text)
  else if isDirectory place then some .directory
  else (usualText? place).map fun text ↦ .file (.text text)

/-- The files of the machine. -/
def files (workplace : Workplace) : FileTree := ⟨workplace.nodeAt, workingDirectory⟩

end Workplace

end Admission.Simulation
