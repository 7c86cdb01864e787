/-
Module: Calculator.Files
Purpose: Files by their paths, and what opening a path leads to. A path is followed name by name, and only a
  directory can be left by a further name, be it empty or a dot. A directory is there if a file is below it.
Main exports: Files, FileProblem, Place, Place.ofPath, Files.read
-/
import Calculator.Text.Quoted

namespace Calculator

/-- Files by their paths. A path that does not start at the root starts at one common directory. -/
abbrev Files := List (String × ByteArray)

/-- Why a file cannot be opened. -/
inductive FileProblem where
  | missing
  | notDirectory
  | isDirectory
  | nameTooLong
deriving DecidableEq, Repr, Inhabited

namespace FileProblem

/-- The system's number and wording for a problem. -/
def wording : FileProblem → String
  | missing => "[Errno 2] No such file or directory"
  | notDirectory => "[Errno 20] Not a directory"
  | isDirectory => "[Errno 21] Is a directory"
  | nameTooLong => "[Errno 36] File name too long"

/-- A problem with the path that has it. -/
def message (problem : FileProblem) (path : String) : String :=
  s!"{problem.wording}: {Text.quote path}"

end FileProblem

/-- Where a path leads: whether it starts at the root, and the names on the way from there. Names of two
    dots come first, and lead above the common directory. -/
structure Place where
  rooted : Bool
  steps : List (List Char)
deriving DecidableEq, Repr, Inhabited

namespace Place

/-- The name of the directory above. -/
def above : List Char :=
  ['.', '.']

/-- Whether a place is the root, the common directory, or one above that. -/
def isTop (place : Place) : Bool :=
  place.steps.all (· = above)

/-- The directory above a place. The root is above itself. -/
def parent (place : Place) : Place :=
  if !place.isTop then ⟨place.rooted, place.steps.dropLast⟩
  else if place.rooted then place
  else ⟨place.rooted, place.steps ++ [above]⟩

/-- The place that a name leads to. An empty name and a single dot stay in place. -/
def enter (place : Place) (name : List Char) : Place :=
  if name = [] || name = ['.'] then place
  else if name = above then place.parent
  else ⟨place.rooted, place.steps ++ [name]⟩

/-- Where the first name of a path is looked up. -/
def start (path : List Char) : Place :=
  ⟨path.head? = some '/', []⟩

/-- The place of a path. -/
def ofPath (path : List Char) : Place :=
  (path.splitOn '/').foldl enter (start path)

/-- Whether the way to a place passes through another one, or ends there. -/
def isOnWayTo (place other : Place) : Bool :=
  place.rooted = other.rooted && place.steps.isPrefixOf other.steps

end Place

namespace Files

/-- The most bytes that a name may have. -/
def nameLimit : Nat := 255

/-- The most bytes that a path may have. -/
def pathLimit : Nat := 4095

/-- The number of bytes of a text. -/
def byteCount (text : List Char) : Nat :=
  (String.ofList text).utf8ByteSize

/-- The files with their places. -/
def placed (files : Files) : List (Place × ByteArray) :=
  files.map fun (path, bytes) => (Place.ofPath path.toList, bytes)

/-- Whether there is a file or a directory at a place. -/
def holds (files : Files) (place : Place) : Bool :=
  place.isTop || files.placed.any fun entry => place.isOnWayTo entry.1

/-- The place that names lead to from another place. -/
def follow (files : Files) (place : Place) : List (List Char) → Except FileProblem Place
  | [] => .ok place
  | name :: rest =>
    if (files.placed.lookup place).isSome then .error .notDirectory
    else if byteCount name > nameLimit then .error .nameTooLong
    else if files.holds (place.enter name) then follow files (place.enter name) rest
    else .error .missing

/-- The bytes of the file at a path. -/
def read (files : Files) (path : String) : Except FileProblem ByteArray :=
  let path := path.toList
  if path = [] then .error .missing
  else if byteCount path > pathLimit then .error .nameTooLong
  else
    match files.follow (Place.start path) (path.splitOn '/') with
    | .error problem => .error problem
    | .ok place =>
      match files.placed.lookup place with
      | some bytes => .ok bytes
      | none => .error .isDirectory

end Files

end Calculator
