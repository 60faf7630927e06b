/-!
# Files

Whatever reads a file takes the way to files as an argument, a
`FileReader`, and so works the same on a file system and on a `Directory`,
which holds its files in memory.
-/

namespace WorkflowScript

/-- Why a file could not be read. -/
inductive ReadError where
  | notFound
  | isDirectory
  /-- The path goes on behind a file. -/
  | notDirectory
  | nameTooLong
  | notText
  | other (reason : String)
deriving Repr, DecidableEq

def ReadError.message : ReadError → String
  | notFound => "No such file or directory (os error 2)"
  | isDirectory => "Is a directory (os error 21)"
  | notDirectory => "Not a directory (os error 20)"
  | nameTooLong => "File name too long (os error 36)"
  | notText => "stream did not contain valid UTF-8"
  | other reason => reason

/-- The way to the contents of files. -/
abbrev FileReader (m : Type → Type) := String → m (Except ReadError (List UInt8))

/-! ## Paths -/

namespace FilePath

/-- The parts of a text between slashes. -/
def splitSlashes : List Char → List (List Char)
  | [] => [[]]
  | c :: cs =>
    if c = '/' then [] :: splitSlashes cs
    else
      match splitSlashes cs with
      | [] => [[c]]
      | part :: parts => (c :: part) :: parts

/-- The names on a path. Steps that stay where they are do not count. -/
def names (path : String) : List (List Char) :=
  (splitSlashes path.toList).filter fun part => part ≠ [] ∧ part ≠ ['.']

/-- Whether a path may only lead to a directory, because of what stands
behind its last name. -/
def endsBehindName (path : String) : Bool :=
  match (splitSlashes path.toList).getLast? with
  | some part => part = [] || part = ['.']
  | none => false

/-- The part of the last name behind its last dot. A dot at the start of
the name does not count. -/
def extension? (path : String) : Option String :=
  match (((names path).getLast?.getD []).reverse.span (· ≠ '.')) with
  | (_, [_]) | (_, []) => none
  | (reversed, _) => some (String.ofList reversed.reverse)

/-- A path without slashes and single dots behind its last name. -/
def dropTrail : (reversed : List Char) → List Char
  | '/' :: rest => dropTrail rest
  | '.' :: '/' :: rest => dropTrail rest
  | reversed => reversed

/-- The path with something added to its last name. A path that ends in no
name has nothing to add to. -/
def append? (path suffix : String) : Option String :=
  match (names path).getLast? with
  | none | some ['.', '.'] => none
  | some _ => some (String.ofList (dropTrail path.toList.reverse).reverse ++ suffix)

end FilePath

/-! ## Directories in memory -/

/-- The files of a directory and of the directories in it, by their paths
from there. -/
structure Directory where
  files : List (String × List UInt8)

namespace Directory

/-- How many bytes a name may have. -/
def nameLimit : Nat := 255

/-- How many bytes a path may have. -/
def pathLimit : Nat := 4095

/-- The contents of a file. Paths lead nowhere outside the directory. -/
def read (d : Directory) (path : String) : Except ReadError (List UInt8) :=
  let target := FilePath.names path
  if path.toList.contains '\x00' then
    .error (.other "file name contained an unexpected NUL byte")
  else if path.isEmpty then .error .notFound
  else if path.utf8ByteSize > pathLimit then .error .nameTooLong
  else if target.all (· = ['.', '.']) then .error .isDirectory
  else if path.front = '/' then .error .notFound
  else
    match d.files.find? fun (name, _) => FilePath.names name = target with
    | some (_, contents) =>
      if FilePath.endsBehindName path then .error .notDirectory else .ok contents
    | none =>
      if d.files.any fun (name, _) => (FilePath.names name).isPrefixOf target then
        .error .notDirectory
      else if target.any fun name => (String.ofList name).utf8ByteSize > nameLimit then
        .error .nameTooLong
      else if d.files.any fun (name, _) => target.isPrefixOf (FilePath.names name) then
        .error .isDirectory
      else .error .notFound

end Directory

end WorkflowScript
