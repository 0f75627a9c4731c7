import NandFlash.Bytes

/-!
# Files

The files that a run works on, as a value: a tree of names, and the place in it where relative
paths begin. A path is followed name by name. Whatever it passes has to be a directory, and a
slash at its end asks for a directory there too; so a path can fail in more than one way, and the
first name that does not fit decides.
-/

namespace NandFlash.CommandLine

/-- Why a path is of no use. -/
inductive FileError where
  | notFound
  /-- Something that is passed through is not a directory. -/
  | notDirectory
  /-- A directory stands where a file is needed. -/
  | isDirectory
  | nameTooLong
deriving DecidableEq, Repr

/-- The text of a file error. -/
def FileError.message : FileError → String
  | notFound => "No such file or directory (os error 2)"
  | notDirectory => "Not a directory (os error 20)"
  | isDirectory => "Is a directory (os error 21)"
  | nameTooLong => "File name too long (os error 36)"

/-- A place in the tree: the names that lead to it from the root. -/
abbrev Trail := List String

/-! ## Paths -/

/-- A path taken apart. -/
structure Path where
  isAbsolute : Bool
  /-- The names in order; a repeated slash adds none. -/
  names : List String
  /-- Does a slash follow the last name? -/
  endsInSlash : Bool
deriving DecidableEq, Repr

/-- The most bytes of a name. -/
def maxNameLen : Nat := 255

/-- The most bytes of a path. -/
def maxPathLen : Nat := 4095

/-- Take a path apart. -/
def Path.parse (text : String) : Path where
  isAbsolute := text.toList.head? == some '/'
  names := (text.splitOn "/").filter (· != "")
  endsInSlash := text.toList.getLast? == some '/'

/-- Where a name leads from a directory. -/
def Trail.advance (trail : Trail) (name : String) : Trail :=
  if name = "." then trail
  else if name = ".." then trail.dropLast
  else trail ++ [name]

/-- Every place that a row of names passes, the first and the last included. -/
def Trail.along (trail : Trail) : List String → List Trail
  | [] => [trail]
  | name :: rest => trail :: along (trail.advance name) rest

/-! ## The tree -/

/-- What stands at a place. -/
inductive Node where
  | directory
  | file (content : Bytes)
deriving DecidableEq, Repr

/-- A tree of files. Places on the way to a known one are directories. -/
structure Files where
  /-- Where relative paths begin. -/
  home : Trail
  entries : List (Trail × Bytes)
  directories : List Trail

namespace Files

/-- Is a place the root, a known directory, or on the way to something known? -/
def isDirectory (files : Files) (trail : Trail) : Bool :=
  (([] :: files.home :: files.directories) ++ files.entries.map (·.1)).any trail.isPrefixOf

/-- What stands at a place. -/
def at? (files : Files) (trail : Trail) : Option Node :=
  match files.entries.lookup trail with
  | some content => some (.file content)
  | none => if files.isDirectory trail then some .directory else none

/-- Create or replace a file. -/
def insert (files : Files) (trail : Trail) (content : Bytes) : Files :=
  { files with entries := (trail, content) :: files.entries.filter fun entry => entry.1 != trail }

/-- Where a path begins. -/
def origin (files : Files) (path : Path) : Trail :=
  if path.isAbsolute then [] else files.home

/-- Follow one name; it is looked up in a directory only. -/
def step (files : Files) (trail : Trail) (name : String) : Except FileError Trail :=
  match files.at? trail with
  | none => .error .notFound
  | some (.file _) => .error .notDirectory
  | some .directory =>
    if maxNameLen < name.utf8ByteSize then .error .nameTooLong else .ok (trail.advance name)

/-- Follow a path. What its last name leads to need not exist. A slash at the end stands for the
directory itself; when a file is to be created there, its name is not even looked up. -/
def follow (files : Files) (text : String) (creating : Bool) : Except FileError Trail :=
  if maxPathLen < text.utf8ByteSize then
    .error .nameTooLong
  else
    let path := Path.parse text
    let names :=
      if !path.endsInSlash then path.names
      else if creating then path.names.dropLast ++ ["."]
      else path.names ++ ["."]
    names.foldlM files.step (files.origin path)

/-- What a path leads to. -/
def find (files : Files) (path : String) : Except FileError Node := do
  match files.at? (← files.follow path false) with
  | some node => return node
  | none => throw .notFound

/-- Content of a file. -/
def read (files : Files) (path : String) : Except FileError Bytes := do
  match ← files.find path with
  | .file content => return content
  | .directory => throw .isDirectory

/-- Create or replace a file by its path. -/
def write (files : Files) (path : String) (content : Bytes) : Except FileError Files := do
  let trail ← files.follow path true
  if files.at? trail = some .directory then
    throw .isDirectory
  return files.insert trail content

theorem at?_insert (files : Files) (trail : Trail) (content : Bytes) :
    (files.insert trail content).at? trail = some (.file content) := by
  simp [at?, insert]

end Files

end NandFlash.CommandLine
