import PatternEngine.Bytes
/-!
# File systems

A file system holds the contents of files and the places of directories. A path names a place
step by step: every step but the last has to lead into a directory. Paths start at the working
directory, unless they start with a slash or with the name of a root.
-/
namespace PatternEngine

/-- Why a path cannot be opened, or a file not be read. -/
inductive FileError where
  | notFound
  | isDirectory
  | notDirectory
  | nameTooLong
  | nulByte
  deriving DecidableEq, Repr

namespace FileError

def message : FileError → Bytes
  | .notFound => text "No such file or directory (os error 2)"
  | .isDirectory => text "Is a directory (os error 21)"
  | .notDirectory => text "Not a directory (os error 20)"
  | .nameTooLong => text "File name too long (os error 36)"
  | .nulByte => text "file name contained an unexpected NUL byte"

end FileError

/-- A place: the names on the way to it, outermost first. -/
abbrev Place := List Bytes

/-- What is at a place. -/
inductive Entry where
  | file (contents : Bytes)
  | directory
  deriving DecidableEq, Repr

/-- The files and directories that exist. A directory above anything that exists, exists. -/
structure FileSystem where
  files : List (Place × Bytes) := []
  directories : List Place := []
  /-- names that start an absolute path -/
  roots : List Bytes := []
  /-- where the other paths start -/
  working : Place := []
  deriving Repr

namespace FileSystem

def separator : UInt8 := 0x2F

def maxName : Nat := 255

/-- One more than the length of the longest path. -/
def pathLimit : Nat := 4096

def isDirectory (fs : FileSystem) (place : Place) : Bool :=
  place.isEmpty || fs.directories.any (place.isPrefixOf ·) ||
    fs.files.any fun (file, _) => place.isPrefixOf file && place != file

def entry? (fs : FileSystem) (place : Place) : Option Entry :=
  match fs.files.lookup place with
  | some contents => some (.file contents)
  | none => if fs.isDirectory place then some .directory else none

/-- Walks from a directory along the names of a path. The last name may be missing; then the
place is where it would be. -/
def walk (fs : FileSystem) : Place → List Bytes → Except FileError Place
  | place, [] => .ok place
  | place, name :: rest =>
    match fs.entry? place with
    | none => .error .notFound
    | some (.file _) => .error .notDirectory
    | some .directory =>
      if name.isEmpty || name == [46] then fs.walk place rest
      else if name == [46, 46] then fs.walk place.dropLast rest
      else if maxName < name.length then .error .nameTooLong
      else fs.walk (place ++ [name]) rest

/-- The place that a path names, whether or not there is anything. -/
def place (fs : FileSystem) (path : Bytes) : Except FileError Place :=
  if path.contains 0 then .error .nulByte
  else if path.isEmpty then .error .notFound
  else if pathLimit ≤ path.length then .error .nameTooLong
  else
    let names := Bytes.splitOn separator path
    let absolute := names.head?.any fun name => name.isEmpty || fs.roots.contains name
    fs.walk (if absolute then [] else fs.working) names

def find (fs : FileSystem) (path : Bytes) : Except FileError Entry := do
  let place ← fs.place path
  match fs.entry? place with
  | some entry => return entry
  | none => throw .notFound

/-- The contents of the file that a path names; a directory cannot be read. -/
def read (fs : FileSystem) (path : Bytes) : Except FileError Bytes := do
  match ← fs.find path with
  | .file contents => return contents
  | .directory => throw .isDirectory

def pathOf (place : Place) : Bytes :=
  if place.isEmpty then [separator] else Bytes.join [separator] place

/-- The path of what a path names, without detours. -/
def canonical (fs : FileSystem) (path : Bytes) : Except FileError Bytes := do
  let place ← fs.place path
  match fs.entry? place with
  | some _ => return pathOf place
  | none => throw .notFound

def isFile (fs : FileSystem) (path : Bytes) : Bool :=
  match fs.find path with
  | .ok (.file _) => true
  | _ => false

/-- Puts a file at a place, in the stead of one that is there. -/
def put (fs : FileSystem) (place : Place) (contents : Bytes) : FileSystem :=
  { fs with files := (place, contents) :: fs.files.filter fun (other, _) => other != place }

def makeDirectory (fs : FileSystem) (place : Place) : FileSystem :=
  { fs with directories := place :: fs.directories }

/-- Makes the file that a path names empty, and gives its place. A path that ends with a slash
names no file. -/
def create (fs : FileSystem) (path : Bytes) : Except FileError (Place × FileSystem) :=
  if path.getLast? == some separator then
    match Bytes.dropWhileRight (· == separator) path with
    | [] => .error .isDirectory
    | path => do
      let _ ← fs.place path
      throw .isDirectory
  else do
    let place ← fs.place path
    match fs.entry? place with
    | some .directory => throw .isDirectory
    | _ => return (place, fs.put place [])

end FileSystem

end PatternEngine
