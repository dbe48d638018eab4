import Folio.Path
import Folio.Sorted

/-!
# Files

A tree of files and directories, and what reading, writing and making directories do to it. Places
have no names above the directory at the top of the tree; the root of absolute paths is a place of
its own.
-/

set_option autoImplicit false

namespace Folio

/-- Why an operation on files fails. -/
inductive OsError where
  | notFound
  | exists
  | notDirectory
  | isDirectory
  | nameTooLong
  /-- A null character ends every path, so that none can hold one. -/
  | nullInPath
deriving DecidableEq, Repr

def OsError.message : OsError → String
  | .notFound => "No such file or directory (os error 2)"
  | .exists => "File exists (os error 17)"
  | .notDirectory => "Not a directory (os error 20)"
  | .isDirectory => "Is a directory (os error 21)"
  | .nameTooLong => "File name too long (os error 36)"
  | .nullInPath => "file name contained an unexpected NUL byte"

/-- What lies at a place. -/
inductive Entry where
  | file (content : ByteArray)
  | directory

instance : DecidableEq Entry := fun a b =>
  match a, b with
  | .file x, .file y =>
    if same : x.data = y.data then isTrue (congrArg Entry.file (ByteArray.ext same))
    else isFalse fun equal => same (by rw [Entry.file.inj equal])
  | .directory, .directory => isTrue rfl
  | .file _, .directory => isFalse nofun
  | .directory, .file _ => isFalse nofun

/-- A place in the tree: the names on the way to it. -/
abbrev Place := List String

/-- The files and directories of a tree, by place. -/
structure Files where
  entries : List (Place × Entry) := []
  /-- The directory that relative paths start from. -/
  start : Place := []
deriving DecidableEq

namespace Files

def empty : Files := {}

/-- What lies at a place; the start of relative paths and the root are directories. -/
def at? (files : Files) (place : Place) : Option Entry :=
  if place = [] ∨ place = ["/"] then some .directory else files.entries.lookup place

/-- Puts something at a place. -/
def put (files : Files) (place : Place) (entry : Entry) : Files :=
  { files with entries := Sorted.insert place entry files.entries }

/-- The places of all files. -/
def filePlaces (files : Files) : List Place :=
  files.entries.filterMap fun (place, entry) =>
    match entry with
    | .file _ => some place
    | .directory => none

/-- How many bytes a name has at most. -/
def nameLimit : Nat := 255

/-- How many bytes a path has at most. -/
def pathLimit : Nat := 4095

/-- Goes from a place along the parts of a path. Every part but the last must lead to a directory;
parts that stand for no name require that they start at one. -/
def walk (files : Files) (place : Place) : List (List Char) → Except OsError Place
  | [] => .ok place
  | part :: parts =>
    match files.at? place with
    | none => .error .notFound
    | some (.file _) => .error .notDirectory
    | some .directory =>
      if part.isEmpty ∨ part = ['.'] then walk files place parts
      else if part = Path.up then walk files (if place = ["/"] then place else place.dropLast) parts
      else if nameLimit < (String.ofList part).utf8ByteSize then .error .nameTooLong
      else walk files (place ++ [String.ofList part]) parts

/-- The place that a path starts from, and its parts. -/
def startOf (files : Files) (path : String) : Except OsError (Place × List (List Char)) :=
  if path.toList.contains '\x00' then .error .nullInPath
  else if pathLimit < path.utf8ByteSize then .error .nameTooLong
  else
    match path.toList with
    | [] => .error .notFound
    | '/' :: rest => .ok (["/"], Text.splitWhere (· == '/') rest)
    | rest => .ok (files.start, Text.splitWhere (· == '/') rest)

/-- The place that a path leads to. -/
def locate (files : Files) (path : String) : Except OsError Place := do
  let (place, parts) ← files.startOf path
  files.walk place parts

/-- What a path leads to. -/
def find (files : Files) (path : String) : Except OsError Entry := do
  let place ← files.locate path
  match files.at? place with
  | some entry => .ok entry
  | none => .error .notFound

def isFile (files : Files) (path : String) : Bool :=
  match files.find path with
  | .ok (.file _) => true
  | _ => false

def isDirectory (files : Files) (path : String) : Bool :=
  match files.find path with
  | .ok .directory => true
  | _ => false

def exists? (files : Files) (path : String) : Bool :=
  (files.find path).toOption.isSome

/-- The content of the file that a path leads to. -/
def read (files : Files) (path : String) : Except OsError ByteArray := do
  match ← files.find path with
  | .file content => .ok content
  | .directory => .error .isDirectory

/-- Writes a file, in place of the one that the path leads to, or as a new one in a directory. A
path that ends in a slash can only lead to a directory, whatever its last name. -/
def write (files : Files) (path : String) (content : ByteArray) : Except OsError Files := do
  let (start, parts) ← files.startOf path
  if parts.getLast? = some [] then
    let above := ((parts.reverse.dropWhile List.isEmpty).drop 1).reverse
    let _ ← files.walk start (above ++ [[]])
    throw .isDirectory
  let place ← files.walk start parts
  match files.at? place with
  | some .directory => throw .isDirectory
  | _ => return files.put place (.file content)

/-- A path without the slashes at its end, unless it holds nothing else. -/
def withoutEndSlashes (path : String) : String :=
  match (path.toList.reverse.dropWhile (· == '/')).reverse with
  | [] => path
  | rest => String.ofList rest

/-- Makes one directory, in a directory that is there. -/
def makeDirectory (files : Files) (path : String) : Except OsError Files := do
  let place ← files.locate (withoutEndSlashes path)
  match files.at? place with
  | some _ => throw .exists
  | none => return files.put place .directory

/-- What a failure to make a directory comes to: none, if the directory is there. -/
def unlessDirectory (files : Files) (name : String) (e : OsError) : Except OsError Unit :=
  if files.isDirectory name then .ok () else .error e

/-- Makes a directory and those above it that are missing; `fuel` bounds their number. What was made
before a failure stays. -/
def makeDirectoriesFrom : Nat → Files → List Char → Except OsError Unit × Files
  | 0, files, _ => (.ok (), files)
  | fuel + 1, files, path =>
    let name := String.ofList path
    if path.isEmpty ∨ (Path.parent? path).isNone then (.ok (), files)
    else
      match files.makeDirectory name with
      | .ok files => (.ok (), files)
      | .error .notFound =>
        match makeDirectoriesFrom fuel files ((Path.parent? path).getD []) with
        | (.error e, files) => (.error e, files)
        | (.ok (), files) =>
          match files.makeDirectory name with
          | .ok files => (.ok (), files)
          | .error e => (files.unlessDirectory name e, files)
      | .error e => (files.unlessDirectory name e, files)

/-- Makes a directory and those above it that are missing. -/
def makeDirectories (files : Files) (path : String) : Except OsError Unit × Files :=
  makeDirectoriesFrom (path.toList.length + 1) files path.toList

/-- A file with the directories above it. -/
def add (files : Files) (path : String) (content : ByteArray) : Files :=
  let place := (Text.splitWhere (· == '/') path.toList).map String.ofList
  let above := (List.range place.length).drop 1 |>.map (place.take ·)
  (above.foldl (fun files place => files.put place .directory) files).put place (.file content)

/-- A directory with the directories above it. -/
def addDirectory (files : Files) (path : String) : Files :=
  let place := (Text.splitWhere (· == '/') path.toList).map String.ofList
  let above := (List.range (place.length + 1)).drop 1 |>.map (place.take ·)
  above.foldl (fun files place => files.put place .directory) files

end Files

end Folio
