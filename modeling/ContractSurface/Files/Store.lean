import ContractSurface.Files.Path
import ContractSurface.Files.Tree
import ContractSurface.Text.Utf8

/-! # File stores

A store is a tree together with the directory that relative paths start from. A path is resolved
component by component, and every component before the last has to be a directory. Operations that
fail say why; the ones that write give back the store they leave behind.
-/
namespace ContractSurface

inductive FileError where
  | notFound
  | exists
  | notADirectory
  | isADirectory
  | nameTooLong
  | notText
  | badPath
  deriving DecidableEq, Repr

def FileError.message : FileError → String
  | .notFound => "No such file or directory (os error 2)"
  | .exists => "File exists (os error 17)"
  | .notADirectory => "Not a directory (os error 20)"
  | .isADirectory => "Is a directory (os error 21)"
  | .nameTooLong => "File name too long (os error 36)"
  | .notText => "stream did not contain valid UTF-8"
  | .badPath => "file name contained an unexpected NUL byte"

structure UnreadableFile where
  path : Path
  cause : FileError
  deriving DecidableEq, Repr

def UnreadableFile.message (f : UnreadableFile) : String := s!"Reading {f.path}"

structure FileStore where
  root : Tree
  /-- The names that lead from the root to the current directory. -/
  current : List String

/-- Where a path leads: the names from the root, and whether the path is written as that of a
directory. -/
structure Place where
  names : List String
  asDirectory : Bool
  deriving DecidableEq, Repr

namespace FileStore

def entryAt (s : FileStore) (names : List String) : Option Entry := s.root.lookup names

def requireDirectory (s : FileStore) (names : List String) : Except FileError Unit :=
  match s.entryAt names with
  | some (.folder _) => .ok ()
  | some (.file _) => .error .notADirectory
  | none => .error .notFound

def longestName : Nat := 255

def longestPath : Nat := 4095

def follow (s : FileStore) (here : Place) : List String → Except FileError Place
  | [] => .ok here
  | segment :: rest =>
    if segment = "" then s.follow { here with asDirectory := true } rest
    else
      match s.requireDirectory here.names with
      | .error e => .error e
      | .ok () =>
        if segment = "." then s.follow { here with asDirectory := true } rest
        else if segment = ".." then s.follow ⟨here.names.dropLast, true⟩ rest
        else if segment.utf8ByteSize > longestName then .error .nameTooLong
        else s.follow ⟨here.names ++ [segment], false⟩ rest

def resolve (s : FileStore) (p : Path) : Except FileError Place :=
  if p = "" then .error .notFound
  else if p.toList.contains '\x00' then .error .badPath
  else if p.utf8ByteSize > longestPath then .error .nameTooLong
  else s.follow ⟨if p.isAbsolute then [] else s.current, true⟩ p.segments

def find (s : FileStore) (p : Path) : Except FileError Entry := do
  let place ← s.resolve p
  match s.entryAt place.names with
  | none => .error .notFound
  | some (.file content) =>
    if place.asDirectory then .error .notADirectory else .ok (.file content)
  | some (.folder inside) => .ok (.folder inside)

def pathExists (s : FileStore) (p : Path) : Bool := (s.find p).isOk

def deviceDirectory : String := "dev"

/-- What lies under the names is a device. Devices lie right in their directory; below it there may
be directories with files in them. -/
def isDevice : List String → Bool
  | [directory, _] => directory == deviceDirectory
  | _ => false

def isFile (s : FileStore) (p : Path) : Bool :=
  match s.resolve p, s.find p with
  | .ok place, .ok (.file _) => !isDevice place.names
  | _, _ => false

def isDirectory (s : FileStore) (p : Path) : Bool :=
  match s.find p with
  | .ok (.folder _) => true
  | _ => false

def readBytes (s : FileStore) (p : Path) : Except FileError ByteArray := do
  match ← s.find p with
  | .file content => .ok content
  | .folder _ => .error .isADirectory

def readText (s : FileStore) (p : Path) : Except FileError String := do
  let content ← s.readBytes p
  match Text.decodeUtf8? content.toList with
  | some text => .ok text
  | none => .error .notText

def load (s : FileStore) (p : Path) : Except UnreadableFile String :=
  match s.readText p with
  | .ok text => .ok text
  | .error cause => .error ⟨p, cause⟩

def put (s : FileStore) (names : List String) (e : Entry) : FileStore :=
  { s with root := s.root.put e names }

/-- Makes the bytes the whole content of a file, which need not exist before. What is written to a
device is lost. -/
def writeBytes (s : FileStore) (p : Path) (content : ByteArray) : Except FileError FileStore := do
  let place ← s.resolve p
  match s.entryAt place.names with
  | some (.folder _) => .error .isADirectory
  | some (.file _) =>
    if place.asDirectory then .error .notADirectory
    else if isDevice place.names then .ok s
    else .ok (s.put place.names (.file content))
  | none =>
    if place.asDirectory then .error .isADirectory else .ok (s.put place.names (.file content))

def writeText (s : FileStore) (p : Path) (text : String) : Except FileError FileStore :=
  s.writeBytes p text.toUTF8

def createDirectory (s : FileStore) (p : Path) : Except FileError FileStore := do
  let place ← s.resolve p
  match s.entryAt place.names with
  | some _ => .error .exists
  | none => .ok (s.put place.names (.folder .empty))

def ensureDirectory (s : FileStore) (p : Path) : Except FileError FileStore :=
  match s.createDirectory p with
  | .ok made => .ok made
  | .error e => if s.isDirectory p then .ok s else .error e

/-- Makes a directory and first, where one is missing, its parents. What was made before a failure
stays. `steps` is at least the number of components. -/
def createDirectoriesFrom : Nat → FileStore → Path → Except FileError Unit × FileStore
  | 0, s, _ => (.ok (), s)
  | steps + 1, s, p =>
    if p = "" then (.ok (), s)
    else
      match s.ensureDirectory p with
      | .ok made => (.ok (), made)
      | .error .notFound =>
        match p.parent? with
        | none => (.error .notFound, s)
        | some up =>
          match createDirectoriesFrom steps s up with
          | (.error e, s) => (.error e, s)
          | (.ok (), s) =>
            match s.ensureDirectory p with
            | .ok made => (.ok (), made)
            | .error e => (.error e, s)
      | .error e => (.error e, s)

@[irreducible] def createDirectories (s : FileStore) (p : Path) :
    Except FileError Unit × FileStore :=
  createDirectoriesFrom (p.length + 1) s p

def removeFile (s : FileStore) (p : Path) : Except FileError FileStore := do
  let place ← s.resolve p
  match s.entryAt place.names with
  | none => .error .notFound
  | some (.folder _) => .error .isADirectory
  | some (.file _) =>
    if place.asDirectory then .error .notADirectory
    else .ok { s with root := s.root.removeAt place.names }

def fileList (s : FileStore) : List (Path × ByteArray) :=
  match s.entryAt s.current with
  | some (.folder inside) =>
    (inside.walk.map fun f => ("/".intercalate f.1, f.2)).mergeSort fun a b => !(b.1 < a.1)
  | _ => []

def inputNames : List String := [deviceDirectory, "stdin"]

/-- A store whose current directory is empty and not the root. It has an empty device, an input
without content, and a directory for what is not kept. -/
def fresh : FileStore :=
  ⟨.folder deviceDirectory (.file "null" .empty (.file "stdin" .empty .empty))
    (.folder "tmp" .empty (.folder "work" .empty .empty)), ["work"]⟩

def withInput (s : FileStore) (input : ByteArray) : FileStore :=
  match s.entryAt inputNames with
  | some (.file _) => s.put inputNames (.file input)
  | _ => s

def input (s : FileStore) : ByteArray :=
  match s.entryAt inputNames with
  | some (.file content) => content
  | _ => .empty

end FileStore

end ContractSurface
