import ContractSurface.Files.Store
import ContractSurface.Shell.Print

/-! # Machines

A machine is a shell at work: its variables, the files, and the streams that its channels lead to.
The commands that it knows by name act on it. An act may leap out of the script, and then the
machine stays as it was at the leap.
-/
namespace ContractSurface.Shell

inductive Stream where
  | source (left : Raw)
  /-- The latest write comes first. -/
  | sink (written : List Raw)
  /-- Writes go to the end of the file. -/
  | file (path : Path)

structure Machine where
  name : Raw
  arguments : List Raw
  bindings : List (Raw × Raw)
  channels : List (Nat × Nat)
  streams : Array Stream
  files : FileStore
  line : Nat
  status : Nat

inductive Leap where
  | exit
  | killed
  deriving DecidableEq, Repr

abbrev Act := ExceptT Leap (StateM Machine)

def ownProcess : Nat := 2

namespace Machine

def setStatus (status : Nat) : Act Unit := modify fun m => { m with status }

def streamAt (m : Machine) (channel : Nat) : Option Stream :=
  (m.channels.lookup channel).bind fun i => m.streams[i]?

def putStream (m : Machine) (channel : Nat) (s : Stream) : Machine :=
  match m.channels.lookup channel with
  | some i => { m with streams := m.streams.setIfInBounds i s }
  | none => m

def write (channel : Nat) (text : Raw) : Act Unit :=
  modify fun m =>
    match m.streamAt channel with
    | some (.sink written) => m.putStream channel (.sink (text :: written))
    | some (.file path) =>
      let old := (m.files.readBytes path).toOption.getD .empty
      match m.files.writeBytes path (old ++ ⟨(Raw.bytes text).toArray⟩) with
      | .ok files => { m with files }
      | .error _ => m
    | _ => m

def takeAll (channel : Nat) : Act Raw := do
  let m ← get
  match m.streamAt channel with
  | some (.source left) =>
    set (m.putStream channel (.source []))
    return left
  | _ => return []

def lead (channel : Nat) (s : Stream) : Act Unit :=
  modify fun m => { m with
    streams := m.streams.push s, channels := (channel, m.streams.size) :: m.channels }

def complain (message : Raw) : Act Unit := do
  let m ← get
  write 2 (m.name ++ s!": {m.line}: ".toList ++ message ++ ['\n'])

def fail (status : Nat) (message : Raw) : Act Unit := do
  complain message
  setStatus status

/-- Complains about a command. A program of its own does so under its name alone. -/
def tell (isProgram : Bool) (name : String) (message : Raw) : Act Unit := do
  let line := name.toList ++ ": ".toList ++ message
  if isProgram then write 2 (line ++ ['\n']) else complain line

end Machine

open Machine

abbrev Builtin := List Raw → Act Unit

def reasonOf (e : FileError) : Raw := ((e.message.splitOn " (").headD "").toList

def pathOf (r : Raw) : Path := Raw.text r

namespace Builtin

def printFormat (isProgram : Bool) : Builtin
  | [] =>
    if isProgram then do
      tell true "printf" "missing operand\nTry \x27printf --help\x27 for more information.".toList
      setStatus 1
    else do
      tell false "printf" "usage: printf format [arg ...]".toList
      setStatus 2
  | format :: arguments => do
    let (f, directive?) := formatted format arguments
    write 1 f.text
    for (word, flaw) in f.flaws do
      let told := match isProgram, flaw with
        | true, .noNumber => "\x27".toList ++ word ++ "\x27: expected a numeric value".toList
        | true, .partly => "\x27".toList ++ word ++ "\x27: value not completely converted".toList
        | false, .noNumber => word ++ ": expected numeric value".toList
        | false, .partly => word ++ ": not completely converted".toList
      tell isProgram "printf" told
      setStatus 1
    match directive?, f.arguments with
    | some directive, _ =>
      let fault := if isProgram then ": invalid conversion specification" else ": invalid directive"
      tell isProgram "printf" (directive ++ fault.toList)
      setStatus (if isProgram then 1 else 2)
    | none, extra :: _ =>
      if isProgram then
        tell true "printf" ("warning: ignoring excess arguments, starting with \x27".toList ++
          extra ++ ['\''])
    | none, [] => return

def cat : Builtin := fun words => do
  for word in if words.isEmpty then [['-']] else words do
    if word = ['-'] then write 1 (← takeAll 0)
    else
      match (← get).files.readBytes (pathOf word) with
      | .ok content => write 1 (Raw.ofBytes content.toList)
      | .error e => do
        tell true "cat" (word ++ ": ".toList ++ reasonOf e)
        setStatus 1

def unaryTest? (files : FileStore) (operator : String) (word : Raw) : Option Bool :=
  match operator with
  | "-n" => some !word.isEmpty
  | "-z" => some word.isEmpty
  | "-f" => some (files.isFile (pathOf word))
  | "-d" => some (files.isDirectory (pathOf word))
  | "-e" => some (files.pathExists (pathOf word))
  | "-r" => some (files.pathExists (pathOf word))
  | "-s" => some (match files.find (pathOf word) with
    | .ok (.file content) => content.size != 0
    | .ok (.folder _) => true
    | .error _ => false)
  | _ => none

def binaryTest? (a : Raw) (operator : String) (b : Raw) : Option Bool :=
  let (m, n) := ((integerOf a).1, (integerOf b).1)
  match operator with
  | "=" => some (a == b)
  | "!=" => some (a != b)
  | "-eq" => some (m == n)
  | "-ne" => some (m != n)
  | "-lt" => some (m < n)
  | "-le" => some (m ≤ n)
  | "-gt" => some (m > n)
  | "-ge" => some (m ≥ n)
  | _ => none

def holds (files : FileStore) : List Raw → Except Raw Bool
  | [] => .ok false
  | [word] => .ok !word.isEmpty
  | word :: second :: rest =>
    let asBinary? := match rest with
      | [third] => binaryTest? word (String.ofList second) third
      | _ => none
    match asBinary? with
    | some truth => .ok truth
    | none =>
      if word = ['!'] then (holds files (second :: rest)).map not
      else
        match unaryTest? files (String.ofList word) second, rest with
        | some truth, [] => .ok truth
        | some _, extra :: _ => .error (extra ++ ": unexpected operator".toList)
        | none, _ => .error (word ++ ": unexpected operator".toList)

def test (isProgram isBracket : Bool) : Builtin := fun words => do
  let name := if isBracket then "[" else "test"
  if isBracket ∧ words.getLast? ≠ some [']'] then
    tell isProgram name (if isProgram then "missing \x27]\x27" else "missing ]").toList
    setStatus 2
  else
    match holds (← get).files (if isBracket then words.dropLast else words) with
    | .ok truth => setStatus (if truth then 0 else 1)
    | .error message => do
      tell isProgram name message
      setStatus 2

/-- Sends a signal. Any but number zero ends a shell that sends it to itself. -/
def kill : Builtin := fun words => do
  let (signals, processes) := words.partition fun word => word.head? = some '-'
  for word in processes do
    if word = (toString ownProcess).toList then
      if signals ≠ [['-', '0']] then throw .killed
    else
      tell false "kill" "No such process\n".toList
      setStatus 1

def enter (files : FileStore) (path : Path) : Except FileError FileStore := do
  let place ← files.resolve path
  match ← files.find path with
  | .folder _ => return { files with current := place.names }
  | .file _ => throw .notADirectory

def changeDirectory : Builtin := fun words => do
  let word := words.headD []
  match enter (← get).files (pathOf word) with
  | .ok inside => modify fun m => { m with files := inside }
  | .error _ => do
    tell false "cd" ("can\x27t cd to ".toList ++ word)
    setStatus 2

def printDirectory : Builtin := fun _ => do
  let names := (← get).files.current
  write 1 ('/' :: Raw.ofString ("/".intercalate names) ++ ['\n'])

def changeFiles (name failing : String)
    (act : (options : List Raw) → FileStore → Path → Except FileError FileStore) :
    Builtin := fun words => do
  let (options, paths) := words.partition fun word => word.head? = some '-'
  for path in paths do
    match act options (← get).files (pathOf path) with
    | .ok files => modify fun m => { m with files }
    | .error e => do
      tell true name (failing.toList ++ " \x27".toList ++ path ++ "\x27: ".toList ++ reasonOf e)
      setStatus 1

def touch : Builtin := changeFiles "touch" "cannot touch" fun _ files path =>
  if files.pathExists path then .ok files else files.writeText path ""

def makeDirectory : Builtin :=
  changeFiles "mkdir" "cannot create directory" fun options files path =>
    if options = [['-', 'p']] then
      match files.createDirectories path with
      | (.ok _, made) => .ok made
      | (.error e, _) => .error e
    else files.createDirectory path

def remove : Builtin := changeFiles "rm" "cannot remove" fun options files path => do
  let has (letter : Char) : Bool := options.any (·.contains letter)
  match files.resolve path, files.find path with
  | .ok place, .ok (.folder _) =>
    if has 'r' then return { files with root := files.root.removeAt place.names }
    else throw .isADirectory
  | .ok place, .ok (.file _) => return { files with root := files.root.removeAt place.names }
  | _, .error e => if has 'f' then return files else throw e
  | .error e, _ => throw e

def exit : Builtin := fun words => do
  if let word :: _ := words then
    if Text.isDigits word then setStatus (Text.decimalValue word)
    else
      tell false "exit" ("Illegal number: ".toList ++ word)
      setStatus 2
  throw .exit

end Builtin

def program? (isProgram : Bool) : String → Option Builtin
  | "true" => some fun _ => return
  | "false" => some fun _ => setStatus 1
  | "echo" => some fun words => write 1 (if isProgram then echoPlain words else echo words)
  | "printf" => some (Builtin.printFormat isProgram)
  | "test" => some (Builtin.test isProgram false)
  | "[" => some (Builtin.test isProgram true)
  | "cat" => some Builtin.cat
  | "pwd" => some Builtin.printDirectory
  | "sleep" => some fun _ => return
  | "touch" => some Builtin.touch
  | "mkdir" => some Builtin.makeDirectory
  | "rm" => some Builtin.remove
  | _ => none

def builtin? : String → Option Builtin
  | ":" => some fun _ => return
  | "exit" => some Builtin.exit
  | "kill" => some Builtin.kill
  | "cd" => some Builtin.changeDirectory
  | name => program? false name

end ContractSurface.Shell
