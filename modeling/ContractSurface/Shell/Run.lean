import ContractSurface.Build.Orchestrator
import ContractSurface.Shell.Machine

/-! # Running steps

A step runs a program in a directory. The program reads what is left of the standard input, and its
two output channels are kept apart. A step whose words cannot be passed on, whose directory cannot
be entered or whose program is not there does not start.
-/
namespace ContractSurface.Shell

open Machine

def Machine.valueOf (m : Machine) (name : Raw) : Raw :=
  match name with
  | ['?'] => (toString m.status).toList
  | ['#'] => (toString m.arguments.length).toList
  | ['$'] => (toString ownProcess).toList
  | ['0'] => m.name
  | ['@'] => List.intercalate [' '] m.arguments
  | ['*'] => List.intercalate [' '] m.arguments
  | _ =>
    if Text.isDigits name then m.arguments.getD (Text.decimalValue name - 1) []
    else (m.bindings.lookup name).getD []

abbrev Fields := List Raw × Option Raw

def Fields.add (fs : Fields) (text : Raw) : Fields := (fs.1, some (fs.2.getD [] ++ text))

def Fields.split (fs : Fields) (value : Raw) : Fields :=
  value.foldl (fun fs c =>
    if " \t\n".toList.contains c then (fs.1 ++ fs.2.toList, none) else fs.add [c]) fs

def Machine.fieldsOf (m : Machine) (w : Word) : List Raw :=
  if w = [.parameter ['@'] true] then m.arguments
  else
    let fs : Fields := w.foldl (fun fs p =>
      match p with
      | .text r _ => fs.add r
      | .parameter name true => fs.add (m.valueOf name)
      | .parameter name false => fs.split (m.valueOf name)) ([], none)
    fs.1 ++ fs.2.toList

def Machine.textOf (m : Machine) (w : Word) : Raw :=
  w.flatMap fun
    | .text r _ => r
    | .parameter name _ => m.valueOf name

def channelOf? (path : Raw) : Option Nat :=
  ["/dev/stdin", "/dev/stdout", "/dev/stderr"].findIdx? (·.toList == path)

/-- Makes a channel lead where a redirection says, and tells whether that can be done. -/
def redirect (r : Redirection) : Act Bool := do
  let m ← get
  let target := m.textOf r.target
  let path := pathOf target
  let cannot (what missing : String) (e : FileError) : Act Bool := do
    let reason := if e = .notFound ∨ e = .notADirectory then missing.toList else reasonOf e
    fail 2 ("cannot ".toList ++ what.toList ++ [' '] ++ target ++ ": ".toList ++ reason)
    return false
  let copied := if r.use = .copy then some (Text.decimalValue target) else channelOf? target
  match copied, r.use with
  | some channel, _ =>
    match m.channels.lookup channel with
    | some i =>
      set { m with channels := (r.channel, i) :: m.channels }
      return true
    | none =>
      fail 2 (target ++ ": Bad file descriptor".toList)
      return false
  | none, .read =>
    match m.files.readBytes path with
    | .ok content =>
      lead r.channel (.source (Raw.ofBytes content.toList))
      return true
    | .error e => cannot "open" "No such file" e
  | none, _ =>
    let opened := if r.use = .append ∧ m.files.isFile path then .ok m.files
      else m.files.writeText path ""
    match opened, m.files.resolve path with
    | .ok files, .ok place =>
      set { m with files }
      lead r.channel (.file ("/" ++ "/".intercalate place.names))
      return true
    | .error e, _ => cannot "create" "Directory nonexistent" e
    | _, .error e => cannot "create" "Directory nonexistent" e

def under (line : Nat) (rs : List Redirection) (act : Act Unit) : Act Unit := do
  modify fun m => { m with line }
  let before := (← get).channels
  if ← rs.allM redirect then act
  modify fun m => { m with channels := before }

def runFields : List Raw → Act Unit
  | [] => setStatus 0
  | name :: words => do
    match builtin? (String.ofList name) with
    | some act =>
      if name ≠ "exit".toList then setStatus 0
      act words
    | none =>
      let isThere := name.contains '/' && (← get).files.pathExists (pathOf name)
      fail (if isThere then 126 else 127)
        (name ++ (if isThere then ": Permission denied" else ": not found").toList)

/-- Does what a copy of a shell does: an exit ends the copy alone, and the variables, the channels
and the directory are put back. -/
def apart (act : Act Unit) : Act Unit := do
  let before ← get
  tryCatch act fun leap => if leap = .killed then throw .killed else return
  modify fun m => { before with
    streams := m.streams, files := { m.files with current := before.files.current }
    status := m.status % 256 }

def run : Command → Act Unit
  | .nothing => return
  | .simple line assigned words rs =>
    under line rs do
      let fields := words.flatMap (← get).fieldsOf
      let before := (← get).bindings
      for (name, w) in assigned do
        modify fun m => { m with bindings := (name, m.textOf w) :: m.bindings }
      runFields fields
      if !fields.isEmpty then modify fun m => { m with bindings := before }
  | .redirected line c rs => under line rs (run c)
  | .pipe a b => do
    let n := (← get).streams.size
    apart do
      lead 1 (.sink [])
      run a
    let written := match (← get).streams[n]? with
      | some (.sink written) => written.reverse.flatten
      | _ => []
    apart do
      lead 0 (.source written)
      run b
  | .inverse c => do
    run c
    modify fun m => { m with status := if m.status = 0 then 1 else 0 }
  | .both a b => do
    run a
    if (← get).status = 0 then run b
  | .either a b => do
    run a
    if (← get).status ≠ 0 then run b
  | .sequence a b => do
    run a
    run b
  | .choice test yes no => do
    run test
    if (← get).status = 0 then run yes
    else
      setStatus 0
      run no
  | .subshell c => apart (run c)

def runScript (script : Raw) : Act Unit := do
  let (commands, fault?) := readScript script
  for c in commands do
    run c
  if let some fault := fault? then
    modify fun m => { m with line := fault.line }
    fail 2 (Raw.ofString s!"Syntax error: {fault.message}")

def runShell : Builtin
  | [] => do runScript (← takeAll 0)
  | ['-', 'c'] :: script :: rest => do
    modify fun m => { m with name := rest.headD m.name, arguments := rest.drop 1 }
    runScript script
  | path :: rest => do
    match (← get).files.readBytes (pathOf path) with
    | .ok content =>
      modify fun m => { m with name := path, arguments := rest }
      runScript (Raw.ofBytes content.toList)
    | .error _ => fail 2 ("cannot open ".toList ++ path ++ ": No such file".toList)

def Machine.start (name : Raw) (files : FileStore) : Machine where
  name := name
  arguments := []
  bindings := []
  channels := [(0, 0), (1, 1), (2, 2)]
  streams := #[.source (Raw.ofBytes files.input.toList), .sink [], .sink []]
  files := files
  line := 0
  status := 0

def Machine.written (m : Machine) (channel : Nat) : String :=
  match m.streams[channel]? with
  | some (.sink written) => Raw.text written.reverse.flatten
  | _ => ""

def Machine.filesLeft (m : Machine) : FileStore :=
  match m.streams[(0 : Nat)]? with
  | some (.source left) => m.files.withInput ⟨(Raw.bytes left).toArray⟩
  | _ => m.files

def outcome (name : Raw) (act : Act Unit) (files : FileStore) : CommandOutput × FileStore :=
  let (leap, m) := act (.start name files)
  let code : Option Int := match leap with
    | .error .killed => none
    | _ => some (m.status % 256 : Nat)
  (⟨code, m.written 1, m.written 2⟩, m.filesLeft)

def startFault (name : String) (files : FileStore) : String :=
  if name.toList.contains '/' then
    match files.find name with
    | .ok _ => "Permission denied (os error 13)"
    | .error e => e.message
  else if name.utf8ByteSize > FileStore.longestName then FileError.nameTooLong.message
  else FileError.notFound.message

def start (name : String) (words : List String) (files : FileStore) :
    Except String (CommandOutput × FileStore) :=
  let act? := if name = "sh" then some runShell else program? true name
  match act? with
  | some act => .ok (outcome name.toList (act (words.map Raw.ofString)) files)
  | none => .error (startFault name files)

/-- The most bytes that a word may have, with one that ends it. -/
def longestWord : Nat := Nat.pow 2 17

def passedTexts (step : ExternalStep) : List String :=
  step.program :: step.arguments ++ step.directory.toList

def filesIn (files : FileStore) : Option Path → Except FileError FileStore
  | none => .ok files
  | some directory => Builtin.enter files directory

def launch (step : ExternalStep) (files : FileStore) : Except String (CommandOutput × FileStore) :=
  if (passedTexts step).any fun text => text.toList.contains '\x00' then
    .error "nul byte found in provided data"
  else
    match filesIn files step.directory with
    | .error e => .error e.message
    | .ok inside =>
      if (step.program :: step.arguments).any fun word => word.utf8ByteSize ≥ longestWord then
        .error "Argument list too long (os error 7)"
      else start step.program step.arguments inside

def runner : Orchestrator.Runner := fun step files =>
  match launch step files with
  | .error reason => (0, .error reason, files)
  | .ok (output, left) => (0, .ok output, { left with current := files.current })

end ContractSurface.Shell
