import ContractSurface.CommandLine.Program
import ContractSurface.Shell.Run

/-! # The command at a terminal

The files below the current directory, and those that the command line and the configuration name,
are read first; what a run changed is written back at its end. A conversation goes step by step and
shows each text as soon as it is there. Watching looks at the files again and again and builds when
a contract source has changed.
-/
namespace ContractSurface.CommandLine

def unreadDirectories : List String := [".git", "node_modules"]

partial def readTree (directory : IO.FS.DirEntry) : IO Tree := do
  let mut tree := Tree.empty
  for entry in ← directory.path.readDir do
    match (← entry.path.symlinkMetadata).type with
    | .dir =>
      if !unreadDirectories.contains entry.fileName then
        tree := .folder entry.fileName (← readTree entry) tree
    | .file => tree := .file entry.fileName (← IO.FS.readBinFile entry.path) tree
    | _ => pure ()
  return tree.sorted

/-- Adds the file or directory at a path, if there is one and it is not in the store. -/
def addPath (files : FileStore) (path : Path) : IO FileStore := do
  if files.pathExists path then return files
  let found : IO.FS.DirEntry := ⟨".", path⟩
  try
    let entry ← if ← found.path.isDir then pure (Entry.folder (← readTree found))
      else pure (Entry.file (← IO.FS.readBinFile found.path))
    let made := (files.createDirectories ((Path.parent? path).getD "")).2
    match made.resolve path with
    | .ok place => return made.put place.names entry
    | .error _ => return files
  catch _ => return files

def readStore : IO FileStore := do
  let here ← IO.currentDir
  let tree ← readTree ⟨here, "."⟩
  let names := (Path.components here.toString).drop 1
  return ⟨names.foldr (fun name inside => .folder name inside .empty) tree, names⟩

def Invocation.paths (i : Invocation) : List Path :=
  i.configuration :: match i.action with
    | .analyze source _ => [source]
    | .generate source out => [source, out]
    | .build source => source.toList
    | .watch source => source.toList
    | .menu source => [source]

def settingPaths (b : BuildSettings) : List Path := b.contractDir :: b.cliDir :: b.source.toList

def readStoreFor (i : Invocation) : IO FileStore := do
  let files ← i.paths.foldlM addPath (← readStore)
  match Configuration.load files i.configuration with
  | .ok c => (settingPaths c.build).foldlM addPath files
  | .error _ => return files

def contents (files : FileStore) : List (List String × ByteArray) := files.root.walk

def writeChanges (before after : FileStore) : IO Unit := do
  for (names, content) in contents after do
    match before.entryAt names with
    | some (.file old) =>
      if old != content then IO.FS.writeBinFile ("/" ++ "/".intercalate names) content
    | _ =>
      IO.FS.createDirAll ("/" ++ "/".intercalate names.dropLast)
      IO.FS.writeBinFile ("/" ++ "/".intercalate names) content
  for (names, _) in contents before do
    if (after.entryAt names).isNone then IO.FS.removeFile ("/" ++ "/".intercalate names)

def hasRelevantChange (before after : FileStore) : Bool :=
  let path (names : List String) : Path := "/".intercalate names
  let altered := (contents after).any fun (names, content) =>
    match before.entryAt names with
    | some (.file old) => old != content && isRelevantChange .modify [path names]
    | _ => isRelevantChange .create [path names]
  altered || (contents before).any fun (names, _) =>
    (after.entryAt names).isNone && isRelevantChange .remove [path names]

def showFrom (shown : Nat) (s : SessionState) : IO Nat := do
  let transcript := s.console.transcript
  let output ← IO.getStdout
  output.write ⟨(transcript.drop shown).toArray⟩
  output.flush
  return transcript.length

partial def converse (session : Session) (shown : Nat) (s : SessionState) : IO SessionState := do
  let shown ← showFrom shown s
  if s.stage.isEnded then return s
  if s.stage.waits then
    let line ← (← IO.getStdin).getLine
    let heard := { s with console := { s.console with answers := inputLines line } }
    converse session shown (heard.step session)
  else converse session shown (s.step session)

partial def awaitChange (i : Invocation) (files : FileStore) : IO FileStore := do
  IO.sleep 500
  let next ← readStoreFor i
  if hasRelevantChange files next then return next else awaitChange i next

partial def watch (i : Invocation) (o : Orchestrator) : IO Unit := do
  let (_, built) := { o with now := ← IO.monoMsNow }.build Shell.runner
  writeChanges o.files built.files
  watch i { built with files := ← awaitChange i built.files }

def fail (f : Failure) : IO UInt32 := do
  IO.eprint f.report
  return 1

def carryOut (i : Invocation) : IO UInt32 := do
  let files ← readStoreFor i
  let (work, left) := start Shell.runner i files
  writeChanges files left
  match work with
  | .error f => fail f
  | .ok (.print text) =>
    IO.print text
    return 0
  | .ok (.watch o) =>
    watch i o
    return 0
  | .ok (.converse session) =>
    let s ← converse session 0 (conversation [])
    match s.result with
    | .ok _ => return 0
    | .error fault => fail (sessionFailure fault)

def runWords (words : List String) : IO UInt32 := do
  match invocation words with
  | .ok i => carryOut i
  | .error notice =>
    IO.print notice.output
    IO.eprint notice.complaint
    return notice.code.toUInt32

end ContractSurface.CommandLine

def main (words : List String) : IO UInt32 := ContractSurface.CommandLine.runWords words
