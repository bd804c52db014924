import ContractSurface.Build.Settings
import ContractSurface.Build.Step
import ContractSurface.Interface.Analyze
import ContractSurface.TypeScript.Artifact

/-! # The build pipeline

A build locates and reads the contract source, compiles it, builds the contract package, generates
the two modules and builds the generated package, strictly in this order; the first failure ends
it, and files that were written before stay. Where a command has to run the build stops and waits
for its reply, so that a build is a value between one reply and the next.
-/
namespace ContractSurface

inductive PipelineError where
  | sourceNotFound (path : Path)
  | sourceRead (path : Path) (cause : FileError)
  | spawn (step : String) (cause : String)
  | externalTool (step : String) (code : Option Int) (output : String)
  | generation (path : Path) (cause : FileError)
  deriving DecidableEq, Repr

def exitCodeText : Option Int → String
  | some code => s!"exit code {code}"
  | none => "no exit code (terminated by signal)"

namespace PipelineError

def message : PipelineError → String
  | .sourceNotFound path => s!"no contract source found under {path}"
  | .sourceRead path cause => s!"failed to read contract source {path}: {cause.message}"
  | .spawn step cause => s!"step `{step}` could not be started: {cause}"
  | .externalTool step code output => s!"step `{step}` failed with {exitCodeText code}\n{output}"
  | .generation path cause => s!"failed to write {path}: {cause.message}"

def cause? : PipelineError → Option String
  | .sourceRead _ cause => some cause.message
  | .spawn _ cause => some cause
  | .generation _ cause => some cause.message
  | _ => none

end PipelineError

def firstSource? (files : List (List String × ByteArray)) : Option (List String) :=
  (files.map (·.1)).find? fun names => ((names.getLast?).bind Path.extensionOfName?) ==
    some sourceExtension

def pathBelow (directory : Path) (names : List String) : Path := names.foldl Path.join directory

/-- The files that a walk meets from a directory at the given place on. Devices are no files, and
what lies in a directory whose own path is too long is not met. -/
def metFiles (directory : Path) (place : List String) (files : List (List String × ByteArray)) :
    List (List String × ByteArray) :=
  files.filter fun f => !FileStore.isDevice (place ++ f.1) &&
    decide ((pathBelow directory f.1.dropLast).utf8ByteSize ≤ FileStore.longestPath)

/-- The configured source, or else the first contract source below the contract directory, or that
directory itself when it is such a file. -/
def locateSource (b : BuildSettings) (s : FileStore) : Except PipelineError Path :=
  match b.source with
  | some path => if s.isFile path then .ok path else .error (.sourceNotFound path)
  | none =>
    match s.resolve b.contractDir, s.find b.contractDir with
    | .ok place, .ok (.folder inside) =>
      match firstSource? (metFiles b.contractDir place.names inside.sorted.walk) with
      | some names => .ok (pathBelow b.contractDir names)
      | none => .error (.sourceNotFound b.contractDir)
    | _, _ =>
      if s.isFile b.contractDir && isContractSource b.contractDir then .ok b.contractDir
      else .error (.sourceNotFound b.contractDir)

def TypeScript.Artifact.pathIn (out : Path) (a : TypeScript.Artifact) : Path := Path.join out a.path

def TypeScript.Artifact.directoryIn (out : Path) (a : TypeScript.Artifact) : Path :=
  (Path.parent? (a.pathIn out)).getD ""

def writeArtifact (out : Path) (s : FileStore) (a : TypeScript.Artifact) :
    Except PipelineError Path × FileStore :=
  match s.createDirectories (a.directoryIn out) with
  | (.error e, s) => (.error (.generation (a.directoryIn out) e), s)
  | (.ok (), s) =>
    match s.writeText (a.pathIn out) a.contents with
    | .error e => (.error (.generation (a.pathIn out) e), s)
    | .ok s => (.ok (a.pathIn out), s)

def writeArtifacts (out : Path) (s : FileStore) :
    List TypeScript.Artifact → Except PipelineError (List Path) × FileStore
  | [] => (.ok [], s)
  | a :: rest =>
    match writeArtifact out s a with
    | (.error e, s) => (.error e, s)
    | (.ok path, s) =>
      match writeArtifacts out s rest with
      | (.error e, s) => (.error e, s)
      | (.ok paths, s) => (.ok (path :: paths), s)

def emit (i : Interface) (options : SessionOptions) (out : Path) (s : FileStore) :
    Except PipelineError (List Path) × FileStore :=
  writeArtifacts out s (TypeScript.generate i options)

structure BuildReport where
  source : Path
  contractName : String
  operations : Nat
  stateVariables : Nat
  artifacts : List Path
  steps : List String
  deriving DecidableEq, Repr

inductive Task where
  | external (step : ExternalStep)
  | generate
  deriving DecidableEq, Repr

def BuildSettings.tasks (b : BuildSettings) (source : Path) : List Task :=
  let compile := (ExternalStep.ofCommand? "compile" b.compiler none).map fun s =>
    (s.withArgument source).withArgument b.compilerOutput
  let contract := ExternalStep.ofCommand? "build contract" b.contractBuild (some b.contractDir)
  let cli := ExternalStep.ofCommand? "build cli" b.cliBuild (some b.cliDir)
  (compile.map .external).toList ++ (contract.map .external).toList ++ [.generate] ++
    (cli.map .external).toList

structure Job where
  options : SessionOptions
  cliDir : Path
  source : Path
  interface : Interface
  artifacts : List Path
  steps : List String

def Job.report (j : Job) : BuildReport :=
  ⟨j.source, j.interface.contractName, j.interface.operations.length,
    j.interface.stateVariables.length, j.artifacts, j.steps⟩

def Job.withStep (j : Job) (name : String) : Job := { j with steps := j.steps ++ [name] }

inductive Progress where
  | waiting (job : Job) (step : ExternalStep) (rest : List Task)
  | done (result : Except PipelineError BuildReport)

/-- Carries out tasks up to the next external step. -/
def Job.proceed (j : Job) (s : FileStore) : List Task → Progress × FileStore
  | [] => (.done (.ok j.report), s)
  | .external step :: rest => (.waiting j step rest, s)
  | .generate :: rest =>
    match emit j.interface j.options j.cliDir s with
    | (.error e, s) => (.done (.error e), s)
    | (.ok paths, s) => ({ j with artifacts := paths }.withStep "generate").proceed s rest

def Job.resume (j : Job) (step : ExternalStep) (rest : List Task) (reply : StepReply)
    (s : FileStore) : Progress × FileStore :=
  match reply with
  | .error cause => (.done (.error (.spawn step.name cause)), s)
  | .ok output =>
    if output.succeeded then (j.withStep step.name).proceed s rest
    else (.done (.error (.externalTool step.name output.code output.combined)), s)

def startBuild (b : BuildSettings) (options : SessionOptions) (s : FileStore) :
    Progress × FileStore :=
  match locateSource b s with
  | .error e => (.done (.error e), s)
  | .ok source =>
    match s.readText source with
    | .error e => (.done (.error (.sourceRead source e)), s)
    | .ok text =>
      let i := analyze text ((Path.fileName? source).getD "")
      (Job.mk options b.cliDir source i [] ["parse"]).proceed s (b.tasks source)

end ContractSurface
