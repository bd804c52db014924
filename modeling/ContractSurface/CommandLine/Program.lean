import ContractSurface.Build.Orchestrator
import ContractSurface.CommandLine.Failure
import ContractSurface.CommandLine.Invocation
import ContractSurface.Interface.Load
import ContractSurface.Interface.Report
import ContractSurface.Session.Machine

/-! # The program

What a command line does with the files, the lines of its input and a runner for steps. The
configuration is read before anything else, whatever the action. A run ends with an exit code: 0
when the action succeeded or only help was wanted, 1 when it failed, and 2 when the words made no
invocation.
-/
namespace ContractSurface.CommandLine

def programName : String := "compactgen"

def programVersion : String := "0.1.0"

def usage : String :=
  s!"Usage: {programName} [--config PATH] [--log-level FILTER] COMMAND\n\n" ++
    "  analyze SOURCE [--json]   Print the interface of a contract source\n" ++
    "  generate SOURCE OUT       Generate the API wrapper and the CLI below OUT/src\n" ++
    "  build [--source PATH]     Compile, build and generate once\n" ++
    "  watch [--source PATH]     Build again whenever a contract source changes\n" ++
    "  menu SOURCE               Try the operations of a contract\n"

namespace Notice

def output : Notice → String
  | .helpWanted => usage
  | .versionWanted => s!"{programName} {programVersion}\n"
  | _ => ""

def complaint : Notice → String
  | .helpWanted => ""
  | .versionWanted => ""
  | _ => usage

def code : Notice → Nat
  | .helpWanted => 0
  | .versionWanted => 0
  | _ => 2

end Notice

inductive Work where
  | print (text : String)
  | converse (session : Session)
  | watch (o : Orchestrator)

def withSource (b : BuildSettings) (source : Option Path) : BuildSettings :=
  { b with source := source.orElse fun _ => b.source }

def builtLine (r : BuildReport) : String :=
  s!"✓ {r.contractName} built from {r.source} ({r.steps.length} steps)\n"

def tellBuild : Option RunResult → Except Failure String
  | some (.ok (.completed report)) => .ok (builtLine report)
  | some (.ok (.skipped .inFlight)) => .ok "Build skipped (InFlight)\n"
  | some (.ok (.skipped .debounced)) => .ok "Build skipped (Debounced)\n"
  | some (.error e) => .error (.ofPipeline "Build pipeline" e)
  | none => .ok ""

/-- What builds are requested of. Watching needs the directory to be there. -/
def watchOrchestrator (b : BuildSettings) (options : SessionOptions) (files : FileStore) :
    Except Failure Orchestrator :=
  match files.find b.watchRoot with
  | .error e => .error ⟨s!"Watching {b.watchRoot}", [e.message]⟩
  | .ok _ => .ok (.ofSettings b options files)

def perform (runner : Orchestrator.Runner) (c : Configuration) (a : Action) (files : FileStore) :
    Except Failure Work × FileStore :=
  let onInterface (source : Path) (go : Interface → Except Failure Work × FileStore) :=
    match Interface.load files source with
    | .error e => (.error (.ofUnreadable e), files)
    | .ok i => go i
  match a with
  | .analyze source asJson =>
    onInterface source fun i =>
      (.ok (.print (if asJson then i.json.indented 0 ++ "\n" else i.summary)), files)
  | .generate source out =>
    onInterface source fun i =>
      match emit i c.session out files with
      | (.error e, files) => (.error (.ofPipeline s!"Generating into {out}" e), files)
      | (.ok paths, files) => (.ok (.print (String.join (paths.map (· ++ "\n")))), files)
  | .build source =>
    let (result, o) :=
      (Orchestrator.ofSettings (withSource c.build source) c.session files).build runner
    ((tellBuild result).map .print, o.files)
  | .watch source =>
    ((watchOrchestrator (withSource c.build source) c.session files).map .watch, files)
  | .menu source => onInterface source fun i => (.ok (.converse (.ofInterface i c.session)), files)

def start (runner : Orchestrator.Runner) (i : Invocation) (files : FileStore) :
    Except Failure Work × FileStore :=
  match Configuration.load files i.configuration with
  | .error e => (.error (.ofConfiguration e), files)
  | .ok c => perform runner c i.action files

def inputLines (input : String) : List String :=
  let lines := input.splitOn "\n"
  let whole := if lines.getLast? = some "" then lines.dropLast else lines
  whole.map fun line => (line.dropEndWhile (· == '\r')).toString

structure Conclusion where
  code : Nat
  output : List UInt8
  complaint : String
  files : FileStore

namespace Conclusion

def success (output : List UInt8) (files : FileStore) : Conclusion := ⟨0, output, "", files⟩

def failed (f : Failure) (output : List UInt8) (files : FileStore) : Conclusion :=
  ⟨1, output, f.report, files⟩

end Conclusion

/-- The state in which a conversation starts: no answer is read, and the contract has no ledger and
refuses nothing. -/
def conversation (lines : List String) : SessionState :=
  .start (.ofAnswers lines none none) (.fresh [] [] [])

def sessionFailure (fault : Fault) : Failure := .ofFault "Interactive session" fault

/-- Carries out work with the lines of an input. Watching comes down to its first build. -/
def finish (runner : Orchestrator.Runner) (w : Work) (lines : List String) (files : FileStore) :
    Conclusion :=
  match w with
  | .print text => .success (Text.utf8 text) files
  | .converse session =>
    let s := (conversation lines).run session
    match s.result with
    | .ok _ => .success s.console.transcript files
    | .error fault => .failed (sessionFailure fault) s.console.transcript files
  | .watch o => .success [] (o.build runner).2.files

/-- Runs the words after the program's name. The input can be read under its name among the files,
too, and the commands of a build read it there. -/
def run (runner : Orchestrator.Runner) (words : List String) (input : String) (files : FileStore) :
    Conclusion :=
  match invocation words with
  | .error notice => ⟨notice.code, Text.utf8 notice.output, notice.complaint, files⟩
  | .ok i =>
    match start runner i (files.withInput input.toUTF8) with
    | (.error f, files) => .failed f [] files
    | (.ok work, files) => finish runner work (inputLines input) files

end ContractSurface.CommandLine
