import ContractSurface.Build.Flight
import ContractSurface.Build.Pipeline

/-! # Build requests

Builds are requested at any time. A request that comes while a build is going on, or too soon after
one, is skipped; any other one starts a build. A build holds the flight until it ends, well or not,
and stands still while it waits for the reply to a step.
-/
namespace ContractSurface

inductive RunOutcome where
  | completed (report : BuildReport)
  | skipped (reason : SkipReason)
  deriving DecidableEq, Repr

abbrev RunResult := Except PipelineError RunOutcome

structure Pending where
  job : Job
  step : ExternalStep
  rest : List Task

/-- Where builds stand. `handed` lists the steps that were handed out, oldest first. -/
structure Orchestrator where
  settings : BuildSettings
  options : SessionOptions
  flight : Flight
  executions : Nat
  files : FileStore
  now : Nat
  pending : Option Pending
  handed : List ExternalStep

namespace Orchestrator

def ofSettings (settings : BuildSettings) (options : SessionOptions) (files : FileStore) :
    Orchestrator :=
  ⟨settings, options, .grounded settings.debounceMs, 0, files, 0, none, []⟩

/-- Takes up what a build has come to: it waits for a step that is handed out now, or it has ended
and gives its result. -/
def settle (o : Orchestrator) : Progress × FileStore → Option RunResult × Orchestrator
  | (.waiting job step rest, files) =>
    (none, { o with files, pending := some ⟨job, step, rest⟩, handed := o.handed ++ [step] })
  | (.done result, files) =>
    (some (result.map .completed),
      { o with files, pending := none, flight := o.flight.complete o.now })

def request (o : Orchestrator) : Option RunResult × Orchestrator :=
  match o.flight.tryBegin o.now with
  | .error reason => (some (.ok (.skipped reason)), o)
  | .ok flight =>
    { o with flight, executions := o.executions + 1 }.settle
      (startBuild o.settings o.options o.files)

def reply (o : Orchestrator) (r : StepReply) : Option RunResult × Orchestrator :=
  match o.pending with
  | none => (none, o)
  | some p => o.settle (p.job.resume p.step p.rest r o.files)

def advance (o : Orchestrator) (milliseconds : Nat) : Orchestrator :=
  { o with now := o.now + milliseconds }

abbrev Runner := ExternalStep → FileStore → Nat × StepReply × FileStore

def runStep (runner : Runner) (o : Orchestrator) : Option RunResult × Orchestrator :=
  match o.pending with
  | none => (none, o)
  | some p =>
    let (time, r, files) := runner p.step o.files
    ({ o with files }.advance time).reply r

/-- Runs steps for as long as the build waits and its next step takes no time. `steps` bounds their
number. -/
def runInstant (runner : Runner) : Nat → Option RunResult × Orchestrator →
    Option RunResult × Orchestrator
  | 0, state => state
  | steps + 1, (result, o) =>
    match result, o.pending with
    | none, some p =>
      if (runner p.step o.files).1 = 0 then runInstant runner steps (runStep runner o)
      else (none, o)
    | _, _ => (result, o)

def runAll (runner : Runner) : Nat → Option RunResult × Orchestrator →
    Option RunResult × Orchestrator
  | 0, state => state
  | steps + 1, (result, o) =>
    match result, o.pending with
    | none, some _ => runAll runner steps (runStep runner o)
    | _, _ => (result, o)

def mostSteps : Nat := 3

def build (runner : Runner) (o : Orchestrator) : Option RunResult × Orchestrator :=
  runAll runner mostSteps o.request

def requestMany (runner : Runner) : Nat → Orchestrator → List (Option RunResult) × Orchestrator
  | 0, o => ([], o)
  | count + 1, o =>
    let (result, o) := runInstant runner mostSteps o.request
    let (results, o) := requestMany runner count o
    (result :: results, o)

/-- Makes a number of requests at once and sees the build through that is then going on. The result
of that build stands at the place of its request. -/
def requestTogether (runner : Runner) (count : Nat) (o : Orchestrator) :
    List (Option RunResult) × Orchestrator :=
  let (results, o) := requestMany runner count o
  let (last, o) := runAll runner mostSteps (none, o)
  (results.map fun r => r.orElse fun _ => last, o)

end Orchestrator

end ContractSurface
