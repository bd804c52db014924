import ContractSurface.CommandLine.Switch
import ContractSurface.Configuration

/-! # Invocations

What a command line asks for. The switches that name the configuration and the log filter may stand
before the command, among its own words, or both; then those among its own words count.
-/
namespace ContractSurface.CommandLine

inductive Action where
  | analyze (source : Path) (asJson : Bool)
  | generate (source out : Path)
  | build (source : Option Path)
  | watch (source : Option Path)
  | menu (source : Path)
  deriving DecidableEq, Repr

structure Invocation where
  configuration : Path
  logFilter : Option String
  action : Action
  deriving DecidableEq, Repr

def sharedSwitches : List Switch :=
  [⟨"config", none, .path⟩, ⟨"log-level", none, .text⟩, ⟨"help", some 'h', .help⟩]

def outerCommand : Command where
  switches := sharedSwitches ++ [⟨"version", some 'V', .version⟩]
  places := []
  inner := ["analyze", "generate", "build", "watch", "menu", "help"]

def innerCommand (name : String) : Command :=
  if name = "analyze" then
    ⟨sharedSwitches ++ [⟨"json", none, .nothing⟩], ["SOURCE"], []⟩
  else if name = "generate" then ⟨sharedSwitches, ["SOURCE", "OUT"], []⟩
  else if name = "menu" then ⟨sharedSwitches, ["SOURCE"], []⟩
  else ⟨sharedSwitches ++ [⟨"source", none, .path⟩], [], []⟩

/-- The action of a command, unless a place is left empty. -/
def actionOf? (name : String) (g : Given) : Option Action :=
  if name = "analyze" then
    (g.value? "SOURCE").map fun source => .analyze source (g.value? "json").isSome
  else if name = "generate" then do
    return .generate (← g.value? "SOURCE") (← g.value? "OUT")
  else if name = "menu" then (g.value? "SOURCE").map .menu
  else if name = "build" then some (.build (g.value? "source"))
  else some (.watch (g.value? "source"))

/-- What a question for help comes to: it names at most one command. -/
def helpNotice : List String → Notice
  | [] => .helpWanted
  | [name] => if name ∈ outerCommand.inner then .helpWanted else .unknownCommand
  | _ => .unknownCommand

def invocation (words : List String) : Except Notice Invocation := do
  let (outer, inner) ← outerCommand.read words
  match inner with
  | none =>
    let outer ← outer.settle
    throw (if outer.values = [] then .nothingGiven else .missingCommand)
  | some (name, words) =>
    if name = "help" then throw (helpNotice words)
    let (own, _) ← (innerCommand name).read words
    let own ← own.settle
    let action ← (actionOf? name own).elim (throw .missingArgument) pure
    let outer ← outer.settle
    let value? (key : String) : Option String :=
      (own.value? key).orElse fun _ => outer.value? key
    return ⟨(value? "config").getD Configuration.standardPath, value? "log-level", action⟩

end ContractSurface.CommandLine
