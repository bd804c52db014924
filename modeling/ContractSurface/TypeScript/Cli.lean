import ContractSurface.Call.Choice
import ContractSurface.Session.Menu
import ContractSurface.TypeScript.Helpers
import ContractSurface.TypeScript.Identifier

/-! # The generated command line module

The module offers the menu of a session to a person, one case for each entry. A case of an
operation reads the parameters in order, calls the wrapper of the API module and shows the outcome.
What the module says is built as data first and then written out.
-/
namespace ContractSurface.TypeScript

inductive Ask where
  | question (prompt : String)
  | pick (name : String) (choices : List Choice)
  deriving DecidableEq, Repr

inductive Reading where
  | integer (name : String) (ask : Ask) (range : IntegerRange)
  | boolean (name : String) (ask : Ask)
  | bytes (ask : Ask)
  | text (ask : Ask)
  deriving DecidableEq, Repr

def Ask.ofParameter (rules : List ChoiceRule) (p : Parameter) : Ask :=
  let choices := choicesFor rules p
  if choices.isEmpty then .question s!"{p.name} ({p.declaredType}): " else .pick p.name choices

def Reading.ofParameter (rules : List ChoiceRule) (p : Parameter) : Reading :=
  let ask := Ask.ofParameter rules p
  match parameterKind p.declaredType with
  | .integer range => .integer p.name ask range
  | .boolean => .boolean p.name ask
  | .bytes => .bytes ask
  | .text => .text ask

/-- The case of an operation: it binds each parameter to a name, and passes these names to the
wrapper. -/
structure OperationCase where
  number : Nat
  name : String
  wrapper : String
  bindings : List (String × Reading)
  givesReceipt : Bool
  deriving DecidableEq, Repr

def OperationCase.ofOperation (rules : List ChoiceRule) (number : Nat) (o : Operation) :
    OperationCase where
  number := number
  name := o.name
  wrapper := identifier o.name
  bindings := o.parameters.map fun p => (identifier p.name, Reading.ofParameter rules p)
  givesReceipt := o.mutates

def operationCases (rules : List ChoiceRule) (number : Nat) : List Operation → List OperationCase
  | [] => []
  | o :: os => .ofOperation rules number o :: operationCases rules (number + 1) os

/-- The cases are those of the operations, numbered in their order. -/
theorem mem_operationCases {rules : List ChoiceRule} {number : Nat} {os : List Operation}
    {c : OperationCase} : c ∈ operationCases rules number os ↔
      ∃ k o, os[k]? = some o ∧ c = .ofOperation rules (number + k) o := by
  induction os generalizing number with
  | nil => simp [operationCases]
  | cons o os ih =>
    rw [operationCases, List.mem_cons, ih]
    constructor
    · rintro (rfl | ⟨k, p, hp, rfl⟩)
      · exact ⟨0, o, rfl, rfl⟩
      · exact ⟨k + 1, p, hp, by rw [Nat.add_assoc, Nat.add_comm 1 k]⟩
    · rintro ⟨k, p, hp, rfl⟩
      cases k with
      | zero =>
        obtain rfl := Option.some.inj hp
        exact .inl rfl
      | succ k => exact .inr ⟨k, p, hp, by rw [Nat.add_assoc, Nat.add_comm 1 k]⟩

def operationLabels (number : Nat) : List Operation → List String
  | [] => []
  | o :: os => entryLabel number o :: operationLabels (number + 1) os

structure Cli where
  contractName : String
  labels : List String
  hints : List ErrorHint
  cases : List OperationCase
  stateNumber : Nat
  stateVariables : List StateVariable
  exitNumber : Nat
  deriving DecidableEq, Repr

def Cli.ofInterface (i : Interface) (options : SessionOptions) : Cli :=
  let n := i.operations.length
  { contractName := i.contractName
    labels := operationLabels 1 i.operations ++ [stateLabel (n + 1), exitLabel (n + 2)]
    hints := options.errorHints
    cases := operationCases options.choiceRules 1 i.operations
    stateNumber := n + 1
    stateVariables := i.stateVariables
    exitNumber := n + 2 }

def choiceText (c : Choice) : String :=
  s!"\x7b label: {Text.quoted c.label}, value: {Text.quoted c.value} \x7d"

def Ask.code : Ask → String
  | .question prompt => s!"await rl.question({Text.quoted prompt})"
  | .pick name choices =>
    let list := ", ".intercalate (choices.map choiceText)
    s!"await pickChoice(rl, {Text.quoted name}, [{list}])"

/-- An upper bound as a literal; without one, the value that stands for none. -/
def boundText : Option Nat → String
  | some max => s!"{max}n"
  | none => "undefined"

def Reading.code : Reading → String
  | .integer name ask range =>
    s!"parseInteger({Text.quoted name}, {ask.code}, {range.min}n, {boundText range.max})"
  | .boolean name ask => s!"parseBoolean({Text.quoted name}, {ask.code})"
  | .bytes ask => s!"parseBytes({ask.code})"
  | .text ask => ask.code

def bindingLine (b : String × Reading) : String := s!"          const {b.1} = {b.2.code};"

def OperationCase.outcomeLine (c : OperationCase) : String :=
  if c.givesReceipt then
    "          console.log(`✓ " ++ c.name ++
      " submitted: tx $\x7bresult.transactionId\x7d at block $\x7bresult.blockHeight\x7d`);"
  else s!"          console.log(`✓ {c.name} returned:`, formatValue(result));"

def OperationCase.lines (c : OperationCase) : List String :=
  let arguments := ", ".intercalate ("contract" :: c.bindings.map (·.1))
  [s!"      case '{c.number}': \x7b", "        try \x7b"] ++
    c.bindings.map bindingLine ++
    [s!"          const result = await api.{c.wrapper}({arguments});",
     c.outcomeLine,
     "        \x7d catch (error) \x7b",
     s!"          reportError({Text.quoted c.name}, error);",
     "        \x7d",
     "        break;",
     "      \x7d"]

def stateVariableLogLine (v : StateVariable) : String :=
  let title := Text.quoted s!"{v.name} ({v.declaredType}):"
  s!"          console.log({title}, formatValue(state[{Text.quoted v.name}]));"

def hintLine (h : ErrorHint) : String :=
  s!"  \x7b contains: {Text.quoted h.contains}, hint: {Text.quoted h.hint} \x7d,"

def Cli.headLines (c : Cli) : List String :=
  banner c.contractName ++
    ["import * as api from './api.js';",
     "import type \x7b " ++ bindingType c.contractName ++ " \x7d from './api.js';",
     "",
     "export interface LineReader \x7b",
     "  question(prompt: string): Promise<string>;",
     "\x7d",
     "",
     "interface Choice \x7b",
     "  label: string;",
     "  value: string;",
     "\x7d",
     "",
     "export const MENU: readonly string[] = ["] ++
    c.labels.map (fun label => "  " ++ Text.quoted label ++ ",") ++
    ["];",
     "",
     "const ERROR_HINTS: readonly \x7b contains: string; hint: string \x7d[] = ["] ++
    c.hints.map hintLine ++ ["];", ""]

def Cli.stateCaseLines (c : Cli) : List String :=
  [s!"      case '{c.stateNumber}': \x7b",
   "        try \x7b",
   "          const state = await readState();"] ++
    c.stateVariables.map stateVariableLogLine ++
    ["        \x7d catch (error) \x7b",
     "          reportError('display contract state', error);",
     "        \x7d",
     "        break;",
     "      \x7d"]

def Cli.loopLines (c : Cli) : List String :=
  ["export async function runCli(",
   "  contract: " ++ bindingType c.contractName ++ ",",
   "  rl: LineReader,",
   "  readState: () => Promise<Record<string, unknown>>,",
   "): Promise<void> \x7b",
   "  for (;;) \x7b",
   "    console.log('\\n' + MENU.join('\\n'));",
   "    const choice = (await rl.question('Select an option: ')).trim();",
   "    switch (choice) \x7b"] ++
    c.cases.flatMap OperationCase.lines ++ c.stateCaseLines ++
    [s!"      case '{c.exitNumber}':",
     "        console.log('Goodbye.');",
     "        return;",
     "      default:",
     "        console.log(`✗ Invalid option \"$\x7bchoice\x7d\", choose 1-" ++
       toString c.exitNumber ++ "`);",
     "    \x7d",
     "  \x7d",
     "\x7d"]

def Cli.text (c : Cli) : String := ofLines (c.headLines ++ helperLines ++ c.loopLines)

end ContractSurface.TypeScript
