import ContractSurface.Proofs.Interface.DeclaredTypes
import ContractSurface.Proofs.TypeScript.Questions

/-! # The types of the arguments that the command line passes

The generated command line binds each parameter to the result of a function that it declares or is
given, and passes it on to the wrapper of the API module. Both modules state types: the one for the
results of its functions, the other for the parameters of its wrappers. They go together unless the
declared type of the parameter is void.
-/
namespace ContractSurface.TypeScript

structure Declared where
  name : String
  parameters : String
  result : String
  isMethod : Bool
  isPromise : Bool
  deriving DecidableEq

namespace Declared

variable (d : Declared)

def resultText : String := if d.isPromise then s!"Promise<{d.result}>" else d.result

def lines : List String :=
  if d.isMethod then
    ["export interface LineReader \x7b", s!"  {d.name}({d.parameters}): {d.resultText};", "\x7d"]
  else
    let keyword := if d.isPromise then "async function" else "function"
    [s!"{keyword} {d.name}({d.parameters}): {d.resultText} \x7b"]

/-- A call up to its arguments. The value of a promise is awaited. -/
def callee : String :=
  let function := if d.isMethod then s!"rl.{d.name}" else d.name
  if d.isPromise then s!"await {function}" else function

end Declared

def integerReader : Declared :=
  ⟨"parseInteger", "name: string, text: string, min: bigint, max?: bigint", "bigint", false, false⟩

def booleanReader : Declared :=
  ⟨"parseBoolean", "name: string, text: string", "boolean", false, false⟩

def bytesReader : Declared := ⟨"parseBytes", "text: string", "Uint8Array", false, false⟩

def choicePicker : Declared :=
  ⟨"pickChoice", "rl: LineReader, name: string, choices: readonly Choice[]", "string", false, true⟩

def questioner : Declared := ⟨"question", "prompt: string", "string", true, true⟩

def readers : List Declared :=
  [integerReader, booleanReader, bytesReader, choicePicker, questioner]

def calleeOf (code : String) : String := String.ofList (code.toList.takeWhile (· != '('))

/-- The type of a call: the declared result of the function that it calls. -/
def typeOf? (code : String) : Option String :=
  (readers.find? (·.callee == calleeOf code)).map (·.result)

theorem calleeOf_append {callee rest : String} (unopened : '(' ∉ callee.toList) :
    calleeOf (callee ++ "(" ++ rest) = callee := by
  have opened : (callee ++ "(" ++ rest).toList = callee.toList ++ '(' :: rest.toList := by
    rw [String.toList_append, String.toList_append, List.append_assoc]
    rfl
  rw [calleeOf, opened, Text.takeWhile_ne_append unopened, String.ofList_toList]

/-- A call of a reader has the result that its declaration states. -/
theorem typeOf?_append (d : Declared) {opening : String} (hd : d ∈ readers)
    (same : d.callee ++ "(" = opening) (rest : String) :
    typeOf? (opening ++ rest) = some d.result := by
  have unopened : ∀ d ∈ readers, '(' ∉ d.callee.toList := by decide +kernel
  have first : ∀ d ∈ readers, readers.find? (·.callee == d.callee) = some d := by decide +kernel
  rw [typeOf?, ← same, calleeOf_append (unopened d hd), first d hd, Option.map_some]

def valueType : ParameterKind → TargetType
  | .integer _ => .bigInt
  | .boolean => .boolean
  | .bytes => .bytes
  | .text => .text

variable {rules : List ChoiceRule} {p : Parameter}

theorem typeOf?_ask (rules : List ChoiceRule) (p : Parameter) :
    typeOf? (Ask.ofParameter rules p).code = some "string" := by
  by_cases none : choicesFor rules p = []
  · rw [code_ask_of_eq_nil none]
    unfold questionText
    rw [String.append_assoc]
    exact typeOf?_append questioner (by decide) (by decide +kernel) _
  · rw [code_ask_of_ne_nil none]
    have shown : ∀ s : String, toString s = s := fun _ => rfl
    have parts : "await pickChoice(rl, " = "await pickChoice(" ++ "rl, " := by decide +kernel
    unfold pickText
    simp only [parts, shown, String.append_assoc]
    exact typeOf?_append choicePicker (by decide) (by decide +kernel) _

/-- What is bound to a parameter has the type of its kind. -/
theorem typeOf?_readerText (name : String) {ask : String} (asks : typeOf? ask = some "string")
    (kind : ParameterKind) :
    typeOf? (readerText name ask kind) = some (valueType kind).typeName := by
  unfold readerText
  simp only [String.append_assoc]
  cases kind with
  | integer range => exact typeOf?_append integerReader (by decide) (by decide +kernel) _
  | boolean => exact typeOf?_append booleanReader (by decide) (by decide +kernel) _
  | bytes => exact typeOf?_append bytesReader (by decide) (by decide +kernel) _
  | text => exact asks

/-- A value of the one type can be passed where the other is taken. -/
def Assignable (given taken : String) : Prop := given = taken ∨ taken = "unknown"

instance (given taken : String) : Decidable (Assignable given taken) :=
  inferInstanceAs (Decidable (_ ∨ _))

/-- What an answer is taken for is of the type that the wrapper takes, where that is the type of an
answer at all. -/
theorem valueType_parameterKind (declared : String) :
    valueType (parameterKind declared) = targetType declared ∨
      parameterKind declared = .text ∧ targetType declared ∈ [.void, .unknown] := by
  rw [parameterKind_eq]
  cases targetType declared <;> simp [valueType, TargetType.kind]

theorem valueType_ne_void (kind : ParameterKind) : valueType kind ≠ .void := by
  cases kind <;> exact TargetType.noConfusion

/-- The value of a parameter can be passed on unless its declared type is void. -/
theorem assignable_iff (declared : String) :
    Assignable (valueType (parameterKind declared)).typeName (targetType declared).typeName ↔
      ¬isVoid declared = true := by
  rw [← targetType_eq_void_iff]
  rcases valueType_parameterKind declared with same | ⟨text, other⟩
  · have valued := valueType_ne_void (parameterKind declared)
    rw [same] at valued ⊢
    exact iff_of_true (.inl rfl) valued
  · have given : (valueType (parameterKind declared)).typeName = "string" := by rw [text]; rfl
    rw [given]
    have cases : ∀ t ∈ [TargetType.void, .unknown],
        Assignable "string" t.typeName ↔ ¬t = .void := by
      decide
    exact cases _ other

def takenType (p : Parameter) : String := (targetType p.declaredType).typeName

/-- The module declares what its readers call, and has the line reader `rl` that they ask. -/
theorem shows_readers (c : Cli) :
    (∀ d ∈ readers, Shows c.text d.lines) ∧ Shows c.text ["  rl: LineReader,"] := by
  have functions : ∀ d ∈ [integerReader, booleanReader, bytesReader, choicePicker],
      ∃ line ∈ helperLines, d.lines = [line] := by decide +kernel
  have helpers : helperLines <:+: c.headLines ++ helperLines ++ c.loopLines :=
    ⟨c.headLines, c.loopLines, rfl⟩
  have method : questioner.lines <:+: c.headLines := by
    have lines : questioner.lines = ["export interface LineReader \x7b",
        "  question(prompt: string): Promise<string>;", "\x7d"] := by decide +kernel
    rw [lines, Cli.headLines]
    simp only [List.append_assoc]
    refine infix_append_left _ (infix_append_right _ ?_)
    exact ⟨["import * as api from './api.js';",
      "import type \x7b " ++ bindingType c.contractName ++ " \x7d from './api.js';", ""], _, rfl⟩
  have parameter : ["  rl: LineReader,"] <:+: c.loopLines := by
    rw [Cli.loopLines]
    simp only [List.append_assoc]
    refine infix_append_right _ ?_
    exact ⟨["export async function runCli(", "  contract: " ++ bindingType c.contractName ++ ","],
      _, rfl⟩
  refine ⟨?_, shows_of_infix (infix_append_left _ parameter)⟩
  intro d hd
  rcases List.mem_append.mp (show d ∈ [integerReader, booleanReader, bytesReader, choicePicker] ++
    [questioner] from hd) with function | asks
  · obtain ⟨line, mem, lines⟩ := functions d function
    rw [lines]
    exact shows_of_infix (((List.singleton_infix_iff _ _).mpr mem).trans helpers)
  · rw [List.mem_singleton.mp asks]
    exact shows_of_infix (infix_append_right _ (infix_append_right _ method))

/-- What the case of an operation passes and what its wrapper takes. -/
structure PassesTyped (binding api cli : String) (k : Nat) (o : Operation)
    (code : Parameter → String) : Prop where
  binds : Shows cli ([caseLine (k + 1), "        try \x7b"] ++
    o.parameters.map (fun p => s!"          const {identifier p.name} = {code p};") ++
    [requestLine o])
  takes : Shows api [signatureLine o binding, callLine o]
  typed : typedParameters o =
    ", ".intercalate (o.parameters.map fun p => identifier p.name ++ ": " ++ takenType p)

variable {i : Interface} {options : SessionOptions} {k : Nat} {o : Operation}

def readerCode (options : SessionOptions) (p : Parameter) : String :=
  readerText p.name (Ask.ofParameter options.choiceRules p).code (parameterKind p.declaredType)

theorem passesTyped_ofInterface (options : SessionOptions) (hk : i.operations[k]? = some o) :
    PassesTyped (bindingType i.contractName) (Api.ofInterface i).text
      (Cli.ofInterface i options).text k o (readerCode options) := by
  have inside := (lines_readers options.choiceRules (k + 1) o).trans (infix_caseLines hk)
  exact {
    binds := shows_of_infix (infix_case inside)
    takes := shows_wrapper (List.mem_of_getElem? hk)
    typed := rfl }

theorem typeOf?_readerCode (options : SessionOptions) (p : Parameter) :
    typeOf? (readerCode options p) = some (valueType (parameterKind p.declaredType)).typeName :=
  typeOf?_readerText p.name (typeOf?_ask options.choiceRules p) _

/-- For every source the command line passes what the wrappers take, but for void parameters: it
asks for these like for text. -/
theorem arguments_assignable_iff (source file : String) (options : SessionOptions) :
    let i := analyze source file
    ∃ api cli, generate i options = [⟨apiPath, api⟩, ⟨cliPath, cli⟩] ∧
      (∀ d ∈ readers, Shows cli d.lines) ∧ Shows cli ["  rl: LineReader,"] ∧
      ∀ k o, i.operations[k]? = some o → ∃ code,
        PassesTyped (bindingType i.contractName) api cli k o code ∧
        ∀ p ∈ o.parameters, ∃ given, typeOf? (code p) = some given ∧
          (Assignable given (takenType p) ↔ ¬isVoid p.declaredType = true) ∧
          (isVoid p.declaredType = true → given = "string" ∧ takenType p = "void") := by
  intro i
  obtain ⟨declared, asked⟩ := shows_readers (Cli.ofInterface i options)
  refine ⟨_, _, rfl, declared, asked, fun k o hk => ⟨_, passesTyped_ofInterface options hk, ?_⟩⟩
  intro p _
  refine ⟨_, typeOf?_readerCode options p, assignable_iff p.declaredType, fun void => ?_⟩
  have target : targetType p.declaredType = .void := targetType_eq_void_iff.mpr void
  rcases valueType_parameterKind p.declaredType with same | ⟨text, _⟩
  · exact absurd (same.trans target) (valueType_ne_void _)
  · rw [text, takenType, target]
    exact ⟨rfl, rfl⟩

/-- A count is read as the integer that the wrapper takes. A key without a type is read as text. -/
theorem count_assignable_key_not :
    let i := analyze "export circuit store(count: Uint<8>, key): [] {}" "contract.compact"
    let count : Parameter := ⟨"count", "Uint<8>"⟩
    let key : Parameter := ⟨"key", ""⟩
    let store : Operation := ⟨"store", [count, key], "[]", true, "Execute store"⟩
    i.operations[0]? = some store ∧
    ∃ api cli code, generate i .standard = [⟨apiPath, api⟩, ⟨cliPath, cli⟩] ∧
      PassesTyped (bindingType i.contractName) api cli 0 store code ∧
      (∃ given, typeOf? (code count) = some given ∧ Assignable given (takenType count)) ∧
      typeOf? (code key) = some "string" ∧ takenType key = "void" := by
  intro i count key store
  have only : i.operations[0]? = some store := by decide +kernel
  obtain ⟨api, cli, files, _, _, typed⟩ := arguments_assignable_iff
    "export circuit store(count: Uint<8>, key): [] {}" "contract.compact" .standard
  obtain ⟨code, passes, types⟩ := typed 0 store only
  obtain ⟨given, ofCount, assignable, _⟩ := types count (by simp [store])
  obtain ⟨text, ofKey, _, void⟩ := types key (by simp [store])
  obtain ⟨rfl, taken⟩ := void (by decide)
  exact ⟨only, api, cli, code, files, passes,
    ⟨given, ofCount, assignable.mpr (by decide +kernel)⟩, ofKey, taken⟩

/-- A parameter without a type is asked for like text, and the wrapper takes nothing for it. -/
theorem untyped_key_not_assignable :
    let i := analyze "export circuit store(key): [] {}" "contract.compact"
    (∃ api cli, generate i .standard = [⟨apiPath, api⟩, ⟨cliPath, cli⟩] ∧
      Shows cli ["      case '1': \x7b", "        try \x7b",
        "          const key = await rl.question(\"key (): \");",
        "          const result = await api.store(contract, key);"] ∧
      Shows api ["export async function store(contract: DeployedContractContract, key: void): " ++
          "Promise<TransactionReceipt> \x7b",
        "  const result = await contract.callTx.store(key);"]) ∧
    typeOf? "await rl.question(\"key (): \")" = some "string" ∧ ¬Assignable "string" "void" := by
  intro i
  have only : i.operations[0]? =
      some ⟨"store", [⟨"key", ""⟩], "[]", true, "Execute store"⟩ := by decide +kernel
  have passes := passesTyped_ofInterface .standard only
  have named : bindingType i.contractName = "DeployedContractContract" := by decide +kernel
  rw [named] at passes
  refine ⟨⟨_, _, rfl, ?_, ?_⟩, by decide +kernel, by decide +kernel⟩
  · refine Eq.mp (congrArg _ ?_) passes.binds
    decide +kernel
  · refine Eq.mp (congrArg _ ?_) passes.takes
    decide +kernel

end ContractSurface.TypeScript
