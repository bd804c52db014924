import ContractSurface.Interface.DeclaredType
import ContractSurface.Text.Quoted
import ContractSurface.TypeScript.Identifier

/-! # The generated API module

The module declares the shape of a deployed contract, with its transactions under `callTx` and its
queries beside it, one wrapper function for each operation, and tables of the operations and the
state variables. What the module says is built as data first and then written out.
-/
namespace ContractSurface.TypeScript

structure TypedName where
  name : String
  type : TargetType
  deriving DecidableEq, Repr

def TypedName.ofParameter (p : Parameter) : TypedName :=
  ⟨identifier p.name, targetType p.declaredType⟩

def TypedName.text (t : TypedName) : String := t.name ++ ": " ++ t.type.typeName

def typedList (ts : List TypedName) : String := ", ".intercalate (ts.map TypedName.text)

structure Member where
  name : String
  parameters : List TypedName
  result : TargetType
  deriving DecidableEq, Repr

def Member.ofOperation (o : Operation) : Member :=
  ⟨o.name, o.parameters.map .ofParameter, targetType o.returnType⟩

/-- A function of the module that calls the member `target` of a contract with `arguments`. -/
structure Wrapper where
  name : String
  parameters : List TypedName
  isTransaction : Bool
  result : TargetType
  target : String
  arguments : List String
  description : String
  deriving DecidableEq, Repr

def Wrapper.ofOperation (o : Operation) : Wrapper where
  name := identifier o.name
  parameters := o.parameters.map .ofParameter
  isTransaction := o.mutates
  result := targetType o.returnType
  target := o.name
  arguments := o.parameters.map fun p => identifier p.name
  description := o.description

structure OperationEntry where
  name : String
  isReadOnly : Bool
  parameters : List Parameter
  deriving DecidableEq, Repr

def OperationEntry.ofOperation (o : Operation) : OperationEntry :=
  ⟨o.name, !o.mutates, o.parameters⟩

structure Api where
  contractName : String
  transactions : List Member
  queries : List Member
  wrappers : List Wrapper
  operations : List OperationEntry
  stateVariables : List StateVariable
  deriving DecidableEq, Repr

def Api.ofInterface (i : Interface) : Api where
  contractName := i.contractName
  transactions := (i.operations.filter (·.mutates)).map .ofOperation
  queries := (i.operations.filter (!·.mutates)).map .ofOperation
  wrappers := i.operations.map .ofOperation
  operations := i.operations.map .ofOperation
  stateVariables := i.stateVariables

/-- A description as it stands in a comment: a slash that would close the comment is kept from
its star by a backslash. -/
def commentChars : List Char → List Char
  | '*' :: '/' :: cs => '*' :: '\\' :: '/' :: commentChars cs
  | c :: cs => c :: commentChars cs
  | [] => []

def commentText (s : String) : String := String.ofList (commentChars s.toList)

def docComment (description : String) : String := "/** " ++ commentText description ++ " */"

def receiptLines : List String :=
  ["export interface TransactionReceipt \x7b",
   "  transactionId: string;",
   "  blockHeight: bigint | number;",
   "\x7d",
   "",
   "export interface CallTxResult \x7b",
   "  public: \x7b txId: string; blockHeight: bigint | number \x7d;",
   "\x7d",
   ""]

def toReceiptLines : List String :=
  ["const toReceipt = (result: CallTxResult): TransactionReceipt => (\x7b",
   "  transactionId: result.public.txId,",
   "  blockHeight: result.public.blockHeight,",
   "\x7d);"]

def Member.transactionLine (m : Member) : String :=
  s!"    {m.name}({typedList m.parameters}): Promise<CallTxResult>;"

def Member.queryLine (m : Member) : String :=
  s!"  {m.name}({typedList m.parameters}): Promise<{m.result.typeName}>;"

def Api.bindingLines (a : Api) : List String :=
  [s!"export interface {bindingType a.contractName} \x7b", "  callTx: \x7b"] ++
    a.transactions.map Member.transactionLine ++ ["  \x7d;"] ++
    a.queries.map Member.queryLine ++ ["\x7d", ""]

def Wrapper.lines (binding : String) (w : Wrapper) : List String :=
  let signature :=
    "contract: " ++ binding ++ (if w.parameters.isEmpty then "" else ", " ++ typedList w.parameters)
  let result := if w.isTransaction then "TransactionReceipt" else w.result.typeName
  let arguments := ", ".intercalate w.arguments
  let body :=
    if w.isTransaction then
      [s!"  const result = await contract.callTx.{w.target}({arguments});",
       "  return toReceipt(result);"]
    else if w.result = .void then [s!"  await contract.{w.target}({arguments});"]
    else [s!"  return await contract.{w.target}({arguments});"]
  ["", docComment w.description,
   s!"export async function {w.name}({signature}): Promise<{result}> \x7b"] ++ body ++ ["\x7d"]

def nameAndType (name type : String) : String :=
  s!"\x7b name: {Text.quoted name}, type: {Text.quoted type} \x7d"

def OperationEntry.line (e : OperationEntry) : String :=
  let parameters := ", ".intercalate (e.parameters.map fun p => nameAndType p.name p.declaredType)
  s!"  \x7b name: {Text.quoted e.name}, readOnly: {e.isReadOnly}, params: [{parameters}] \x7d,"

def stateVariableLine (v : StateVariable) : String :=
  "  " ++ nameAndType v.name v.declaredType ++ ","

def Api.lines (a : Api) : List String :=
  banner a.contractName ++ receiptLines ++ a.bindingLines ++ toReceiptLines ++
    a.wrappers.flatMap (Wrapper.lines (bindingType a.contractName)) ++
    ["", "export const operations = ["] ++ a.operations.map OperationEntry.line ++
    ["] as const;", "", "export const stateVariables = ["] ++
    a.stateVariables.map stateVariableLine ++ ["] as const;"]

def Api.text (a : Api) : String := ofLines a.lines

end ContractSurface.TypeScript
