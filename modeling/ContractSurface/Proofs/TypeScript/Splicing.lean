import ContractSurface.Proofs.Interface.Names
import ContractSurface.Proofs.Interface.Operations
import ContractSurface.Proofs.Source.Words
import ContractSurface.Proofs.TypeScript.Remarks
import ContractSurface.Proofs.TypeScript.Shapes
import ContractSurface.TypeScript.Artifact
import Mathlib.Data.List.Chain

/-! # What a source brings into the generated modules

Whatever a source and its file name are, the names of the interface are words. Every line of the
generated modules has one of a few shapes, and where something of the interface stands outside of
quotes and comments it is such a word.
-/
namespace ContractSurface.TypeScript

section Lines
open Shape

def typeName : Shape :=
  text "bigint" ||| text "Uint8Array" ||| text "boolean" ||| text "string" ||| text "void" |||
    text "unknown"

def typedNames : Shape := list (name ++ text ": " ++ typeName)

def quotedNameAndType : Shape :=
  text "\x7b name: " ++ quoted ++ text ", type: " ++ quoted ++ text " \x7d"

def titleShape : Shape := text "// Contract: " ++ title

def bindingShape : Shape := text "export interface " ++ name ++ text " \x7b"

def transactionShape : Shape :=
  text "    " ++ name ++ text "(" ++ typedNames ++ text "): Promise<CallTxResult>;"

def queryShape : Shape :=
  text "  " ++ name ++ text "(" ++ typedNames ++ text "): Promise<" ++ typeName ++ text ">;"

def remarkShape : Shape := text "/** " ++ remark ++ text " */"

def signatureShape : Shape :=
  text "export async function " ++ name ++ text "(" ++
    (text "contract: " ++ name ++ (text "" ||| text ", " ++ typedNames)) ++ text "): Promise<" ++
    (text "TransactionReceipt" ||| typeName) ++ text "> \x7b"

def memberShape : Shape :=
  (text "  const result = await contract.callTx." ||| text "  await contract." |||
    text "  return await contract.") ++ name ++ text "(" ++ list name ++ text ");"

def operationShape : Shape :=
  text "  \x7b name: " ++ quoted ++ text ", readOnly: " ++ (text "true" ||| text "false") ++
    text ", params: [" ++ list quotedNameAndType ++ text "] \x7d,"

def stateVariableShape : Shape := text "  " ++ quotedNameAndType ++ text ","

def bannerLines : List String :=
  ["// Auto-generated by compactgen – DO NOT EDIT",
   "// Regeneration overwrites this file; manual edits are lost.", ""]

def apiGrammar : Grammar where
  fixed := bannerLines ++ receiptLines ++ toReceiptLines ++
    ["  callTx: \x7b", "  \x7d;", "\x7d", "  return toReceipt(result);",
     "export const operations = [", "export const stateVariables = [", "] as const;"]
  shapes := [titleShape, bindingShape, transactionShape, queryShape, remarkShape, signatureShape,
    memberShape, operationShape, stateVariableShape]

def importShape : Shape := text "import type \x7b " ++ name ++ text " \x7d from './api.js';"

def labelShape : Shape := text "  " ++ quoted ++ text ","

def hintShape : Shape :=
  text "  \x7b contains: " ++ quoted ++ text ", hint: " ++ quoted ++ text " \x7d,"

def contractShape : Shape := text "  contract: " ++ name ++ text ","

def caseShape : Shape := text "      case '" ++ number ++ (text "': \x7b" ||| text "':")

def choiceShape : Shape :=
  text "\x7b label: " ++ quoted ++ text ", value: " ++ quoted ++ text " \x7d"

def askShape : Shape :=
  text "await rl.question(" ++ quoted ++ text ")" |||
    text "await pickChoice(rl, " ++ quoted ++ text ", [" ++ list choiceShape ++ text "])"

def readerShape : Shape :=
  text "parseInteger(" ++ quoted ++ text ", " ++ askShape ++ text ", " ++ number ++ text "n, " ++
      (number ++ text "n" ||| text "undefined") ++ text ")" |||
    text "parseBoolean(" ++ quoted ++ text ", " ++ askShape ++ text ")" |||
    text "parseBytes(" ++ askShape ++ text ")" ||| askShape

def readingShape : Shape := text "          const " ++ name ++ text " = " ++ readerShape ++ text ";"

def requestShape : Shape :=
  text "          const result = await api." ++ name ++ text "(" ++ list name ++ text ");"

def outcomeShape : Shape :=
  text "          console.log(`✓ " ++ name ++
    (text " submitted: tx $\x7bresult.transactionId\x7d at block $\x7bresult.blockHeight\x7d`);" |||
      text " returned:`, formatValue(result));")

def failureShape : Shape := text "          reportError(" ++ quoted ++ text ", error);"

def stateShape : Shape :=
  text "          console.log(" ++ quoted ++ text ", formatValue(state[" ++ quoted ++ text "]));"

def invalidShape : Shape :=
  text "        console.log(`✗ Invalid option \"$\x7bchoice\x7d\", choose 1-" ++ number ++
    text "`);"

def cliGrammar : Grammar where
  fixed := bannerLines ++ helperLines ++
    ["import * as api from './api.js';", "export interface LineReader \x7b",
     "  question(prompt: string): Promise<string>;", "\x7d", "interface Choice \x7b",
     "  label: string;", "  value: string;", "export const MENU: readonly string[] = [", "];",
     "const ERROR_HINTS: readonly \x7b contains: string; hint: string \x7d[] = [",
     "export async function runCli(", "  rl: LineReader,",
     "  readState: () => Promise<Record<string, unknown>>,", "): Promise<void> \x7b",
     "  for (;;) \x7b", "    console.log('\\n' + MENU.join('\\n'));",
     "    const choice = (await rl.question('Select an option: ')).trim();",
     "    switch (choice) \x7b", "        try \x7b", "        \x7d catch (error) \x7b", "        \x7d",
     "        break;", "      \x7d", "          const state = await readState();",
     "          reportError('display contract state', error);",
     "        console.log('Goodbye.');", "        return;", "      default:", "    \x7d", "  \x7d"]
  shapes := [titleShape, importShape, labelShape, hintShape, contractShape, caseShape, readingShape,
    requestShape, outcomeShape, failureShape, stateShape, invalidShape]

end Lines

/-- All names of the interface are words, and its texts fit where they are shown. -/
structure Spliceable (i : Interface) : Prop where
  contract : IsTitle i.contractName
  operations : ∀ o ∈ i.operations, IsIdentifier o.name
  parameters : ∀ o ∈ i.operations, ∀ p ∈ o.parameters, IsIdentifier p.name
  descriptions : ∀ o ∈ i.operations, OneLine o.description
  stateVariables : ∀ v ∈ i.stateVariables, IsIdentifier v.name
  types : ∀ v ∈ i.stateVariables,
    v.declaredType ≠ "" ∧ Text.trimmed v.declaredType = v.declaredType

theorem oneLine_describe {c : Source.Circuit} (h : (Source.Declaration.circuit c).WellFormed) :
    OneLine (describe c) := by
  obtain ⟨name, -, doc⟩ := h
  unfold describe
  split
  · exact OneLine.append (by decide) (oneLine_of_isIdentifier name)
  · exact oneLine_intercalate (by decide) doc

/-- What is read from a source, whatever the source and its file name are, may be written out. -/
theorem spliceable_analyze (source file : String) : Spliceable (analyze source file) := by
  have circuit : ∀ o ∈ (analyze source file).operations, ∃ c,
      (Source.Declaration.circuit c).WellFormed ∧ o = .ofCircuit c := by
    intro o ho
    obtain ⟨c, mem, rfl⟩ := List.mem_map.mp ho
    exact ⟨c, Source.wellFormed_circuit (mem_of_mem_firstOfName mem), rfl⟩
  constructor
  · exact isTitle_contractNameOfFile file
  · intro o ho
    obtain ⟨c, well, rfl⟩ := circuit o ho
    exact well.1
  · intro o ho p hp
    obtain ⟨c, well, rfl⟩ := circuit o ho
    exact well.2.1 p hp
  · intro o ho
    obtain ⟨c, well, rfl⟩ := circuit o ho
    exact oneLine_describe well
  · intro v hv
    exact (Source.wellFormed_ledger hv).1
  · intro v hv
    exact (Source.wellFormed_ledger hv).2

theorem IsIdentifier.append {s t : String} (hs : IsIdentifier s)
    (ht : ∀ c ∈ t.toList, Source.isWordChar c = true) : IsIdentifier (s ++ t) := by
  unfold IsIdentifier at *
  cases hn : s.toList with
  | nil => simp [Source.Token.IsLexical, hn] at hs
  | cons c cs =>
    simp only [Source.Token.IsLexical, hn] at hs
    have whole : (s ++ t).toList = c :: (cs ++ t.toList) := by
      rw [String.toList_append, hn, List.cons_append]
    simp only [Source.Token.IsLexical, whole]
    exact ⟨hs.1, List.forall_mem_append.mpr ⟨hs.2, ht⟩⟩

theorem isIdentifier_identifier {name : String} (h : IsIdentifier name) :
    IsIdentifier (identifier name) := by
  unfold identifier
  split
  · exact h.append (List.all_eq_true.mp (by decide))
  · exact h

theorem isIdentifier_bindingType {contractName : String} (h : IsTitle contractName) :
    IsIdentifier (bindingType contractName) := by
  have start : IsIdentifier "Deployed" := ⟨by decide, List.all_eq_true.mp (by decide)⟩
  have letters : ∀ c ∈ contractName.toList, Source.isWordChar c = true := by
    intro c hc
    simp [Source.isWordChar, h.2 c hc]
  exact (start.append letters).append (List.all_eq_true.mp (by decide))

theorem isRemark_commentText {description : String} (h : OneLine description) :
    IsRemark (commentText description) := by
  constructor
  · intro lineEnd
    rw [commentText, String.toList_ofList] at lineEnd
    rcases mem_commentChars lineEnd with inside | escape
    · exact h inside
    · exact absurd escape (by decide)
  · rw [commentText, String.toList_ofList]
    exact isChain_commentChars _

section Fits
open Shape

theorem fits_typeName (t : TargetType) : typeName.Fits t.typeName := by
  cases t with
  | bigInt => exact .left (.left (.left (.left (.left (.text _)))))
  | bytes => exact .left (.left (.left (.left (.right (.text _)))))
  | boolean => exact .left (.left (.left (.right (.text _))))
  | text => exact .left (.left (.right (.text _)))
  | void => exact .left (.right (.text _))
  | unknown => exact .right (.text _)

theorem fits_typedList {ts : List TypedName} (h : ∀ t ∈ ts, IsIdentifier t.name) :
    typedNames.Fits (typedList ts) := by
  refine .list (List.forall_mem_map.mpr fun t ht => ?_)
  exact ((Fits.name (h t ht)).seq (.text _)).seq (fits_typeName t.type)

theorem fits_nameAndType (name type : String) : quotedNameAndType.Fits (nameAndType name type) :=
  ((((Fits.text _).seq (.quoted name)).seq (.text _)).seq (.quoted type)).seq (.text _)

theorem fits_names {names : List String} (h : ∀ n ∈ names, IsIdentifier n) :
    (list name).Fits (", ".intercalate names) := .list fun n hn => .name (h n hn)

theorem fits_ask (a : Ask) : askShape.Fits a.code := by
  cases a with
  | question prompt => exact .left (((Fits.text _).seq (.quoted prompt)).seq (.text _))
  | pick parameter choices =>
    have offered : (list choiceShape).Fits (", ".intercalate (choices.map choiceText)) := by
      refine .list (List.forall_mem_map.mpr fun c _ => ?_)
      exact ((((Fits.text _).seq (.quoted c.label)).seq (.text _)).seq (.quoted c.value)).seq
        (.text _)
    exact .right (((((Fits.text _).seq (.quoted parameter)).seq (.text _)).seq offered).seq
      (.text _))

theorem fits_bound (bound : Option Nat) :
    (number ++ text "n" ||| text "undefined").Fits (boundText bound) := by
  cases bound with
  | none => exact .right (.text _)
  | some max => exact .left ((Fits.number max).seq (.text _))

/-- Every reader fits the one shape of readers. -/
theorem fits_reader (r : Reading) : readerShape.Fits r.code := by
  cases r with
  | integer parameter ask range =>
    refine .left (.left (.left ?_))
    exact ((((((((Fits.text _).seq (.quoted parameter)).seq (.text _)).seq (fits_ask ask)).seq
      (.text _)).seq (.number range.min)).seq (.text _)).seq (fits_bound range.max)).seq (.text _)
  | boolean parameter ask =>
    refine .left (.left (.right ?_))
    exact ((((Fits.text _).seq (.quoted parameter)).seq (.text _)).seq (fits_ask ask)).seq (.text _)
  | bytes ask => exact .left (.right (((Fits.text _).seq (fits_ask ask)).seq (.text _)))
  | text ask => exact .right (fits_ask ask)

end Fits

theorem Grammar.allows_of_fits {g : Grammar} {line : String} (shape : Shape)
    (mem : shape ∈ g.shapes) (fits : shape.Fits line) : g.Allows line := .inr ⟨shape, mem, fits⟩

theorem Grammar.allows_banner {g : Grammar} (fixed : bannerLines ⊆ g.fixed)
    (title : titleShape ∈ g.shapes) {contractName : String} (h : IsTitle contractName) :
    ∀ line ∈ banner contractName, g.Allows line := by
  have plain : ∀ line ∈ bannerLines, g.Allows line := fun line mem => .inl (fixed mem)
  simp only [bannerLines, List.forall_mem_cons] at plain
  obtain ⟨first, last, blank, none⟩ := plain
  have named : g.Allows ("// Contract: " ++ contractName) :=
    allows_of_fits titleShape title ((Shape.Fits.text _).seq (.title h))
  exact List.forall_mem_cons.mpr ⟨first, List.forall_mem_cons.mpr ⟨named,
    List.forall_mem_cons.mpr ⟨last, List.forall_mem_cons.mpr ⟨blank, none⟩⟩⟩⟩

section Api
open Shape

variable {i : Interface} {o : Operation}

structure Callable (o : Operation) : Prop where
  name : IsIdentifier o.name
  parameters : ∀ p ∈ o.parameters, IsIdentifier p.name
  description : OneLine o.description

theorem Spliceable.callable (h : Spliceable i) (ho : o ∈ i.operations) : Callable o :=
  ⟨h.operations o ho, h.parameters o ho, h.descriptions o ho⟩

theorem Callable.typed (h : Callable o) :
    ∀ t ∈ o.parameters.map TypedName.ofParameter, IsIdentifier t.name :=
  List.forall_mem_map.mpr fun p hp => isIdentifier_identifier (h.parameters p hp)

theorem Callable.passed (h : Callable o) :
    ∀ n ∈ o.parameters.map fun p => identifier p.name, IsIdentifier n :=
  List.forall_mem_map.mpr fun p hp => isIdentifier_identifier (h.parameters p hp)

theorem allows_transaction (h : Callable o) :
    apiGrammar.Allows (Member.ofOperation o).transactionLine := by
  refine Grammar.allows_of_fits transactionShape (by simp [apiGrammar]) ?_
  exact ((((Fits.text _).seq (.name h.name)).seq (.text _)).seq (fits_typedList h.typed)).seq
    (.text _)

theorem allows_query (h : Callable o) : apiGrammar.Allows (Member.ofOperation o).queryLine := by
  refine Grammar.allows_of_fits queryShape (by simp [apiGrammar]) ?_
  exact ((((((Fits.text _).seq (.name h.name)).seq (.text _)).seq (fits_typedList h.typed)).seq
    (.text _)).seq (fits_typeName _)).seq (.text _)

theorem allows_bindingLines (h : Spliceable i) :
    ∀ line ∈ (Api.ofInterface i).bindingLines, apiGrammar.Allows line := by
  have head : apiGrammar.Allows s!"export interface {bindingType i.contractName} \x7b" := by
    refine Grammar.allows_of_fits bindingShape (by simp [apiGrammar]) ?_
    exact ((Fits.text _).seq (.name (isIdentifier_bindingType h.contract))).seq (.text _)
  have transactions : ∀ line ∈ (Api.ofInterface i).transactions.map Member.transactionLine,
      apiGrammar.Allows line := by
    simp only [Api.ofInterface, List.forall_mem_map]
    exact fun o ho => allows_transaction (h.callable (List.mem_filter.mp ho).1)
  have queries : ∀ line ∈ (Api.ofInterface i).queries.map Member.queryLine,
      apiGrammar.Allows line := by
    simp only [Api.ofInterface, List.forall_mem_map]
    exact fun o ho => allows_query (h.callable (List.mem_filter.mp ho).1)
  simp only [Api.bindingLines, List.forall_mem_append, List.forall_mem_cons]
  refine ⟨⟨⟨⟨⟨head, ?_, by simp⟩, transactions⟩, ?_, by simp⟩, queries⟩, ?_, ?_, by simp⟩
  all_goals exact .inl (by simp [apiGrammar, bannerLines])

theorem allows_remark (h : Callable o) : apiGrammar.Allows (docComment o.description) := by
  refine Grammar.allows_of_fits remarkShape (by simp [apiGrammar]) ?_
  exact ((Fits.text _).seq (.remark (isRemark_commentText h.description))).seq (.text _)

theorem allows_signature (h : Callable o) {binding : String} (hb : IsIdentifier binding)
    (result : TargetType) (isTransaction : Bool) :
    apiGrammar.Allows ("export async function " ++ identifier o.name ++ "(" ++
      ("contract: " ++ binding ++
        (if (o.parameters.map TypedName.ofParameter).isEmpty then ""
          else ", " ++ typedList (o.parameters.map TypedName.ofParameter))) ++
      "): Promise<" ++ (if isTransaction then "TransactionReceipt" else result.typeName) ++
      "> \x7b") := by
  have more : (text "" ||| text ", " ++ typedNames).Fits
      (if (o.parameters.map TypedName.ofParameter).isEmpty then ""
        else ", " ++ typedList (o.parameters.map TypedName.ofParameter)) := by
    split
    · exact .left (.text _)
    · exact .right ((Fits.text _).seq (fits_typedList h.typed))
  have given : (text "TransactionReceipt" ||| typeName).Fits
      (if isTransaction then "TransactionReceipt" else result.typeName) := by
    split
    · exact .left (.text _)
    · exact .right (fits_typeName result)
  have wrapper := isIdentifier_identifier h.name
  refine Grammar.allows_of_fits signatureShape (by simp [apiGrammar]) ?_
  exact ((((((Fits.text _).seq (.name wrapper)).seq (.text _)).seq
    (((Fits.text _).seq (.name hb)).seq more)).seq (.text _)).seq given).seq (.text _)

theorem allows_member (h : Callable o) {start : String}
    (hs : (text "  const result = await contract.callTx." ||| text "  await contract." |||
      text "  return await contract.").Fits start) :
    apiGrammar.Allows (start ++ o.name ++ "(" ++
      ", ".intercalate (o.parameters.map fun p => identifier p.name) ++ ");") := by
  refine Grammar.allows_of_fits memberShape (by simp [apiGrammar]) ?_
  exact (((hs.seq (.name h.name)).seq (.text _)).seq (fits_names h.passed)).seq (.text _)

theorem allows_wrapper (h : Callable o) {binding : String} (hb : IsIdentifier binding) :
    ∀ line ∈ (Wrapper.ofOperation o).lines binding, apiGrammar.Allows line := by
  have signature := allows_signature h hb (targetType o.returnType) o.mutates
  -- the texts that are put together are brought to the form of the shapes first
  dsimp only [Wrapper.lines, Wrapper.ofOperation, toString]
  simp only [List.forall_mem_append, List.forall_mem_cons]
  refine ⟨⟨⟨?_, allows_remark h, signature, by simp⟩, ?_⟩, ?_, by simp⟩
  · exact .inl (by simp [apiGrammar, bannerLines])
  · split
    · refine List.forall_mem_cons.mpr ⟨allows_member h (.left (.left (.text _))), ?_⟩
      exact List.forall_mem_singleton.mpr (.inl (by simp [apiGrammar]))
    · split
      · exact List.forall_mem_singleton.mpr (allows_member h (.left (.right (.text _))))
      · exact List.forall_mem_singleton.mpr (allows_member h (.right (.text _)))
  · exact .inl (by simp [apiGrammar])

theorem allows_operation (o : Operation) :
    apiGrammar.Allows (OperationEntry.ofOperation o).line := by
  have listed : (list quotedNameAndType).Fits
      (", ".intercalate (o.parameters.map fun p => nameAndType p.name p.declaredType)) :=
    .list (List.forall_mem_map.mpr fun p _ => fits_nameAndType p.name p.declaredType)
  have readOnly : (text "true" ||| text "false").Fits (toString !o.mutates) := by
    cases o.mutates with
    | true => exact .right (.text _)
    | false => exact .left (.text _)
  refine Grammar.allows_of_fits operationShape (by simp [apiGrammar]) ?_
  exact ((((((Fits.text _).seq (.quoted o.name)).seq (.text _)).seq readOnly).seq (.text _)).seq
    listed).seq (.text _)

theorem allows_stateVariable (v : StateVariable) : apiGrammar.Allows (stateVariableLine v) := by
  refine Grammar.allows_of_fits stateVariableShape (by simp [apiGrammar]) ?_
  exact ((Fits.text _).seq (fits_nameAndType v.name v.declaredType)).seq (.text _)

/-- Every line of the API module is one that the grammar allows. -/
theorem allows_apiLines (h : Spliceable i) :
    ∀ line ∈ (Api.ofInterface i).lines, apiGrammar.Allows line := by
  have opening : ∀ line ∈ banner i.contractName, apiGrammar.Allows line :=
    Grammar.allows_banner (by simp [apiGrammar]) (by simp [apiGrammar]) h.contract
  have receipts : ∀ line ∈ receiptLines, apiGrammar.Allows line :=
    fun line mem => .inl (by simp [apiGrammar, mem])
  have receive : ∀ line ∈ toReceiptLines, apiGrammar.Allows line :=
    fun line mem => .inl (by simp [apiGrammar, mem])
  have wrappers : ∀ line ∈ (Api.ofInterface i).wrappers.flatMap
      (Wrapper.lines (bindingType i.contractName)), apiGrammar.Allows line := by
    intro line mem
    rw [Api.ofInterface, List.flatMap_map] at mem
    obtain ⟨o, ho, mem⟩ := List.mem_flatMap.mp mem
    exact allows_wrapper (h.callable ho) (isIdentifier_bindingType h.contract) line mem
  have operations : ∀ line ∈ (Api.ofInterface i).operations.map OperationEntry.line,
      apiGrammar.Allows line := by
    simp only [Api.ofInterface, List.forall_mem_map]
    exact fun o _ => allows_operation o
  have stateVariables : ∀ line ∈ (Api.ofInterface i).stateVariables.map stateVariableLine,
      apiGrammar.Allows line := List.forall_mem_map.mpr fun v _ => allows_stateVariable v
  simp only [Api.lines, List.forall_mem_append, List.forall_mem_cons]
  refine ⟨⟨⟨⟨⟨⟨⟨⟨⟨opening, receipts⟩, allows_bindingLines h⟩, receive⟩, wrappers⟩, ?_, ?_, by simp⟩,
    operations⟩, ?_, ?_, ?_, by simp⟩, stateVariables⟩, ?_, by simp⟩
  all_goals exact .inl (by simp [apiGrammar, bannerLines])

end Api

section Cli
open Shape

variable {i : Interface} {o : Operation}

theorem allows_binding (h : Callable o) {p : Parameter} (hp : p ∈ o.parameters) (r : Reading) :
    cliGrammar.Allows (bindingLine (identifier p.name, r)) := by
  have bound := isIdentifier_identifier (h.parameters p hp)
  refine Grammar.allows_of_fits readingShape (by simp [cliGrammar]) ?_
  exact ((((Fits.text _).seq (.name bound)).seq (.text _)).seq (fits_reader r)).seq (.text _)

theorem allows_request (h : Callable o) :
    cliGrammar.Allows ("          const result = await api." ++ identifier o.name ++ "(" ++
      ", ".intercalate ("contract" :: o.parameters.map fun p => identifier p.name) ++ ");") := by
  have contract : IsIdentifier "contract" := ⟨by decide, List.all_eq_true.mp (by decide)⟩
  have passed := fits_names (List.forall_mem_cons.mpr ⟨contract, h.passed⟩)
  have wrapper := isIdentifier_identifier h.name
  refine Grammar.allows_of_fits requestShape (by simp [cliGrammar]) ?_
  exact ((((Fits.text _).seq (.name wrapper)).seq (.text _)).seq passed).seq (.text _)

theorem allows_outcome {c : OperationCase} (h : IsIdentifier c.name) :
    cliGrammar.Allows c.outcomeLine := by
  refine Grammar.allows_of_fits outcomeShape (by simp [cliGrammar]) ?_
  unfold OperationCase.outcomeLine
  split
  · exact ((Fits.text _).seq (.name h)).seq (.left (.text _))
  · exact ((Fits.text _).seq (.name h)).seq (.right (.text _))

theorem allows_case (number : Nat) :
    cliGrammar.Allows s!"      case '{number}': \x7b" ∧
      cliGrammar.Allows s!"      case '{number}':" := by
  constructor
  · refine Grammar.allows_of_fits caseShape (by simp [cliGrammar]) ?_
    exact ((Fits.text _).seq (.number number)).seq (.left (.text _))
  · refine Grammar.allows_of_fits caseShape (by simp [cliGrammar]) ?_
    exact ((Fits.text _).seq (.number number)).seq (.right (.text _))

theorem allows_failure (name : String) :
    cliGrammar.Allows s!"          reportError({Text.quoted name}, error);" := by
  refine Grammar.allows_of_fits failureShape (by simp [cliGrammar]) ?_
  exact ((Fits.text _).seq (.quoted name)).seq (.text _)

/-- Every line of a case is one that the grammar of the command line allows. -/
theorem allows_operationCase (h : Callable o) (rules : List ChoiceRule) (number : Nat) :
    ∀ line ∈ (OperationCase.ofOperation rules number o).lines, cliGrammar.Allows line := by
  have bindings : ∀ line ∈ (OperationCase.ofOperation rules number o).bindings.map bindingLine,
      cliGrammar.Allows line := by
    simp only [OperationCase.ofOperation, List.forall_mem_map]
    exact fun p hp => allows_binding h hp _
  have outcome : cliGrammar.Allows (OperationCase.ofOperation rules number o).outcomeLine :=
    allows_outcome h.name
  have request := allows_request h
  have names : (o.parameters.map fun p => (identifier p.name, Reading.ofParameter rules p)).map
      (·.1) = o.parameters.map fun p => identifier p.name := by
    rw [List.map_map]
    rfl
  rw [← names] at request
  simp only [OperationCase.lines, List.forall_mem_append, List.forall_mem_cons]
  refine ⟨⟨⟨(allows_case number).1, ?_, by simp⟩, bindings⟩, request, outcome, ?_,
    allows_failure o.name, ?_, ?_, ?_, by simp⟩
  all_goals exact .inl (by simp [cliGrammar])

theorem allows_stateLog (v : StateVariable) : cliGrammar.Allows (stateVariableLogLine v) := by
  refine Grammar.allows_of_fits stateShape (by simp [cliGrammar]) ?_
  exact ((((Fits.text _).seq (.quoted _)).seq (.text _)).seq (.quoted v.name)).seq (.text _)

theorem allows_stateCaseLines (c : Cli) : ∀ line ∈ c.stateCaseLines, cliGrammar.Allows line := by
  have shown : ∀ line ∈ c.stateVariables.map stateVariableLogLine, cliGrammar.Allows line :=
    List.forall_mem_map.mpr fun v _ => allows_stateLog v
  simp only [Cli.stateCaseLines, List.forall_mem_append, List.forall_mem_cons]
  refine ⟨⟨⟨(allows_case c.stateNumber).1, ?_, ?_, by simp⟩, shown⟩, ?_, ?_, ?_, ?_, ?_, by simp⟩
  all_goals exact .inl (by simp [cliGrammar])

theorem allows_headLines {c : Cli} (h : IsTitle c.contractName) :
    ∀ line ∈ c.headLines, cliGrammar.Allows line := by
  have opening : ∀ line ∈ banner c.contractName, cliGrammar.Allows line :=
    Grammar.allows_banner (by simp [cliGrammar]) (by simp [cliGrammar]) h
  have imports : cliGrammar.Allows
      ("import type \x7b " ++ bindingType c.contractName ++ " \x7d from './api.js';") := by
    refine Grammar.allows_of_fits importShape (by simp [cliGrammar]) ?_
    exact ((Fits.text _).seq (.name (isIdentifier_bindingType h))).seq (.text _)
  have labels : ∀ line ∈ c.labels.map fun label => "  " ++ Text.quoted label ++ ",",
      cliGrammar.Allows line := by
    refine List.forall_mem_map.mpr fun label _ => ?_
    refine Grammar.allows_of_fits labelShape (by simp [cliGrammar]) ?_
    exact ((Fits.text _).seq (.quoted label)).seq (.text _)
  have hints : ∀ line ∈ c.hints.map hintLine, cliGrammar.Allows line := by
    refine List.forall_mem_map.mpr fun e _ => ?_
    refine Grammar.allows_of_fits hintShape (by simp [cliGrammar]) ?_
    exact ((((Fits.text _).seq (.quoted e.contains)).seq (.text _)).seq (.quoted e.hint)).seq
      (.text _)
  simp only [Cli.headLines, List.forall_mem_append, List.forall_mem_cons]
  refine ⟨⟨⟨⟨⟨opening, ?_, imports, ?_, ?_, ?_, ?_, ?_, ?_, ?_, ?_, ?_, ?_, ?_, by simp⟩, labels⟩,
    ?_, ?_, ?_, by simp⟩, hints⟩, ?_, ?_, by simp⟩
  all_goals exact .inl (by simp [cliGrammar, bannerLines])

/-- Every line of the loop is one that the grammar of the command line allows. -/
theorem allows_loopLines (h : Spliceable i) (options : SessionOptions) :
    ∀ line ∈ (Cli.ofInterface i options).loopLines, cliGrammar.Allows line := by
  have contract : cliGrammar.Allows ("  contract: " ++ bindingType i.contractName ++ ",") := by
    refine Grammar.allows_of_fits contractShape (by simp [cliGrammar]) ?_
    exact ((Fits.text _).seq (.name (isIdentifier_bindingType h.contract))).seq (.text _)
  have cases' : ∀ line ∈ (Cli.ofInterface i options).cases.flatMap OperationCase.lines,
      cliGrammar.Allows line := by
    intro line mem
    obtain ⟨c, hc, mem⟩ := List.mem_flatMap.mp mem
    obtain ⟨k, o, found, rfl⟩ := mem_operationCases.mp hc
    exact allows_operationCase (h.callable (List.mem_of_getElem? found)) _ _ line mem
  have invalid : cliGrammar.Allows
      ("        console.log(`✗ Invalid option \"$\x7bchoice\x7d\", choose 1-" ++
        toString (Cli.ofInterface i options).exitNumber ++ "`);") := by
    refine Grammar.allows_of_fits invalidShape (by simp [cliGrammar]) ?_
    exact ((Fits.text _).seq (.number _)).seq (.text _)
  have state := allows_stateCaseLines (Cli.ofInterface i options)
  have leave := (allows_case (Cli.ofInterface i options).exitNumber).2
  simp only [Cli.loopLines, List.forall_mem_append, List.forall_mem_cons]
  refine ⟨⟨⟨⟨?_, contract, ?_, ?_, ?_, ?_, ?_, ?_, ?_, by simp⟩, cases'⟩, state⟩, leave, ?_, ?_, ?_,
    invalid, ?_, ?_, ?_, by simp⟩
  all_goals exact .inl (by simp [cliGrammar])

theorem allows_cliLines (h : Spliceable i) (options : SessionOptions) :
    let c := Cli.ofInterface i options
    ∀ line ∈ c.headLines ++ helperLines ++ c.loopLines, cliGrammar.Allows line := by
  have helpers : ∀ line ∈ helperLines, cliGrammar.Allows line :=
    fun line mem => .inl (by simp [cliGrammar, mem])
  exact List.forall_mem_append.mpr ⟨List.forall_mem_append.mpr
    ⟨allows_headLines h.contract, helpers⟩, allows_loopLines h options⟩

end Cli

theorem oneLine_apiFixed : ∀ line ∈ apiGrammar.fixed, OneLine line := by
  rw [← List.forall_iff_forall_mem]
  simp only [apiGrammar, bannerLines, receiptLines, toReceiptLines, List.cons_append,
    List.nil_append, List.Forall]
  and_intros
  all_goals exact oneLine_ofList (by decide +kernel)

theorem onLine_apiShapes : ∀ shape ∈ apiGrammar.shapes, shape.onLine = true := by decide +kernel

theorem Spliceable.named {i : Interface} (h : Spliceable i) : NamedByIdentifiers i :=
  ⟨Shape.oneLine_of_isTitle h.contract, h.operations, h.parameters⟩

theorem allows_apiText {i : Interface} (h : Spliceable i) :
    ∀ line ∈ linesOf (Api.ofInterface i).text, apiGrammar.Allows line := by
  have allowed := allows_apiLines h
  have cut : linesOf (Api.ofInterface i).text = (Api.ofInterface i).lines ++ [""] :=
    linesOf_ofLines fun line mem => (allowed line mem).oneLine oneLine_apiFixed onLine_apiShapes
  rw [cut]
  refine List.forall_mem_append.mpr ⟨allowed, List.forall_mem_singleton.mpr (.inl ?_)⟩
  simp [apiGrammar, bannerLines]

theorem allows_cliText {i : Interface} (h : Spliceable i) (options : SessionOptions) :
    ∀ line ∈ linesOf (Cli.ofInterface i options).text, cliGrammar.Allows line := by
  rw [linesOf_text options h.named]
  refine List.forall_mem_append.mpr ⟨allows_cliLines h options,
    List.forall_mem_singleton.mpr (.inl ?_)⟩
  simp [cliGrammar, bannerLines]

/-- Whatever a source and its file name are, what they bring into the generated modules outside of
quotes and comments is words: the lines of the modules have the shapes of their grammars. -/
theorem analyze_splices_words (source file : String) (options : SessionOptions) :
    let i := analyze source file
    Spliceable i ∧ IsIdentifier (bindingType i.contractName) ∧
      ∃ api cli, generate i options = [⟨apiPath, api⟩, ⟨cliPath, cli⟩] ∧
        (∀ line ∈ linesOf api, apiGrammar.Allows line) ∧
        ∀ line ∈ linesOf cli, cliGrammar.Allows line := by
  intro i
  have whole : Spliceable i := spliceable_analyze source file
  exact ⟨whole, isIdentifier_bindingType whole.contract, _, _, rfl, allows_apiText whole,
    allows_cliText whole options⟩

end ContractSurface.TypeScript
