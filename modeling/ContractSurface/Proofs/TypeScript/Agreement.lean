import ContractSurface.Proofs.Call.Dispatch
import ContractSurface.Proofs.Interface.Operations
import ContractSurface.TypeScript.Artifact
import Mathlib.Data.List.Infix
import Mathlib.Data.List.Nodup

/-! # One reading of queries and mutations

Whether an operation changes the ledger is decided once. The table of capabilities, the menu of a
session and both generated modules go by that decision, and name and pass the same parameters.
-/
namespace ContractSurface.TypeScript

/-- The text has these lines, one directly after the other. -/
def Shows (text : String) (lines : List String) : Prop :=
  ∃ all : List String, text = String.join (all.map (· ++ "\n")) ∧ lines <:+: all

section Lines

variable (o : Operation)

/-- The parameters in the order of their declaration, each by its identifier and with its type. -/
def typedParameters : String :=
  ", ".intercalate (o.parameters.map fun p =>
    identifier p.name ++ ": " ++ (targetType p.declaredType).typeName)

def passedNames : List String := o.parameters.map fun p => identifier p.name

/-- A deployed contract takes transactions under `callTx` and queries beside it. -/
def memberLine : String :=
  if o.mutates then s!"    {o.name}({typedParameters o}): Promise<CallTxResult>;"
  else s!"  {o.name}({typedParameters o}): Promise<{(targetType o.returnType).typeName}>;"

def signatureLine (binding : String) : String :=
  let signature :=
    "contract: " ++ binding ++ (if o.parameters.isEmpty then "" else ", " ++ typedParameters o)
  let result := if o.mutates then "TransactionReceipt" else (targetType o.returnType).typeName
  s!"export async function {identifier o.name}({signature}): Promise<{result}> \x7b"

def callLine : String :=
  let arguments := ", ".intercalate (passedNames o)
  if o.mutates then s!"  const result = await contract.callTx.{o.name}({arguments});"
  else if targetType o.returnType = .void then s!"  await contract.{o.name}({arguments});"
  else s!"  return await contract.{o.name}({arguments});"

def entryLine : String :=
  let parameters := ", ".intercalate (o.parameters.map fun p =>
    s!"\x7b name: {Text.quoted p.name}, type: {Text.quoted p.declaredType} \x7d")
  s!"  \x7b name: {Text.quoted o.name}, readOnly: {!o.mutates}, params: [{parameters}] \x7d,"

def requestLine : String :=
  let arguments := ", ".intercalate ("contract" :: passedNames o)
  s!"          const result = await api.{identifier o.name}({arguments});"

def resultLine : String :=
  if o.mutates then
    "          console.log(`✓ " ++ o.name ++
      " submitted: tx $\x7bresult.transactionId\x7d at block $\x7bresult.blockHeight\x7d`);"
  else s!"          console.log(`✓ {o.name} returned:`, formatValue(result));"

end Lines

def transactionsOf (i : Interface) : List Operation := i.operations.filter (·.mutates)

def queriesOf (i : Interface) : List Operation := i.operations.filter (!·.mutates)

/-- The menu and the generated modules treat the operation at the position `k` alike. -/
structure Agrees (i : Interface) (api cli : String) (k : Nat) (o : Operation) : Prop where
  item : ((Menu.ofInterface i)[k]?).map (fun m => (m.id, m.action, m.isReadOnly)) =
    some (k + 1, .invoke o.name, !o.mutates)
  transaction : o.name ∈ (transactionsOf i).map (·.name) ↔ o.mutates = true
  query : o.name ∈ (queriesOf i).map (·.name) ↔ o.mutates = false
  member : Shows api
    ([s!"export interface {bindingType i.contractName} \x7b", "  callTx: \x7b"] ++
      (transactionsOf i).map memberLine ++ ["  \x7d;"] ++ (queriesOf i).map memberLine ++ ["\x7d"])
  wrapper : Shows api [signatureLine o (bindingType i.contractName), callLine o]
  entry : Shows api [entryLine o]
  result : Shows cli [requestLine o, resultLine o]

theorem infix_flatMap {α β : Type} {f : α → List β} {xs : List α} {x : α} (h : x ∈ xs) :
    f x <:+: xs.flatMap f := by
  rw [List.flatMap_def]
  exact List.infix_of_mem_flatten (List.mem_map_of_mem h)

theorem shows_of_infix {all lines : List String} (h : lines <:+: all) :
    Shows (ofLines all) lines := ⟨all, rfl, h⟩

variable {i : Interface} {options : SessionOptions} {k : Nat} {o : Operation}

/-- The typed list of a member and of a wrapper is that of the operation. -/
theorem typedList_ofParameter (o : Operation) :
    typedList (o.parameters.map .ofParameter) = typedParameters o := by
  unfold typedList typedParameters
  rw [List.map_map]
  refine congrArg _ (List.map_congr_left fun p _ => ?_)
  rw [Function.comp_apply, TypedName.text, TypedName.ofParameter]

theorem memberLine_of_mem_transactionsOf (h : o ∈ transactionsOf i) :
    memberLine o = (Member.ofOperation o).transactionLine := by
  have mutates : o.mutates = true := (List.mem_filter.mp h).2
  rw [memberLine, if_pos mutates, Member.transactionLine, Member.ofOperation,
    typedList_ofParameter]

theorem memberLine_of_mem_queriesOf (h : o ∈ queriesOf i) :
    memberLine o = (Member.ofOperation o).queryLine := by
  have mutates : ¬o.mutates = true := by simpa using (List.mem_filter.mp h).2
  rw [memberLine, if_neg mutates, Member.queryLine, Member.ofOperation, typedList_ofParameter]

theorem infix_append_left {α : Type} {xs ys : List α} (zs : List α) (h : xs <:+: ys) :
    xs <:+: zs ++ ys := h.trans (List.suffix_append zs ys).isInfix

theorem infix_append_right {α : Type} {xs ys : List α} (zs : List α) (h : xs <:+: ys) :
    xs <:+: ys ++ zs := h.trans (List.prefix_append ys zs).isInfix

theorem infix_lines (a : Api) :
    a.bindingLines <:+: a.lines ∧
      a.wrappers.flatMap (Wrapper.lines (bindingType a.contractName)) <:+: a.lines ∧
      a.operations.map OperationEntry.line <:+: a.lines := by
  simp only [Api.lines, List.append_assoc]
  refine ⟨?_, ?_, ?_⟩
  · exact infix_append_left _ (infix_append_left _ (List.prefix_append _ _).isInfix)
  · exact infix_append_left _ (infix_append_left _ (infix_append_left _ (infix_append_left _
      (List.prefix_append _ _).isInfix)))
  · exact infix_append_left _ (infix_append_left _ (infix_append_left _ (infix_append_left _
      (infix_append_left _ (infix_append_left _ (List.prefix_append _ _).isInfix)))))

theorem infix_case {c : Cli} {lines : List String} (h : lines <:+: c.cases.flatMap OperationCase.lines) :
    lines <:+: c.headLines ++ helperLines ++ c.loopLines := by
  refine infix_append_left _ ?_
  rw [Cli.loopLines]
  exact infix_append_right _ (infix_append_right _ (infix_append_left _ h))

theorem shows_members (i : Interface) :
    Shows (Api.ofInterface i).text
      ([s!"export interface {bindingType i.contractName} \x7b", "  callTx: \x7b"] ++
        (transactionsOf i).map memberLine ++ ["  \x7d;"] ++ (queriesOf i).map memberLine ++
        ["\x7d"]) := by
  have transactions : (transactionsOf i).map memberLine =
      (Api.ofInterface i).transactions.map Member.transactionLine := by
    rw [Api.ofInterface, List.map_map]
    exact List.map_congr_left fun o ho => memberLine_of_mem_transactionsOf ho
  have queries : (queriesOf i).map memberLine =
      (Api.ofInterface i).queries.map Member.queryLine := by
    rw [Api.ofInterface, List.map_map]
    exact List.map_congr_left fun o ho => memberLine_of_mem_queriesOf ho
  have whole : (Api.ofInterface i).bindingLines =
      ([s!"export interface {bindingType i.contractName} \x7b", "  callTx: \x7b"] ++
        (transactionsOf i).map memberLine ++ ["  \x7d;"] ++ (queriesOf i).map memberLine ++
        ["\x7d"]) ++ [""] := by
    rw [transactions, queries, Api.bindingLines, List.append_assoc _ ["\x7d"] [""]]
    rfl
  have placed := (infix_lines (Api.ofInterface i)).1
  rw [whole] at placed
  exact shows_of_infix ((List.prefix_append _ _).isInfix.trans placed)

/-- A wrapper states its signature and then makes its call. -/
theorem lines_wrapper (o : Operation) (binding : String) :
    [signatureLine o binding, callLine o] <:+: (Wrapper.ofOperation o).lines binding := by
  -- the fields are rewritten one by one: they also stand in the instances of the tests
  generalize written : Wrapper.ofOperation o = w
  have name : w.name = identifier o.name := by rw [← written]; rfl
  have parameters : typedList w.parameters = typedParameters o := by
    rw [← written, Wrapper.ofOperation, typedList_ofParameter]
  have none : w.parameters.isEmpty = o.parameters.isEmpty := by
    rw [← written]
    exact List.isEmpty_map
  have transaction : w.isTransaction = o.mutates := by rw [← written, Wrapper.ofOperation]
  have result : w.result = targetType o.returnType := by rw [← written, Wrapper.ofOperation]
  have target : w.target = o.name := by rw [← written, Wrapper.ofOperation]
  have arguments : w.arguments = passedNames o := by rw [← written]; rfl
  unfold Wrapper.lines signatureLine callLine
  rw [name, parameters, none, transaction, result, target, arguments]
  cases o.mutates with
  | true =>
    refine ⟨["", docComment w.description], ["  return toReceipt(result);", "\x7d"], ?_⟩
    simp only [if_true, List.cons_append, List.nil_append]
  | false =>
    refine ⟨["", docComment w.description], ["\x7d"], ?_⟩
    by_cases silent : targetType o.returnType = .void
    · simp only [if_pos silent, Bool.false_eq_true, if_false, List.cons_append, List.nil_append]
    · simp only [if_neg silent, Bool.false_eq_true, if_false, List.cons_append, List.nil_append]

theorem shows_wrapper (ho : o ∈ i.operations) :
    Shows (Api.ofInterface i).text [signatureLine o (bindingType i.contractName), callLine o] := by
  have inside : Wrapper.lines (bindingType i.contractName) (Wrapper.ofOperation o) <:+:
      (Api.ofInterface i).wrappers.flatMap (Wrapper.lines (bindingType i.contractName)) :=
    infix_flatMap (List.mem_map_of_mem ho)
  have placed := (infix_lines (Api.ofInterface i)).2.1
  exact shows_of_infix (((lines_wrapper o _).trans inside).trans placed)

theorem shows_entry (ho : o ∈ i.operations) :
    Shows (Api.ofInterface i).text [entryLine o] := by
  have line : entryLine o = (OperationEntry.ofOperation o).line := rfl
  have inside : entryLine o ∈ (Api.ofInterface i).operations.map OperationEntry.line := by
    rw [line]
    exact List.mem_map_of_mem (List.mem_map_of_mem ho)
  have placed := (infix_lines (Api.ofInterface i)).2.2
  exact shows_of_infix (((List.singleton_infix_iff _ _).mpr inside).trans placed)

/-- The case of an operation, line by line. -/
theorem lines_ofOperation (rules : List ChoiceRule) (number : Nat) (o : Operation) :
    (OperationCase.ofOperation rules number o).lines =
      [s!"      case '{number}': \x7b", "        try \x7b"] ++
        (OperationCase.ofOperation rules number o).bindings.map bindingLine ++
        [requestLine o,
         resultLine o,
         "        \x7d catch (error) \x7b",
         s!"          reportError({Text.quoted o.name}, error);",
         "        \x7d",
         "        break;",
         "      \x7d"] := by
  generalize written : OperationCase.ofOperation rules number o = c
  have numbered : c.number = number := by rw [← written]; rfl
  have name : c.name = o.name := by rw [← written]; rfl
  have wrapper : c.wrapper = identifier o.name := by rw [← written]; rfl
  have passed : c.bindings.map (·.1) = passedNames o := by
    rw [← written, OperationCase.ofOperation, List.map_map]
    rfl
  have receipt : c.givesReceipt = o.mutates := by rw [← written]; rfl
  have outcome : c.outcomeLine = resultLine o := by
    unfold OperationCase.outcomeLine resultLine
    rw [name, receipt]
  unfold OperationCase.lines requestLine
  rw [numbered, name, wrapper, passed, outcome]

theorem lines_case (rules : List ChoiceRule) (number : Nat) (o : Operation) :
    [requestLine o, resultLine o] <:+: (OperationCase.ofOperation rules number o).lines := by
  rw [lines_ofOperation]
  exact ⟨_, _, List.append_assoc _ [_, _] _⟩

theorem infix_caseLines (hk : i.operations[k]? = some o) :
    (OperationCase.ofOperation options.choiceRules (k + 1) o).lines <:+:
      (Cli.ofInterface i options).cases.flatMap OperationCase.lines := by
  have mem : OperationCase.ofOperation options.choiceRules (1 + k) o ∈
      (Cli.ofInterface i options).cases := mem_operationCases.mpr ⟨k, o, hk, rfl⟩
  rw [Nat.add_comm 1 k] at mem
  exact infix_flatMap mem

theorem shows_result (hk : i.operations[k]? = some o) :
    Shows (Cli.ofInterface i options).text [requestLine o, resultLine o] := by
  have inside := (lines_case options.choiceRules (k + 1) o).trans (infix_caseLines hk)
  exact shows_of_infix (infix_case inside)

theorem getElem?_operationItems (number : Nat) (os : List Operation) (k : Nat) :
    (Menu.operationItems number os)[k]? = os[k]?.map fun o =>
      ⟨number + k, entryLabel (number + k) o, o.description, !o.mutates, .invoke o.name⟩ := by
  induction os generalizing number k with
  | nil => rfl
  | cons o os ih =>
    cases k with
    | zero => rfl
    | succ k =>
      rw [Menu.operationItems, List.getElem?_cons_succ, List.getElem?_cons_succ, ih,
        Nat.add_right_comm number 1 k]
      rfl

theorem item_ofInterface (hk : i.operations[k]? = some o) :
    ((Menu.ofInterface i)[k]?).map (fun m => (m.id, m.action, m.isReadOnly)) =
      some (k + 1, .invoke o.name, !o.mutates) := by
  have item := getElem?_operationItems 1 i.operations k
  rw [hk, Option.map_some, Nat.add_comm 1 k] at item
  obtain ⟨within, _⟩ := List.getElem?_eq_some_iff.mp item
  rw [Menu.ofInterface, List.getElem?_append_left within, item]
  rfl

/-- With names of their own, a kind of operations has the name of an operation only if it has the
operation. -/
theorem mem_names_filter (hd : (i.operations.map (·.name)).Nodup) (ho : o ∈ i.operations)
    (kind : Operation → Bool) :
    o.name ∈ (i.operations.filter kind).map (·.name) ↔ kind o = true := by
  rw [List.mem_map]
  constructor
  · rintro ⟨p, hp, same⟩
    obtain ⟨mem, ofKind⟩ := List.mem_filter.mp hp
    rwa [List.inj_on_of_nodup_map hd mem ho same] at ofKind
  · intro ofKind
    exact ⟨o, List.mem_filter.mpr ⟨ho, ofKind⟩, rfl⟩

/-- With names of their own, operations are treated alike everywhere. -/
theorem agrees_ofInterface (hd : (i.operations.map (·.name)).Nodup)
    (hk : i.operations[k]? = some o) :
    Agrees i (Api.ofInterface i).text (Cli.ofInterface i options).text k o := by
  have ho : o ∈ i.operations := List.mem_of_getElem? hk
  exact {
    item := item_ofInterface hk
    transaction := mem_names_filter hd ho _
    query := by simpa [queriesOf] using mem_names_filter hd ho (!·.mutates)
    member := shows_members i
    wrapper := shows_wrapper ho
    entry := shows_entry ho
    result := shows_result hk }

/-- For every source the menu, the generated modules and the table of capabilities take each
operation for the same kind, under the same name and with the same parameters. -/
theorem analyze_consumers_agree (source file : String) (options : SessionOptions) {σ : Type}
    (b : Binding σ) :
    let i := analyze source file
    (∃ api cli, generate i options = [⟨apiPath, api⟩, ⟨cliPath, cli⟩] ∧
      ∀ k o, i.operations[k]? = some o → Agrees i api cli k o) ∧
    (∀ o ∈ i.operations, ∀ s log arguments,
      (Capabilities.bind i).invokeOn b s o.name arguments = o.callOn b s arguments ∧
      (Capabilities.bind i).invokeOn b.recorded (s, log) o.name arguments =
        ((o.callOn b s arguments).1, (o.callOn b s arguments).2,
          log ++ [⟨o.name, arguments, o.mutates⟩])) ∧
    ∀ name ∉ i.operations.map (·.name), ∀ s arguments,
      (Capabilities.bind i).invokeOn b s name arguments = (.error (.unsupported name), s) := by
  intro i
  have hd : (i.operations.map (·.name)).Nodup := nodup_analyze source file
  refine ⟨⟨_, _, rfl, fun k o hk => agrees_ofInterface hd hk⟩, ?_, ?_⟩
  · intro o ho s log arguments
    refine ⟨Capabilities.invokeOn_bind hd ho b s arguments, ?_⟩
    rw [Capabilities.invokeOn_bind hd ho b.recorded, Operation.callOn_recorded]
  · intro name unknown s arguments
    exact Capabilities.invokeOn_unknown unknown b s arguments

theorem ballot_consumers_agree :
    let i := analyze
      "export circuit vote(choice: Field): [] {} export circuit total(): Field {}" "ballot.compact"
    let vote : Operation := ⟨"vote", [⟨"choice", "Field"⟩], "[]", true, "Execute vote"⟩
    let total : Operation := ⟨"total", [], "Field", false, "Execute total"⟩
    (∃ api cli, generate i .standard = [⟨apiPath, api⟩, ⟨cliPath, cli⟩] ∧
      Agrees i api cli 0 vote ∧ Agrees i api cli 1 total) ∧
    (Capabilities.bind i).invokeOn .dryRun (.fresh [] [] []) "vote" [.integer 2] =
      vote.callOn .dryRun (.fresh [] [] []) [.integer 2] := by
  intro i vote total
  have operations : i.operations = [vote, total] := by decide +kernel
  have first : i.operations[0]? = some vote := by rw [operations]; rfl
  have second : i.operations[1]? = some total := by rw [operations]; rfl
  obtain ⟨⟨api, cli, files, agree⟩, calls, _⟩ :=
    analyze_consumers_agree
      "export circuit vote(choice: Field): [] {} export circuit total(): Field {}"
      "ballot.compact" .standard .dryRun
  refine ⟨⟨api, cli, files, agree 0 vote first, agree 1 total second⟩, ?_⟩
  exact (calls vote (List.mem_of_getElem? first) (.fresh [] [] []) [] [.integer 2]).1

end ContractSurface.TypeScript
