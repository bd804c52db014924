import ContractSurface.Proofs.Interface.Names
import ContractSurface.Proofs.Session.Numbers
import ContractSurface.Proofs.Source.Lexing
import ContractSurface.Proofs.TypeScript.Lines
import ContractSurface.Proofs.TypeScript.Questions

/-! # One numbering of the menu

The generated command line lists the entries that a session lists, and has one case for each of
their numbers. A case is known by its line, since no other line of the module begins like it; the
names that stand in the module must be identifiers for this, as they could else end a line.
-/
namespace ContractSurface.TypeScript

def IsIdentifier (name : String) : Prop := (Source.Token.ident name).IsLexical

/-- A contract is named after its file, so only a line end is kept out of its name. The names of
state variables stand between quotes and may be any text. -/
structure NamedByIdentifiers (i : Interface) : Prop where
  contract : OneLine i.contractName
  operations : ∀ o ∈ i.operations, IsIdentifier o.name
  parameters : ∀ o ∈ i.operations, ∀ p ∈ o.parameters, IsIdentifier p.name

theorem isWordChar_of_isIdentifier {name : String} (h : IsIdentifier name) :
    ∀ c ∈ name.toList, Source.isWordChar c = true := Source.Token.IsLexical.isWordChar h

theorem isPlain_of_isWordChar {c : Char} (h : Source.isWordChar c = true) :
    Text.IsPlain c ∧ Text.IsPlain c.toUpper :=
  Source.forall_isWordChar (P := fun c => Text.IsPlain c ∧ Text.IsPlain c.toUpper)
    (by decide +kernel) c h

theorem isPlain_ofList {cs : List Char} (h : cs.all (Text.IsPlain ·) = true) :
    ∀ c ∈ (String.ofList cs).toList, Text.IsPlain c := by
  rw [String.toList_ofList]
  simpa using h

theorem oneLine_of_forall_isPlain {s : String} (h : ∀ c ∈ s.toList, Text.IsPlain c) : OneLine s :=
  fun lineEnd => absurd (h _ lineEnd) (by decide)

theorem oneLine_of_isIdentifier {name : String} (h : IsIdentifier name) : OneLine name :=
  oneLine_of_forall_isPlain fun c hc =>
    (isPlain_of_isWordChar (isWordChar_of_isIdentifier h c hc)).1

theorem isPlain_titleCase {name : String} (h : IsIdentifier name) :
    ∀ c ∈ (titleCase name).toList, Text.IsPlain c := by
  refine forall_mem_intercalate (isPlain_ofList (by decide)) ?_
  intro part hp c hc
  obtain ⟨capitalized, hcap, rfl⟩ := List.mem_map.mp hp
  rw [String.toList_ofList] at hc
  obtain ⟨d, inName, -, same⟩ := exists_of_mem_capitalizedParts hcap hc
  have plain := isPlain_of_isWordChar (isWordChar_of_isIdentifier h d inName)
  rcases same with rfl | rfl
  · exact plain.1
  · exact plain.2

theorem isPlain_toString (n : Nat) : ∀ c ∈ (toString n).toList, Text.IsPlain c := fun _ hc =>
  (isPlain_of_isWordChar (Source.isWordChar_of_isDigit (Text.isDigit_of_mem_toString hc))).1

theorem isPlain_entryLabel {o : Operation} (h : IsIdentifier o.name) (number : Nat) :
    ∀ c ∈ (entryLabel number o).toList, Text.IsPlain c := by
  unfold entryLabel
  have stop : ∀ c ∈ ". ".toList, Text.IsPlain c := isPlain_ofList (by decide)
  have opening : ∀ c ∈ "(".toList, Text.IsPlain c := isPlain_ofList (by decide)
  have unit : ∀ c ∈ " params)".toList, Text.IsPlain c := isPlain_ofList (by decide)
  exact forall_mem_append (forall_mem_append (forall_mem_append (forall_mem_append
    (forall_mem_append (isPlain_toString number) stop) (isPlain_titleCase h)) opening)
    (isPlain_toString _)) unit

def menuWord : List Char :=
  ['e', 'x', 'p', 'o', 'r', 't', ' ', 'c', 'o', 'n', 's', 't', ' ', 'M', 'E', 'N', 'U']

def caseWord : List Char := ['c', 'a', 's', 'e', ' ']

def menuHead : String := "export const MENU: readonly string[] = ["

def exitCaseLine (number : Nat) : String := s!"      case '{number}':"

def Opens (line : String) : Prop := Begins menuWord line ∨ Begins caseWord line

instance (line : String) : Decidable (Opens line) := inferInstanceAs (Decidable (_ ∨ _))

structure IsInner (line : String) : Prop where
  oneLine : OneLine line
  closed : ¬Opens line

structure Apart (start : String) : Prop where
  oneLine : OneLine start
  noMenu : Differs menuWord start
  noCase : Differs caseWord start

/-- Each of the texts is a line, and those of them that open something are these. -/
structure Opened (lines openers : List String) : Prop where
  oneLine : ∀ line ∈ lines, OneLine line
  opens : lines.filter (Opens ·) = openers

theorem Apart.append {start rest : String} (h : Apart start) (hr : OneLine rest) :
    Apart (start ++ rest) :=
  ⟨h.oneLine.append hr, h.noMenu.append rest, h.noCase.append rest⟩

theorem Apart.isInner {start : String} (h : Apart start) : IsInner start :=
  ⟨h.oneLine, not_or.mpr ⟨h.noMenu.not_begins, h.noCase.not_begins⟩⟩

-- The next two lemmas let fixed lines be checked as lists of characters: going from a string
-- literal back to its characters is slow.

theorem isInner_ofList {cs : List Char} (h : '\n' ∉ cs ∧
    ¬menuWord <+: cs.dropWhile (· == ' ') ∧ ¬caseWord <+: cs.dropWhile (· == ' ')) :
    IsInner (String.ofList cs) := by
  refine ⟨oneLine_ofList h.1, ?_⟩
  rw [Opens, Begins, Begins, unindented_ofList]
  exact not_or.mpr h.2

theorem apart_ofList {cs : List Char} (h : '\n' ∉ cs ∧
    (∃ p ∈ menuWord.zip (cs.dropWhile (· == ' ')), p.1 ≠ p.2) ∧
    ∃ p ∈ caseWord.zip (cs.dropWhile (· == ' ')), p.1 ≠ p.2) : Apart (String.ofList cs) := by
  refine ⟨oneLine_ofList h.1, ?_, ?_⟩
  · rw [Differs, unindented_ofList]
    exact h.2.1
  · rw [Differs, unindented_ofList]
    exact h.2.2

theorem opens_case (rest : String) : Opens ("      case '" ++ rest) := by
  have word : Begins caseWord "      case '" := by decide +kernel
  exact .inr (word.append (by decide) rest)

theorem opens_caseLine (number : Nat) : Opens (caseLine number) := by
  rw [caseLine, String.append_assoc]
  exact opens_case _

theorem opens_exitCaseLine (number : Nat) : Opens (exitCaseLine number) := by
  rw [exitCaseLine, String.append_assoc]
  exact opens_case _

theorem oneLine_caseLine (number : Nat) : OneLine (caseLine number) :=
  (OneLine.append (by decide) (oneLine_toString number)).append (by decide)

theorem oneLine_exitCaseLine (number : Nat) : OneLine (exitCaseLine number) :=
  (OneLine.append (by decide) (oneLine_toString number)).append (by decide)

namespace Opened

variable {line : String} {lines openers : List String}

theorem append {others also : List String} (h : Opened lines openers)
    (h' : Opened others also) : Opened (lines ++ others) (openers ++ also) := by
  refine ⟨List.forall_mem_append.mpr ⟨h.oneLine, h'.oneLine⟩, ?_⟩
  rw [List.filter_append, h.opens, h'.opens]

theorem append_inner {others : List String} (h : Opened lines openers) (h' : Opened others []) :
    Opened (lines ++ others) openers := by
  have both := h.append h'
  rwa [List.append_nil] at both

theorem inner_append {others : List String} (h : Opened lines []) (h' : Opened others openers) :
    Opened (lines ++ others) openers := h.append h'

theorem cons_opens (ho : Opens line) (h1 : OneLine line) (h : Opened lines openers) :
    Opened (line :: lines) (line :: openers) := by
  refine ⟨List.forall_mem_cons.mpr ⟨h1, h.oneLine⟩, ?_⟩
  rw [List.filter_cons_of_pos (by simpa using ho), h.opens]

theorem of_forall (h : lines.Forall IsInner) : Opened lines [] := by
  rw [List.forall_iff_forall_mem] at h
  refine ⟨fun line hl => (h line hl).oneLine, ?_⟩
  rw [List.filter_eq_nil_iff]
  intro line hl opened
  exact (h line hl).closed (by simpa using opened)

theorem concat_opens (hl : line ∈ lines.getLast?) (ho : Opens line) (h1 : OneLine line)
    (h : lines.dropLast.Forall IsInner) : Opened lines [line] := by
  have last : Opened [line] [line] := .cons_opens ho h1 ⟨by simp, rfl⟩
  have whole := (of_forall h).append last
  rwa [List.dropLast_append_getLast? line hl] at whole

theorem map_apart {α : Type} {f : α → String} {xs : List α} (h : ∀ x ∈ xs, Apart (f x)) :
    Opened (xs.map f) [] := by
  refine of_forall (List.forall_iff_forall_mem.mpr ?_)
  exact List.forall_mem_map.mpr fun x hx => (h x hx).isInner

end Opened

theorem oneLine_ask (a : Ask) : OneLine a.code := by
  cases a with
  | question prompt =>
    exact (OneLine.append (by decide) (oneLine_quoted prompt)).append (by decide)
  | pick name choices =>
    have choice : ∀ c : Choice, OneLine (choiceText c) := fun c =>
      (((OneLine.append (by decide) (oneLine_quoted c.label)).append (by decide)).append
        (oneLine_quoted c.value)).append (by decide)
    have list : OneLine (", ".intercalate (choices.map choiceText)) :=
      oneLine_intercalate (by decide) (List.forall_mem_map.mpr fun c _ => choice c)
    exact (((OneLine.append (by decide) (oneLine_quoted name)).append (by decide)).append
      list).append (by decide)

theorem oneLine_boundText (bound : Option Nat) : OneLine (boundText bound) := by
  cases bound with
  | none => decide
  | some max => exact OneLine.append (oneLine_toString max) (by decide)

theorem oneLine_readerText {ask : String} (ha : OneLine ask) (name : String)
    (kind : ParameterKind) : OneLine (readerText name ask kind) := by
  cases kind with
  | integer range =>
    have upper := oneLine_boundText range.max
    exact (((((((OneLine.append (by decide) (oneLine_quoted name)).append (by decide)).append
      ha).append (by decide)).append (oneLine_toString range.min)).append (by decide)).append
      upper).append (by decide)
  | boolean =>
    exact (((OneLine.append (by decide) (oneLine_quoted name)).append (by decide)).append
      ha).append (by decide)
  | bytes => exact (OneLine.append (by decide) ha).append (by decide)
  | text => exact ha

theorem apart_readerLine {p : Parameter} {ask : String} (hn : OneLine p.name)
    (ha : OneLine ask) (kind : ParameterKind) : Apart (readerLine p ask kind) := by
  have start : Apart "          const " := apart_ofList (by decide +kernel)
  exact (((start.append (oneLine_identifier hn)).append (by decide)).append
    (oneLine_readerText ha p.name kind)).append (by decide)

/-- The case of an operation: it reads the parameters, one after the other, and passes them on. -/
def operationLines (number : Nat) (o : Operation) (ask : Parameter → String)
    (kind : Parameter → ParameterKind) : List String :=
  [caseLine number, "        try \x7b"] ++
    o.parameters.map (fun p => readerLine p (ask p) (kind p)) ++
    [requestLine o,
     resultLine o,
     "        \x7d catch (error) \x7b",
     s!"          reportError({Text.quoted o.name}, error);",
     "        \x7d",
     "        break;",
     "      \x7d"]

/-- A state variable is shown by name and type, with the value that the state has under its name. -/
def shownLine (v : StateVariable) : String :=
  let title := Text.quoted s!"{v.name} ({v.declaredType}):"
  s!"          console.log({title}, formatValue(state[{Text.quoted v.name}]));"

/-- The case that reads the state and shows its variables, one after the other. -/
def stateLines (number : Nat) (vs : List StateVariable) : List String :=
  [caseLine number, "        try \x7b", "          const state = await readState();"] ++
    vs.map shownLine ++
    ["        \x7d catch (error) \x7b",
     "          reportError('display contract state', error);",
     "        \x7d",
     "        break;",
     "      \x7d"]

def exitLines (number : Nat) : List String :=
  [exitCaseLine number, "        console.log('Goodbye.');", "        return;", "      default:"]

section Operation

variable {o : Operation} (hn : OneLine o.name) (hp : ∀ p ∈ o.parameters, OneLine p.name)

include hn hp in
theorem apart_requestLine : Apart (requestLine o) := by
  have start : Apart "          const result = await api." := apart_ofList (by decide +kernel)
  have passed : ∀ name ∈ "contract" :: passedNames o, OneLine name := by
    refine List.forall_mem_cons.mpr ⟨by decide, List.forall_mem_map.mpr fun p h => ?_⟩
    exact oneLine_identifier (hp p h)
  exact (((start.append (oneLine_identifier hn)).append (by decide)).append
    (oneLine_intercalate (by decide) passed)).append (by decide)

include hn in
theorem apart_resultLine : Apart (resultLine o) := by
  have start : Apart "          console.log(`✓ " := apart_ofList (by decide +kernel)
  unfold resultLine
  split
  · exact (start.append hn).append (by decide)
  · exact (start.append hn).append (by decide)

include hn hp in
/-- The case of an operation opens with its line and with no other. -/
theorem opened_operationLines {ask : Parameter → String} (ha : ∀ p, OneLine (ask p))
    (kind : Parameter → ParameterKind) (number : Nat) :
    Opened (operationLines number o ask kind) [caseLine number] := by
  have tries : Opened ["        try \x7b"] [] := .of_forall (isInner_ofList (by decide +kernel))
  have readers : Opened (o.parameters.map fun p => readerLine p (ask p) (kind p)) [] :=
    .map_apart fun p h => apart_readerLine (hp p h) (ha p) (kind p)
  have request : IsInner (requestLine o) := (apart_requestLine hn hp).isInner
  have result : IsInner (resultLine o) := (apart_resultLine hn).isInner
  have report : IsInner s!"          reportError({Text.quoted o.name}, error);" := by
    have start : Apart "          reportError(" := apart_ofList (by decide +kernel)
    exact ((start.append (oneLine_quoted o.name)).append (by decide)).isInner
  refine ((Opened.cons_opens (opens_caseLine number) (oneLine_caseLine number) tries).append_inner
    readers).append_inner (.of_forall ⟨request, result, ?_, report, ?_, ?_, ?_⟩)
  all_goals exact isInner_ofList (by decide +kernel)

end Operation

theorem opened_stateLines (number : Nat) (vs : List StateVariable) :
    Opened (stateLines number vs) [caseLine number] := by
  have start : Apart "          console.log(" := apart_ofList (by decide +kernel)
  have shows : Opened (vs.map shownLine) [] := .map_apart fun v _ =>
    (((start.append (oneLine_quoted _)).append (by decide)).append
      (oneLine_quoted v.name)).append (by decide)
  have reads : Opened ["        try \x7b", "          const state = await readState();"] [] :=
    .of_forall ⟨isInner_ofList (by decide +kernel), isInner_ofList (by decide +kernel)⟩
  refine ((Opened.cons_opens (opens_caseLine number) (oneLine_caseLine number) reads).append_inner
    shows).append_inner (.of_forall ⟨?_, ?_, ?_, ?_, ?_⟩)
  all_goals exact isInner_ofList (by decide +kernel)

/-- The case of an operation is written with the question and the kind of each parameter. -/
theorem lines_operation (rules : List ChoiceRule) (number : Nat) (o : Operation) :
    (OperationCase.ofOperation rules number o).lines = operationLines number o
      (fun p => (Ask.ofParameter rules p).code) (fun p => parameterKind p.declaredType) := by
  rw [lines_ofOperation, bindingLines_case]
  rfl

theorem opened_operationCases (rules : List ChoiceRule) (number : Nat) {os : List Operation}
    (hn : ∀ o ∈ os, OneLine o.name) (hp : ∀ o ∈ os, ∀ p ∈ o.parameters, OneLine p.name) :
    Opened ((operationCases rules number os).flatMap OperationCase.lines)
      ((List.range' number os.length).map caseLine) := by
  induction os generalizing number with
  | nil => exact ⟨by simp [operationCases], rfl⟩
  | cons o os ih =>
    have first : Opened (OperationCase.ofOperation rules number o).lines [caseLine number] := by
      rw [lines_operation]
      exact opened_operationLines (hn o List.mem_cons_self) (hp o List.mem_cons_self)
        (fun p => oneLine_ask _) _ number
    have later := ih (number + 1) (fun p h => hn p (List.mem_cons_of_mem o h))
      (fun p h => hp p (List.mem_cons_of_mem o h))
    exact first.append later

theorem oneLine_bindingType {contractName : String} (h : OneLine contractName) :
    OneLine (bindingType contractName) :=
  (OneLine.append (by decide) h).append (by decide)

def menuLine (item : MenuItem) : String := "  \"" ++ item.label ++ "\","

section Module

variable {i : Interface} (options : SessionOptions)

theorem labels_operationItems (number : Nat) (os : List Operation) :
    operationLabels number os = (Menu.operationItems number os).map (·.label) := by
  induction os generalizing number with
  | nil => rfl
  | cons o os ih => rw [operationLabels, ih (number + 1), Menu.operationItems, List.map_cons]

theorem labels_ofInterface :
    (Cli.ofInterface i options).labels = (Menu.ofInterface i).map (·.label) := by
  rw [Cli.ofInterface, labels_operationItems, Menu.ofInterface, List.map_append]
  rfl

theorem isPlain_label (h : NamedByIdentifiers i) {item : MenuItem}
    (hm : item ∈ Menu.ofInterface i) : ∀ c ∈ item.label.toList, Text.IsPlain c := by
  rcases List.mem_append.mp hm with hm | hm
  · obtain ⟨k, hk⟩ := List.mem_iff_getElem?.mp hm
    rw [getElem?_operationItems, Option.map_eq_some_iff] at hk
    obtain ⟨o, ho, rfl⟩ := hk
    exact isPlain_entryLabel (h.operations o (List.mem_of_getElem? ho)) (1 + k)
  · simp only [List.mem_cons, List.not_mem_nil, or_false] at hm
    rcases hm with rfl | rfl
    · exact forall_mem_append (isPlain_toString _) (isPlain_ofList (by decide))
    · exact forall_mem_append (isPlain_toString _) (isPlain_ofList (by decide))

/-- Between quotes the labels of the menu stand as a session shows them. -/
theorem menuLines_eq (h : NamedByIdentifiers i) :
    (Cli.ofInterface i options).labels.map (fun label => "  " ++ Text.quoted label ++ ",") =
      (Menu.ofInterface i).map menuLine := by
  rw [labels_ofInterface, List.map_map]
  refine List.map_congr_left fun item hm => ?_
  have literal := Text.quoted_of_forall_isPlain (isPlain_label h hm)
  rw [Function.comp_apply, literal, menuLine, ← String.append_assoc, ← String.append_assoc,
    String.append_assoc]
  rfl

theorem opened_headLines (h : NamedByIdentifiers i) :
    Opened (Cli.ofInterface i options).headLines [menuHead] := by
  have comment : Apart "// Contract: " := apart_ofList (by decide +kernel)
  have title : IsInner ("// Contract: " ++ i.contractName) := (comment.append h.contract).isInner
  have imports : Apart "import type \x7b " := apart_ofList (by decide +kernel)
  have binding : IsInner ("import type \x7b " ++ bindingType i.contractName ++
      " \x7d from './api.js';") :=
    ((imports.append (oneLine_bindingType h.contract)).append (by decide)).isInner
  have quote : Apart "  \"" := apart_ofList (by decide +kernel)
  have listed : Opened ((Menu.ofInterface i).map menuLine) [] := .map_apart fun item hm =>
    (quote.append (oneLine_of_forall_isPlain (isPlain_label h hm))).append (by decide)
  have brace : Apart "  \x7b contains: " := apart_ofList (by decide +kernel)
  have hints : Opened (options.errorHints.map hintLine) [] := .map_apart fun e _ =>
    (((brace.append (oneLine_quoted e.contains)).append (by decide)).append
      (oneLine_quoted e.hint)).append (by decide)
  have head : Opens menuHead := .inl (by decide +kernel)
  rw [Cli.headLines, menuLines_eq options h]
  -- the lines left open here are fixed ones
  refine .append_inner (.append_inner (.append_inner (.append_inner (.inner_append
    (.of_forall ⟨?_, title, ?_, ?_⟩) (.concat_opens rfl head (oneLine_ofList (by decide +kernel))
    ⟨?_, binding, ?_, ?_, ?_, ?_, ?_, ?_, ?_, ?_, ?_, ?_⟩)) listed)
    (.of_forall ⟨?_, ?_, ?_⟩)) hints) (.of_forall ⟨?_, ?_⟩)
  all_goals exact isInner_ofList (by decide +kernel)

/-- The loop has one case for each number, in order. -/
theorem opened_loopLines (h : NamedByIdentifiers i) :
    Opened (Cli.ofInterface i options).loopLines
      ((List.range' 1 (i.operations.length + 1)).map caseLine ++
        [exitCaseLine (i.operations.length + 2)]) := by
  have parameter : Apart "  contract: " := apart_ofList (by decide +kernel)
  have binding : IsInner ("  contract: " ++ bindingType i.contractName ++ ",") :=
    ((parameter.append (oneLine_bindingType h.contract)).append (by decide)).isInner
  have operations : Opened ((Cli.ofInterface i options).cases.flatMap OperationCase.lines)
      ((List.range' 1 i.operations.length).map caseLine) :=
    opened_operationCases options.choiceRules 1
      (fun o ho => oneLine_of_isIdentifier (h.operations o ho))
      (fun o ho p hp => oneLine_of_isIdentifier (h.parameters o ho p hp))
  have state : Opened (Cli.ofInterface i options).stateCaseLines
      [caseLine (i.operations.length + 1)] :=
    opened_stateLines (i.operations.length + 1) i.stateVariables
  have report : Apart "        console.log(`✗ Invalid option \"$\x7bchoice\x7d\", choose 1-" :=
    apart_ofList (by decide +kernel)
  have invalid : IsInner ("        console.log(`✗ Invalid option \"$\x7bchoice\x7d\", choose 1-" ++
      toString (i.operations.length + 2) ++ "`);") :=
    ((report.append (oneLine_toString _)).append (by decide)).isInner
  have numbers : (List.range' 1 (i.operations.length + 1)).map caseLine =
      (List.range' 1 i.operations.length).map caseLine ++ [caseLine (i.operations.length + 1)] := by
    rw [List.range'_concat, List.map_append, Nat.one_mul, Nat.add_comm 1]
    rfl
  rw [Cli.loopLines, numbers]
  refine .append (.append (.inner_append (.of_forall
    ⟨?_, binding, ?_, ?_, ?_, ?_, ?_, ?_, ?_⟩) operations) state)
    (.cons_opens (opens_exitCaseLine _) (oneLine_exitCaseLine _)
      (.of_forall ⟨?_, ?_, ?_, invalid, ?_, ?_, ?_⟩))
  all_goals exact isInner_ofList (by decide +kernel)

theorem opened_helperLines : Opened helperLines [] := by
  refine .of_forall ?_
  simp only [helperLines, truthWordLines, parseIntegerLines, parseBooleanLines, parseBytesLines,
    pickChoiceLines, formatValueLines, reportErrorLines, List.flatMap_cons, List.flatMap_nil,
    List.cons_append, List.nil_append, List.append_nil, List.Forall]
  and_intros
  all_goals exact isInner_ofList (by decide +kernel)

theorem opened_lines (h : NamedByIdentifiers i) :
    let c := Cli.ofInterface i options
    Opened (c.headLines ++ helperLines ++ c.loopLines)
      ([menuHead] ++ ((List.range' 1 (i.operations.length + 1)).map caseLine ++
        [exitCaseLine (i.operations.length + 2)])) :=
  ((opened_headLines options h).append_inner opened_helperLines).append
    (opened_loopLines options h)

theorem infix_between {α : Type} {xs ys zs ws : List α} (h : xs <:+ ys) (h' : zs <+: ws)
    (ms : List α) : xs ++ ms ++ zs <:+: ys ++ ms ++ ws := by
  obtain ⟨front, rfl⟩ := h
  obtain ⟨rest, rfl⟩ := h'
  exact ⟨front, rest, by simp only [List.append_assoc]⟩

theorem singleton_suffix_append {α : Type} {x : α} {xs : List α} (h : x ∈ xs.getLast?)
    (front : List α) : [x] <:+ front ++ xs :=
  List.IsSuffix.trans ⟨_, List.dropLast_append_getLast? x h⟩ (List.suffix_append front xs)

theorem infix_labels (c : Cli) :
    [menuHead] ++ c.labels.map (fun label => "  " ++ Text.quoted label ++ ",") ++ ["];"] <:+:
      c.headLines := by
  rw [Cli.headLines]
  refine infix_append_right _ (infix_append_right _ (infix_between ?_ ?_ _))
  · exact singleton_suffix_append (x := menuHead) rfl _
  · exact List.prefix_append ["];"] _

theorem infix_menu (h : NamedByIdentifiers i) :
    [menuHead] ++ (Menu.ofInterface i).map menuLine ++ ["];"] <:+:
      (Cli.ofInterface i options).headLines := by
  rw [← menuLines_eq options h]
  exact infix_labels _

theorem infix_operationLines {k : Nat} {o : Operation} (hk : i.operations[k]? = some o) :
    operationLines (k + 1) o (fun p => (Ask.ofParameter options.choiceRules p).code)
        (fun p => parameterKind p.declaredType) <:+:
      (Cli.ofInterface i options).cases.flatMap OperationCase.lines := by
  rw [← lines_operation]
  exact infix_caseLines hk

theorem infix_stateLines :
    stateLines (i.operations.length + 1) i.stateVariables <:+:
      (Cli.ofInterface i options).loopLines := by
  rw [Cli.loopLines]
  exact infix_append_right _ (List.suffix_append _ _).isInfix

theorem linesOf_text (h : NamedByIdentifiers i) :
    let c := Cli.ofInterface i options
    linesOf c.text = (c.headLines ++ helperLines ++ c.loopLines) ++ [""] :=
  linesOf_ofLines (opened_lines options h).oneLine

end Module

/-- The generated command line module offers the entries of the menu under their numbers. -/
structure Offers (i : Interface) (options : SessionOptions) (api cli : String) : Prop where
  listed : [menuHead] ++ (Menu.ofInterface i).map menuLine ++ ["];"] <:+: linesOf cli
  opened : (linesOf cli).filter (Opens ·) = [menuHead] ++
    ((List.range' 1 (i.operations.length + 1)).map caseLine ++
      [exitCaseLine (i.operations.length + 2)])
  calls : ∀ k o, i.operations[k]? = some o → ∃ ask kind,
    operationLines (k + 1) o ask kind <:+: linesOf cli ∧
    (∀ p ∈ o.parameters, ReadsAlike options.choiceRules p (ask p) (kind p)) ∧
    Shows api [signatureLine o (bindingType i.contractName), callLine o]
  shows : stateLines (i.operations.length + 1) i.stateVariables <:+: linesOf cli
  leaves : exitLines (i.operations.length + 2) <:+: linesOf cli

variable {i : Interface} (options : SessionOptions)

/-- The generated module offers the menu of its interface. -/
theorem offers_ofInterface (h : NamedByIdentifiers i) :
    Offers i options (Api.ofInterface i).text (Cli.ofInterface i options).text := by
  have lines := linesOf_text options h
  have blank : [""].filter (Opens ·) = [] := by decide +kernel
  refine ⟨?_, ?_, ?_, ?_, ?_⟩ <;> rw [lines]
  · exact infix_append_right _ (infix_append_right _ (infix_append_right _ (infix_menu options h)))
  · rw [List.filter_append, (opened_lines options h).opens, blank, List.append_nil]
  · intro k o hk
    exact ⟨_, _, infix_append_right _ (infix_case (infix_operationLines options hk)),
      fun p _ => readsAlike_ofParameter options.choiceRules p,
      shows_wrapper (List.mem_of_getElem? hk)⟩
  · exact infix_append_right _ (infix_append_left _ (infix_stateLines options))
  · refine infix_append_right _ (infix_append_left _ ?_)
    rw [Cli.loopLines]
    exact infix_append_left _ (List.prefix_append (exitLines _) _).isInfix

/-- The menu is counted once: a session, the list of the generated module and its cases have the
same entries under the same numbers. -/
theorem menu_numbers_agree (h : NamedByIdentifiers i) :
    Menu.Numbered i (Menu.ofInterface i) ∧
    ∃ api cli, generate i options = [⟨apiPath, api⟩, ⟨cliPath, cli⟩] ∧ Offers i options api cli :=
  ⟨Menu.numbered_ofInterface i, _, _, rfl, offers_ofInterface options h⟩

/-- A plus sign, a zero and blanks do not change the number of an answer. -/
theorem poll_menu_numbers :
    let row : Parameter := ⟨"row_index", "Uint<0..1>"⟩
    let memo : Parameter := ⟨"memo", "Bytes<4>"⟩
    let vote : Operation := ⟨"vote", [row, memo], "[]", true, ""⟩
    let i : Interface := { poll with stateVariables := [⟨"votes", "Map<Field, Uint<64>>"⟩] }
    NamedByIdentifiers i ∧
    (∃ item, (Menu.ofInterface i).select? " +02 " = some item ∧ item.id = 2 ∧
      item.action = .invoke "vote") ∧
    ∃ api cli, generate i .standard = [⟨apiPath, api⟩, ⟨cliPath, cli⟩] ∧
      (linesOf cli).filter (Opens ·) =
        [menuHead, caseLine 1, caseLine 2, caseLine 3, exitCaseLine 4] ∧
      (∃ ask kind, operationLines 2 vote ask kind <:+: linesOf cli) ∧
      stateLines 3 i.stateVariables <:+: linesOf cli ∧ exitLines 4 <:+: linesOf cli := by
  intro row memo vote i
  have ofTotal : IsIdentifier "total" := ⟨by decide, List.all_eq_true.mp (by decide)⟩
  have ofVote : IsIdentifier "vote" := ⟨by decide, List.all_eq_true.mp (by decide)⟩
  have ofRow : IsIdentifier "row_index" := ⟨by decide, List.all_eq_true.mp (by decide)⟩
  have ofMemo : IsIdentifier "memo" := ⟨by decide, List.all_eq_true.mp (by decide)⟩
  have named : NamedByIdentifiers i := by
    refine ⟨by decide, ?_, ?_⟩
    · simpa [i, poll] using ⟨ofTotal, ofVote⟩
    · simpa [i, poll] using ⟨ofRow, ofMemo⟩
  obtain ⟨numbered, api, cli, files, offers⟩ := menu_numbers_agree .standard named
  have second : i.operations[1]? = some vote := rfl
  obtain ⟨ask, kind, reads, _⟩ := offers.calls 1 vote second
  have entry := numbered.selected " +02 " ⟨2, "2. Vote(2 params)", "", false, .invoke "vote"⟩
  have spelled : Spells (Text.trim " +02 ".toList) 2 :=
    ⟨['+'], ['0', '2'], by decide +kernel, .inr rfl, by decide, by simp, by decide⟩
  have selected := entry.mpr ⟨by decide +kernel, spelled, by decide⟩
  exact ⟨named, ⟨_, selected, rfl, rfl⟩, api, cli, files, offers.opened, ⟨ask, kind, reads⟩,
    offers.shows, offers.leaves⟩

end ContractSurface.TypeScript
