import ContractSurface.Proofs.TypeScript.Literals
import ContractSurface.Proofs.TypeScript.Questions
import ContractSurface.Proofs.TypeScript.Splicing

/-! # The texts that generated programs get

Names, types, labels, prompts, choices and hints go into the generated modules as literals. A line
that holds such texts is read back as a row of literals, and their values are the texts.
-/
namespace ContractSurface.TypeScript

theorem length_readBody_lt {cs rest : List Char} {value : List Nat}
    (h : readBody cs = some (value, rest)) : rest.length < cs.length := by
  fun_induction readBody cs generalizing value rest with
  | case1 => cases h
  | case2 cs =>
    cases h
    simp
  | case3 => cases h
  | case4 cs units after escape _ ih =>
    obtain ⟨⟨inner, last⟩, read, same⟩ := Option.map_eq_some_iff.mp h
    cases same
    have shorter := ih read
    have escaped := length_readEscape_lt escape
    simp only [List.length_cons]
    omega
  | case5 => cases h
  | case6 c cs _ _ _ ih =>
    obtain ⟨⟨inner, last⟩, read, same⟩ := Option.map_eq_some_iff.mp h
    cases same
    have shorter := ih read
    simp only [List.length_cons]
    omega

def opensText (c : Char) : Bool := c == '"' || c == '\x27' || c == '\x60' || c == '/'

/-- The values of the literals in a text that has no other quotes and no comment. -/
def readLiterals : List Char → Option (List (List Nat))
  | [] => some []
  | c :: cs =>
    if c = '"' then
      match _h : readBody cs with
      | none => none
      | some (value, rest) => (readLiterals rest).map (value :: ·)
    else if opensText c then none
    else readLiterals cs
termination_by cs => cs.length
decreasing_by
  · have := length_readBody_lt _h
    simp only [List.length_cons]
    omega
  · simp

def IsCode (s : String) : Prop := ∀ c ∈ s.toList, opensText c = false

instance (s : String) : Decidable (IsCode s) :=
  decidable_of_iff (s.toList.all (!opensText ·) = true) (by simp [IsCode])

/-- The texts stand quoted in the line, in this order, and all else is code. -/
inductive Holds : String → List String → Prop
  | code {s : String} : IsCode s → Holds s []
  | quoted (text : String) : Holds (Text.quoted text) [text]
  | append {s t : String} {texts more : List String} :
      Holds s texts → Holds t more → Holds (s ++ t) (texts ++ more)

theorem readLiterals_code {cs : List Char} (h : ∀ c ∈ cs, opensText c = false)
    (rest : List Char) : readLiterals (cs ++ rest) = readLiterals rest := by
  induction cs with
  | nil => rfl
  | cons c cs ih =>
    have first := h c List.mem_cons_self
    have noQuote : c ≠ '"' := by
      rintro rfl
      exact absurd first (by decide)
    rw [List.cons_append, readLiterals, if_neg noQuote, if_neg (by simp [first])]
    exact ih fun d hd => h d (List.mem_cons_of_mem c hd)

theorem readLiterals_literal {cs rest : List Char} {value : List Nat}
    (h : readBody cs = some (value, rest)) :
    readLiterals ('"' :: cs) = (readLiterals rest).map (value :: ·) := by
  rw [readLiterals, if_pos rfl]
  split
  · next none => rw [h] at none; cases none
  · next some => rw [h] at some; cases some; rfl

theorem readLiterals_broken {cs : List Char} (h : readBody cs = none) :
    readLiterals ('"' :: cs) = none := by
  rw [readLiterals, if_pos rfl]
  split
  · rfl
  · next some => rw [h] at some; cases some

/-- A quoted text in front is the first literal. -/
theorem readLiterals_quoted (text : String) (rest : List Char) :
    readLiterals ((Text.quoted text).toList ++ rest) =
      if Expressible text then (readLiterals rest).map (codeUnits text :: ·) else none := by
  have body : readBody (text.toList.flatMap (Text.quotedChar '"') ++ '"' :: rest) =
      if Expressible text then some (codeUnits text, rest) else none :=
    readBody_quoted text.toList rest
  rw [toList_quoted_append]
  by_cases expressible : Expressible text
  · rw [if_pos expressible] at body ⊢
    exact readLiterals_literal body
  · rw [if_neg expressible] at body ⊢
    exact readLiterals_broken body

theorem Holds.readLiterals_append {s : String} {texts : List String} (h : Holds s texts)
    (rest : List Char) : readLiterals (s.toList ++ rest) =
      if ∀ text ∈ texts, Expressible text then
        (readLiterals rest).map (texts.map codeUnits ++ ·)
      else none := by
  induction h generalizing rest with
  | code plain =>
    rw [readLiterals_code plain, if_pos (List.forall_mem_nil _)]
    exact Option.map_id.symm ▸ rfl
  | quoted text => simpa using readLiterals_quoted text rest
  | @append s t texts more _ _ first second =>
    rw [String.toList_append, List.append_assoc, first, second]
    by_cases early : ∀ text ∈ texts, Expressible text
    · by_cases late : ∀ text ∈ more, Expressible text
      · rw [if_pos early, if_pos late, if_pos (List.forall_mem_append.mpr ⟨early, late⟩),
          Option.map_map, List.map_append]
        simp [Function.comp_def]
      · rw [if_neg late, if_neg fun all => late (List.forall_mem_append.mp all).2]
        simp
    · rw [if_neg early, if_neg fun all => early (List.forall_mem_append.mp all).1]

theorem Holds.behind {s code : String} {texts : List String} (h : Holds s texts)
    (hc : IsCode code) : Holds (s ++ code) texts := by
  have whole := h.append (.code hc)
  rwa [List.append_nil] at whole

/-- Read as code, the line gives the texts, unless one of them cannot be expressed. -/
def Denotes (line : String) (texts : List String) : Prop :=
  readLiterals line.toList =
    if ∀ text ∈ texts, Expressible text then some (texts.map codeUnits) else none

theorem Holds.denotes {line : String} {texts : List String} (h : Holds line texts) :
    Denotes line texts := by
  have whole := h.readLiterals_append []
  have nothing : readLiterals [] = some [] := by rw [readLiterals]
  rw [List.append_nil, nothing, Option.map_some, List.append_nil] at whole
  exact whole

/-- What the parts of a list hold, the list holds in their order. -/
theorem Holds.intercalate {α : Type} {f : α → String} {g : α → List String} {xs : List α}
    (h : ∀ x ∈ xs, Holds (f x) (g x)) : Holds (", ".intercalate (xs.map f)) (xs.flatMap g) := by
  have blank : Holds ", " [] := .code (by decide)
  induction xs with
  | nil =>
    have empty : Holds "" [] := .code (by decide)
    exact empty
  | cons x xs ih =>
    have first := h x List.mem_cons_self
    have others := ih fun y hy => h y (List.mem_cons_of_mem x hy)
    cases xs with
    | nil => simpa using first
    | cons y ys =>
      have whole := (first.append blank).append others
      rw [List.append_nil] at whole
      rw [List.map_cons, List.map_cons, String.intercalate_cons_cons, List.flatMap_cons]
      exact whole

variable {i : Interface} {options : SessionOptions} {rules : List ChoiceRule} {p : Parameter}

theorem opensText_of_isWordChar {c : Char} (h : Source.isWordChar c = true) :
    opensText c = false := by
  have other : ∀ mark : Char, Source.isWordChar mark = false → (c == mark) = false := by
    intro mark noWord
    rw [beq_eq_false_iff_ne]
    rintro rfl
    rw [h] at noWord
    cases noWord
  simp only [opensText, Bool.or_eq_false_iff]
  exact ⟨⟨⟨other _ (by decide), other _ (by decide)⟩, other _ (by decide)⟩, other _ (by decide)⟩

theorem isCode_of_isIdentifier {name : String} (h : IsIdentifier name) : IsCode name :=
  fun c hc => opensText_of_isWordChar (isWordChar_of_isIdentifier h c hc)

theorem isCode_toString (n : Nat) : IsCode (toString n) := fun _ hc =>
  opensText_of_isWordChar (Source.isWordChar_of_isDigit (Text.isDigit_of_mem_toString hc))

def askTexts (rules : List ChoiceRule) (p : Parameter) : List String :=
  if choicesFor rules p = [] then [s!"{p.name} ({p.declaredType}): "]
  else p.name :: (choicesFor rules p).flatMap fun c => [c.label, c.value]

def readerTexts (rules : List ChoiceRule) (p : Parameter) : List String :=
  match parameterKind p.declaredType with
  | .integer _ => p.name :: askTexts rules p
  | .boolean => p.name :: askTexts rules p
  | .bytes => askTexts rules p
  | .text => askTexts rules p

theorem holds_questionText (prompt : String) : Holds (questionText prompt) [prompt] :=
  ((Holds.code (by decide)).append (.quoted prompt)).behind (by decide)

theorem holds_pickText (name : String) (choices : List Choice) :
    Holds (pickText name choices) (name :: choices.flatMap fun c => [c.label, c.value]) := by
  have offered : Holds (", ".intercalate (choices.map fun c =>
      s!"\x7b label: {Text.quoted c.label}, value: {Text.quoted c.value} \x7d"))
      (choices.flatMap fun c => [c.label, c.value]) := by
    refine .intercalate fun c _ => ?_
    exact ((((Holds.code (by decide)).append (.quoted c.label)).behind (by decide)).append
      (.quoted c.value)).behind (by decide)
  exact ((((Holds.code (by decide)).append (.quoted name)).behind (by decide)).append
    offered).behind (by decide)

theorem holds_ask (rules : List ChoiceRule) (p : Parameter) :
    Holds (Ask.ofParameter rules p).code (askTexts rules p) := by
  unfold askTexts
  split
  · next none =>
    rw [code_ask_of_eq_nil none]
    exact holds_questionText _
  · next some =>
    rw [code_ask_of_ne_nil some]
    exact holds_pickText _ _

theorem isCode_append {s t : String} (hs : IsCode s) (ht : IsCode t) : IsCode (s ++ t) :=
  forall_mem_append hs ht

theorem isCode_boundText (bound : Option Nat) : IsCode (boundText bound) := by
  cases bound with
  | none => exact (by decide : IsCode "undefined")
  | some max => exact isCode_append (isCode_toString max) (by decide)

theorem holds_reader (rules : List ChoiceRule) (p : Parameter) :
    Holds (Reading.ofParameter rules p).code (readerTexts rules p) := by
  have ask := holds_ask rules p
  unfold Reading.ofParameter readerTexts
  dsimp only
  cases parameterKind p.declaredType with
  | integer range =>
    exact (((((((Holds.code (by decide)).append (.quoted p.name)).behind (by decide)).append
      ask).behind (by decide)).behind (isCode_toString range.min)).behind (by decide)).behind
      (isCode_boundText range.max) |>.behind (by decide)
  | boolean =>
    exact ((((Holds.code (by decide)).append (.quoted p.name)).behind (by decide)).append
      ask).behind (by decide)
  | bytes => exact ((Holds.code (by decide)).append ask).behind (by decide)
  | text => exact ask

def askCode (rules : List ChoiceRule) (p : Parameter) : String := (Ask.ofParameter rules p).code

def readingLine (rules : List ChoiceRule) (p : Parameter) : String :=
  readerLine p (askCode rules p) (parameterKind p.declaredType)

theorem holds_readingLine (rules : List ChoiceRule) (h : IsIdentifier p.name) :
    Holds (readingLine rules p) (readerTexts rules p) := by
  have bound : IsCode (identifier p.name) := isCode_of_isIdentifier (isIdentifier_identifier h)
  have reader := holds_reader rules p
  rw [code_reading] at reader
  exact ((((Holds.code (by decide)).behind bound).behind (by decide)).append reader).behind
    (by decide)

def failureLine (o : Operation) : String := s!"          reportError({Text.quoted o.name}, error);"

theorem holds_failureLine (o : Operation) : Holds (failureLine o) [o.name] :=
  ((Holds.code (by decide)).append (.quoted o.name)).behind (by decide)

def labelLine (label : String) : String := "  " ++ Text.quoted label ++ ","

theorem holds_labelLine (label : String) : Holds (labelLine label) [label] :=
  ((Holds.code (by decide)).append (.quoted label)).behind (by decide)

theorem holds_hintLine (h : ErrorHint) : Holds (hintLine h) [h.contains, h.hint] :=
  ((((Holds.code (by decide)).append (.quoted h.contains)).behind (by decide)).append
    (.quoted h.hint)).behind (by decide)

theorem holds_shownLine (v : StateVariable) :
    Holds (shownLine v) [s!"{v.name} ({v.declaredType}):", v.name] :=
  ((((Holds.code (by decide)).append (.quoted _)).behind (by decide)).append
    (.quoted v.name)).behind (by decide)

theorem holds_nameAndType (name type : String) : Holds (nameAndType name type) [name, type] :=
  ((((Holds.code (by decide)).append (.quoted name)).behind (by decide)).append
    (.quoted type)).behind (by decide)

theorem holds_stateVariableLine (v : StateVariable) :
    Holds (stateVariableLine v) [v.name, v.declaredType] :=
  ((Holds.code (by decide)).append (holds_nameAndType v.name v.declaredType)).behind (by decide)

def operationTexts (o : Operation) : List String :=
  o.name :: o.parameters.flatMap fun p => [p.name, p.declaredType]

/-- The entry of an operation holds its name and those of its parameters with their types. -/
theorem holds_entryLine (o : Operation) : Holds (entryLine o) (operationTexts o) := by
  have listed : Holds
      (", ".intercalate (o.parameters.map fun p => nameAndType p.name p.declaredType))
      (o.parameters.flatMap fun p => [p.name, p.declaredType]) :=
    .intercalate fun p _ => holds_nameAndType p.name p.declaredType
  have readOnly : IsCode (toString !o.mutates) := by
    cases o.mutates with
    | true => decide +kernel
    | false => decide +kernel
  exact ((((((Holds.code (by decide)).append (.quoted o.name)).behind (by decide)).behind
    readOnly).behind (by decide)).append listed).behind (by decide)

def hintsHead : String :=
  "const ERROR_HINTS: readonly \x7b contains: string; hint: string \x7d[] = ["

/-- The lines of both modules that hold texts, and what they hold: the labels of the menu, the
hints, what is asked for each parameter with its choices, and the names and types of the tables. -/
structure CarriesTexts (i : Interface) (options : SessionOptions) (api cli : String) : Prop where
  menu : Shows cli ([menuHead] ++ (Menu.ofInterface i).map (fun item => labelLine item.label) ++
    ["];"])
  labels : ∀ item ∈ Menu.ofInterface i, Denotes (labelLine item.label) [item.label]
  hintTable : Shows cli ([hintsHead] ++ options.errorHints.map hintLine ++ ["];"])
  hints : ∀ h ∈ options.errorHints, Denotes (hintLine h) [h.contains, h.hint]
  cases : ∀ k o, i.operations[k]? = some o → Shows cli (operationLines (k + 1) o
    (askCode options.choiceRules) fun p => parameterKind p.declaredType)
  readers : ∀ o ∈ i.operations, ∀ p ∈ o.parameters,
    Denotes (readingLine options.choiceRules p) (readerTexts options.choiceRules p)
  failures : ∀ o ∈ i.operations, Denotes (failureLine o) [o.name]
  state : Shows cli (stateLines (i.operations.length + 1) i.stateVariables)
  shown : ∀ v ∈ i.stateVariables,
    Denotes (shownLine v) [s!"{v.name} ({v.declaredType}):", v.name]
  operationTable : Shows api
    (["export const operations = ["] ++ i.operations.map entryLine ++ ["] as const;"])
  operations : ∀ o ∈ i.operations, Denotes (entryLine o) (operationTexts o)
  stateTable : Shows api (["export const stateVariables = ["] ++
    i.stateVariables.map stateVariableLine ++ ["] as const;"])
  stateVariables : ∀ v ∈ i.stateVariables, Denotes (stateVariableLine v) [v.name, v.declaredType]

theorem shows_head {c : Cli} {lines : List String} (h : lines <:+: c.headLines) :
    Shows c.text lines := shows_of_infix (infix_append_right _ (infix_append_right _ h))

theorem shows_menu (i : Interface) (options : SessionOptions) :
    Shows (Cli.ofInterface i options).text
      ([menuHead] ++ (Menu.ofInterface i).map (fun item => labelLine item.label) ++ ["];"]) := by
  have inside := infix_labels (Cli.ofInterface i options)
  rw [labels_ofInterface, List.map_map] at inside
  exact shows_head inside

theorem shows_hints (i : Interface) (options : SessionOptions) :
    Shows (Cli.ofInterface i options).text
      ([hintsHead] ++ options.errorHints.map hintLine ++ ["];"]) := by
  refine shows_head ?_
  rw [Cli.headLines]
  refine infix_between ?_ ?_ _
  · exact singleton_suffix_append (x := hintsHead) rfl _
  · exact List.prefix_append ["];"] _

theorem shows_tables (i : Interface) :
    Shows (Api.ofInterface i).text
        (["export const operations = ["] ++ i.operations.map entryLine ++ ["] as const;"]) ∧
      Shows (Api.ofInterface i).text (["export const stateVariables = ["] ++
        i.stateVariables.map stateVariableLine ++ ["] as const;"]) := by
  have entries : (Api.ofInterface i).operations.map OperationEntry.line =
      i.operations.map entryLine := by
    rw [Api.ofInterface, List.map_map]
    rfl
  constructor
  · refine shows_of_infix ?_
    rw [Api.lines, entries]
    refine infix_append_right _ (infix_append_right _ (infix_between ?_ ?_ _))
    · exact singleton_suffix_append (x := "export const operations = [") rfl _
    · exact List.prefix_append ["] as const;"] _
  · refine shows_of_infix ?_
    rw [Api.lines]
    refine infix_between ?_ (List.prefix_rfl) _
    exact singleton_suffix_append (x := "export const stateVariables = [") rfl _

/-- A quoted text is a literal that ends at its own closing quote and whose value is the text,
unless a digit stands behind the character zero in it. So are all texts that the generated modules
carry. -/
theorem literals_denote_texts (source file : String) (options : SessionOptions) :
    let i := analyze source file
    Function.Injective codeUnits ∧
    (∀ text rest, readLiteral ((Text.quoted text).toList ++ rest) =
      if Expressible text then some (codeUnits text, rest) else none) ∧
    ∃ api cli, generate i options = [⟨apiPath, api⟩, ⟨cliPath, cli⟩] ∧
      CarriesTexts i options api cli := by
  intro i
  have whole : Spliceable i := spliceable_analyze source file
  refine ⟨codeUnits_injective, readLiteral_quoted, _, _, rfl, ?_⟩
  exact {
    menu := shows_menu i options
    labels := fun item _ => (holds_labelLine item.label).denotes
    hintTable := shows_hints i options
    hints := fun h _ => (holds_hintLine h).denotes
    cases := fun k o hk => shows_of_infix (infix_case (infix_operationLines options hk))
    readers := fun o ho p hp =>
      (holds_readingLine options.choiceRules (whole.parameters o ho p hp)).denotes
    failures := fun o _ => (holds_failureLine o).denotes
    state := shows_of_infix (infix_append_left _ (infix_stateLines options))
    shown := fun v _ => (holds_shownLine v).denotes
    operationTable := (shows_tables i).1
    operations := fun o _ => (holds_entryLine o).denotes
    stateTable := (shows_tables i).2
    stateVariables := fun v _ => (holds_stateVariableLine v).denotes }

/-- A hint for a character zero with a digit behind it is written like an octal escape. Written by
code point it could be read. -/
theorem zero_before_digit_refused :
    let hint : ErrorHint := ⟨"\x001", "again"⟩
    (∃ api cli, generate (analyze "" "contract.compact") ⟨[], [hint]⟩ =
        [⟨apiPath, api⟩, ⟨cliPath, cli⟩] ∧
      Shows cli ([hintsHead] ++ ["  \x7b contains: \"\\01\", hint: \"again\" \x7d,"] ++ ["];"])) ∧
    Text.quoted "\x001" = "\"\\01\"" ∧ readLiteral "\"\\01\"".toList = none ∧
    readLiteral "\"\\u\x7b0\x7d1\"".toList = some (codeUnits "\x001", []) := by
  intro hint
  have line : hintLine hint = "  \x7b contains: \"\\01\", hint: \"again\" \x7d," := by
    decide +kernel
  have shown := shows_hints (analyze "" "contract.compact") ⟨[], [hint]⟩
  rw [List.map_singleton, line] at shown
  have written : Text.quoted "\x001" = "\"\\01\"" := by decide +kernel
  refine ⟨⟨_, _, rfl, shown⟩, written, ?_, ?_⟩
  · have refused := readLiteral_quoted "\x001" []
    rwa [if_neg (by decide +kernel), List.append_nil, written] at refused
  · have one : readBody ['1', '"'] = some ([0x31], []) := by
      rw [readBody_plain (by decide) (by decide) (by decide), readBody_quote]
      rfl
    have zero := readBody_escape (readEscape_codePoint '\x00' ['1', '"'])
    rw [one] at zero
    exact zero

end ContractSurface.TypeScript
