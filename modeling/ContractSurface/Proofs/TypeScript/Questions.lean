import ContractSurface.Proofs.Call.Kinds
import ContractSurface.Proofs.Session.Collecting
import ContractSurface.Proofs.TypeScript.Agreement

/-! # The generated command line asks what a session asks

The expression that reads a parameter in the generated module picks from the list that a session
numbers, or asks with the prompt of the session, and it takes the answer for the kind of value that
the session converts it to, within the same bounds.
-/
namespace ContractSurface.TypeScript

def questionText (prompt : String) : String := s!"await rl.question({Text.quoted prompt})"

def pickText (name : String) (choices : List Choice) : String :=
  let list := ", ".intercalate (choices.map fun c =>
    s!"\x7b label: {Text.quoted c.label}, value: {Text.quoted c.value} \x7d")
  s!"await pickChoice(rl, {Text.quoted name}, [{list}])"

def readerText (name ask : String) : ParameterKind → String
  | .integer range =>
    let upper := match range.max with
      | some max => s!"{max}n"
      | none => "undefined"
    s!"parseInteger({Text.quoted name}, {ask}, {range.min}n, {upper})"
  | .boolean => s!"parseBoolean({Text.quoted name}, {ask})"
  | .bytes => s!"parseBytes({ask})"
  | .text => ask

def caseLine (number : Nat) : String := s!"      case '{number}': \x7b"

def readerLine (p : Parameter) (ask : String) (kind : ParameterKind) : String :=
  s!"          const {identifier p.name} = {readerText p.name ask kind};"

/-- The question and the kind of value are those of a session. -/
structure ReadsAlike (rules : List ChoiceRule) (p : Parameter) (ask : String)
    (kind : ParameterKind) : Prop where
  picks : (∃ choices, ask = pickText p.name choices) ↔ ∃ choices, AsksByNumber rules p choices
  lists : (∃ choices, AsksByNumber rules p choices) → ∃ choices, ask = pickText p.name choices ∧
    AsksByNumber rules p choices ∧ ∀ c ∈ choices, ∃ a, convert p c.value = .ok a
  questions : (¬∃ choices, AsksByNumber rules p choices) →
    ∃ prompt, ask = questionText prompt ∧ AsksFreely rules p prompt
  converts : ∀ other : ParameterKind, convert p = other.convert p.name ↔ kind = other
  bounds : ∀ range, kind = .integer range → ∀ line, (∃ a, convert p line = .ok a) ↔
    Text.isDigits (Text.trim line.toList) = true ∧
      range.min ≤ Text.decimalValue (Text.trim line.toList) ∧
      ∀ max ∈ range.max, Text.decimalValue (Text.trim line.toList) ≤ max

variable {rules : List ChoiceRule} {p : Parameter}

theorem code_integer (name : String) (ask : Ask) (range : IntegerRange) :
    (Reading.integer name ask range).code = readerText name ask.code (.integer range) := by
  unfold Reading.code readerText boundText
  rfl

theorem code_reading (rules : List ChoiceRule) (p : Parameter) :
    (Reading.ofParameter rules p).code =
      readerText p.name (Ask.ofParameter rules p).code (parameterKind p.declaredType) := by
  unfold Reading.ofParameter
  dsimp only
  cases parameterKind p.declaredType with
  | integer range => exact code_integer p.name _ range
  | boolean => rfl
  | bytes => rfl
  | text => rfl

theorem code_ask_of_ne_nil (h : choicesFor rules p ≠ []) :
    (Ask.ofParameter rules p).code = pickText p.name (choicesFor rules p) := by
  have pick : Ask.ofParameter rules p = .pick p.name (choicesFor rules p) :=
    if_neg (by simpa using h)
  rw [pick]
  rfl

theorem code_ask_of_eq_nil (h : choicesFor rules p = []) :
    (Ask.ofParameter rules p).code = questionText s!"{p.name} ({p.declaredType}): " := by
  have question : Ask.ofParameter rules p = .question s!"{p.name} ({p.declaredType}): " :=
    if_pos (by simpa using h)
  rw [question]
  rfl

/-- No text asks both ways. -/
theorem questionText_ne_pickText (prompt name : String) (choices : List Choice) :
    questionText prompt ≠ pickText name choices := by
  have asks : "await r".toList <+: (questionText prompt).toList := by
    unfold questionText
    simp only [String.toList_append, List.append_assoc]
    exact List.IsPrefix.trans (by decide +kernel) (List.prefix_append _ _)
  have picks : "await p".toList <+: (pickText name choices).toList := by
    unfold pickText
    simp only [String.toList_append, List.append_assoc]
    exact List.IsPrefix.trans (by decide +kernel) (List.prefix_append _ _)
  intro same
  rw [same] at asks
  have both := List.prefix_of_prefix_length_le asks picks (by decide +kernel)
  exact absurd both (by decide +kernel)

theorem exists_convert_of_mem_choicesFor {c : Choice} (h : c ∈ choicesFor rules p) :
    ∃ a, convert p c.value = .ok a := by
  unfold choicesFor at h
  split at h
  · exact Choice.exists_convert (List.mem_filter.mp h).2
  · cases h

/-- The generated reader of a parameter is that of a session. -/
theorem readsAlike_ofParameter (rules : List ChoiceRule) (p : Parameter) :
    ReadsAlike rules p (Ask.ofParameter rules p).code (parameterKind p.declaredType) := by
  have converts : ∀ other : ParameterKind,
      convert p = other.convert p.name ↔ parameterKind p.declaredType = other :=
    fun _ => convert_eq_iff
  have bounds : ∀ range, parameterKind p.declaredType = .integer range → ∀ line,
      (∃ a, convert p line = .ok a) ↔ Text.isDigits (Text.trim line.toList) = true ∧
        range.min ≤ Text.decimalValue (Text.trim line.toList) ∧
        ∀ max ∈ range.max, Text.decimalValue (Text.trim line.toList) ≤ max :=
    fun _ integer line => exists_convert_integer_iff integer line
  by_cases none : choicesFor rules p = []
  · have free := asksFreely_of_eq_nil none
    have unnumbered : ¬∃ choices, AsksByNumber rules p choices :=
      fun ⟨_, numbered⟩ => numbered.not_asksFreely free
    rw [code_ask_of_eq_nil none]
    refine ⟨⟨?_, fun numbered => absurd numbered unnumbered⟩,
      fun numbered => absurd numbered unnumbered, fun _ => ⟨_, rfl, free⟩, converts, bounds⟩
    rintro ⟨choices, same⟩
    exact absurd same (questionText_ne_pickText _ _ _)
  · have numbered := asksByNumber_of_ne_nil none
    rw [code_ask_of_ne_nil none]
    exact ⟨⟨fun _ => ⟨_, numbered⟩, fun _ => ⟨_, rfl⟩⟩,
      fun _ => ⟨_, rfl, numbered, fun c hc => exists_convert_of_mem_choicesFor hc⟩,
      fun unnumbered => absurd ⟨_, numbered⟩ unnumbered, converts, bounds⟩

variable {i : Interface} {options : SessionOptions} {k : Nat} {o : Operation}

def readerLines (rules : List ChoiceRule) (o : Operation) : List String :=
  o.parameters.map fun p =>
    readerLine p (Ask.ofParameter rules p).code (parameterKind p.declaredType)

theorem bindingLines_case (rules : List ChoiceRule) (number : Nat) (o : Operation) :
    (OperationCase.ofOperation rules number o).bindings.map bindingLine = readerLines rules o := by
  have bindings : (OperationCase.ofOperation rules number o).bindings =
      o.parameters.map fun p => (identifier p.name, Reading.ofParameter rules p) := rfl
  rw [bindings, List.map_map]
  refine List.map_congr_left fun p _ => ?_
  have line : bindingLine (identifier p.name, Reading.ofParameter rules p) =
      readerLine p (Ask.ofParameter rules p).code (parameterKind p.declaredType) := by
    unfold bindingLine readerLine
    rw [code_reading]
  exact line

/-- A case reads the parameters of its operation, one after the other, and then makes the call. -/
theorem lines_readers (rules : List ChoiceRule) (number : Nat) (o : Operation) :
    [caseLine number, "        try \x7b"] ++ readerLines rules o ++ [requestLine o] <:+:
      (OperationCase.ofOperation rules number o).lines := by
  rw [lines_ofOperation, bindingLines_case]
  exact ⟨[], _, List.append_assoc _ [_] _⟩

/-- The case of an operation in the generated module asks for each parameter as a session does. -/
theorem cli_asks_as_session (options : SessionOptions) (hk : i.operations[k]? = some o) :
    ∃ (cli : String) (ask : Parameter → String) (kind : Parameter → ParameterKind),
      ⟨cliPath, cli⟩ ∈ generate i options ∧
      Shows cli ([caseLine (k + 1), "        try \x7b"] ++
        o.parameters.map (fun p => readerLine p (ask p) (kind p)) ++ [requestLine o]) ∧
      ∀ p ∈ o.parameters, ReadsAlike options.choiceRules p (ask p) (kind p) := by
  have mem : OperationCase.ofOperation options.choiceRules (1 + k) o ∈
      (Cli.ofInterface i options).cases := mem_operationCases.mpr ⟨k, o, hk, rfl⟩
  have inside := (lines_readers options.choiceRules (1 + k) o).trans (infix_flatMap mem)
  rw [Nat.add_comm 1 k] at inside
  exact ⟨(Cli.ofInterface i options).text, _, _,
    List.mem_cons_of_mem _ (List.mem_singleton_self _), shows_of_infix (infix_case inside),
    fun p _ => readsAlike_ofParameter options.choiceRules p⟩

def poll : Interface where
  contractName := "poll"
  operations := [
    ⟨"total", [], "Field", false, ""⟩,
    ⟨"vote", [⟨"row_index", "Uint<0..1>"⟩, ⟨"memo", "Bytes<4>"⟩], "[]", true, ""⟩]
  stateVariables := []

/-- Of the four options of a ballot two fit the row, so both front ends list these two; the memo is
asked for by name and type. -/
theorem poll_cli_asks_as_session :
    let row : Parameter := ⟨"row_index", "Uint<0..1>"⟩
    let memo : Parameter := ⟨"memo", "Bytes<4>"⟩
    let vote : Operation := ⟨"vote", [row, memo], "[]", true, ""⟩
    let rules := SessionOptions.standard.choiceRules
    poll.operations[1]? = some vote ∧ AsksByNumber rules row [⟨"Option A", "0"⟩, ⟨"Option B", "1"⟩] ∧
    ∃ cli askRow, ⟨cliPath, cli⟩ ∈ generate poll .standard ∧
      (∃ choices, askRow = pickText "row_index" choices ∧ AsksByNumber rules row choices) ∧
      Shows cli ([caseLine 2, "        try \x7b", readerLine row askRow (.integer ⟨0, some 1⟩),
        readerLine memo (questionText "memo (Bytes<4>): ") .bytes, requestLine vote]) := by
  intro row memo vote rules
  have second : poll.operations[1]? = some vote := rfl
  have listed : choicesFor rules row = [⟨"Option A", "0"⟩, ⟨"Option B", "1"⟩] := by decide +kernel
  have unlisted : choicesFor rules memo = [] := by decide +kernel
  have numbered : AsksByNumber rules row (choicesFor rules row) :=
    asksByNumber_of_ne_nil (by simp [listed])
  have free : AsksFreely rules memo s!"{memo.name} ({memo.declaredType}): " :=
    asksFreely_of_eq_nil unlisted
  obtain ⟨cli, ask, kind, file, shown, alike⟩ :=
    cli_asks_as_session (i := poll) .standard second
  have ofRow := alike row (by simp [vote])
  have ofMemo := alike memo (by simp [vote])
  have rowKind : kind row = .integer ⟨0, some 1⟩ :=
    (ofRow.converts _).mp (convert_eq_iff.mpr (by decide +kernel))
  have memoKind : kind memo = .bytes :=
    (ofMemo.converts _).mp (convert_eq_iff.mpr (by decide +kernel))
  obtain ⟨choices, asked, picked, _⟩ := ofRow.lists ⟨_, numbered⟩
  obtain ⟨prompt, question, asks⟩ :=
    ofMemo.questions fun ⟨_, numbered⟩ => numbered.not_asksFreely free
  obtain rfl : prompt = "memo (Bytes<4>): " := asks.prompt_eq free
  refine ⟨second, listed ▸ numbered, cli, ask row, file, ⟨choices, asked, picked⟩, ?_⟩
  simpa only [vote, rowKind, memoKind, question, List.map_cons, List.map_nil, List.cons_append,
    List.nil_append] using shown

end ContractSurface.TypeScript
