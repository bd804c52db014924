import ContractSurface.Proofs.Session.Moves

/-! # How a parameter is asked for

Collecting a parameter on a console that does not break is one exchange. If a rule has choices for
the parameter, the exchange shows them with their numbers and takes a number for an answer;
otherwise it shows the name and the type of the parameter and takes any text.
-/
namespace ContractSurface

def numberedList (p : Parameter) (choices : List Choice) : String :=
  s!"Select {p.name}:\n" ++
    String.join ((choices.zipIdx 1).map fun c => s!"  {c.2}) {c.1.label}\n")

/-- Collecting the parameter shows these choices, and a number stands for the value of its
choice. -/
structure AsksByNumber (rules : List ChoiceRule) (p : Parameter) (choices : List Choice) :
    Prop where
  offers : choices ≠ []
  shows : ∀ (c : Console) (line : String) (rest : List String), c.Sound →
    c.answers = line :: rest → (collect rules p c).2.exchanges = c.exchanges ++
      [⟨c.out ++ Text.utf8 (numberedList p choices), s!"Choice [1-{choices.length}]: ",
        .line line⟩]
  picks : ∀ (c : Console) (line : String) (rest : List String) (k : Nat) (choice : Choice),
    c.Sound → c.answers = line :: rest →
    Text.naturalOfWidth? 64 (Text.trim line.toList) = some (k + 1) → choices[k]? = some choice →
    (collect rules p c).1 = (convert p choice.value).mapError .parameter

/-- Collecting the parameter shows this prompt and nothing else, and converts the answer. -/
structure AsksFreely (rules : List ChoiceRule) (p : Parameter) (prompt : String) : Prop where
  shows : ∀ (c : Console) (line : String) (rest : List String), c.Sound →
    c.answers = line :: rest →
    (collect rules p c).2.exchanges = c.exchanges ++ [⟨c.out, prompt, .line line⟩]
  converts : ∀ (c : Console) (line : String) (rest : List String), c.Sound →
    c.answers = line :: rest → (collect rules p c).1 = (convert p line).mapError .parameter

variable {rules : List ChoiceRule} {p : Parameter}

theorem choiceLines_eq (number : Nat) (choices : List Choice) :
    Question.choiceLines number choices =
      (choices.zipIdx number).map fun c => s!"  {c.2}) {c.1.label}\n" := by
  induction choices generalizing number with
  | nil => rfl
  | cons c cs ih => rw [Question.choiceLines, ih, List.zipIdx_cons, List.map_cons]

theorem ofParameter_of_eq_nil (h : choicesFor rules p = []) :
    Question.ofParameter rules p = .free := by
  rw [Question.ofParameter, h]

theorem ofParameter_of_ne_nil (h : choicesFor rules p ≠ []) :
    Question.ofParameter rules p = .pick (choicesFor rules p) := by
  unfold Question.ofParameter
  split
  · next none => exact absurd none h
  · rfl

namespace Console

def reply (c : Console) : Reply :=
  if c.inputFailsAt = some c.exchanges.length then .failed
  else
    match c.answers with
    | [] => .closed
    | line :: _ => .line line

def Takes (c : Console) (text : String) : Prop := ∀ n ∈ c.room, (Text.utf8 text).length ≤ n

instance (c : Console) (text : String) : Decidable (c.Takes text) :=
  inferInstanceAs (Decidable (∀ n ∈ c.room, _))

variable {c : Console}

theorem takes_empty (c : Console) : c.Takes "" := by
  intro n _
  exact Nat.zero_le n

theorem write_of_takes {text : String} (h : c.Takes text) :
    ∃ room, c.write text = (.ok (), { c with out := c.out ++ Text.utf8 text, room := room }) := by
  unfold Console.write
  cases hr : c.room with
  | none => exact ⟨none, rfl⟩
  | some n =>
    have fits : (Text.utf8 text).length ≤ n := h n hr
    refine ⟨some (n - (Text.utf8 text).length), ?_⟩
    simp only [if_pos fits, List.take_of_length_le fits]

theorem Sound.reply {line : String} {rest : List String} (h : c.Sound)
    (hc : c.answers = line :: rest) : c.reply = .line line := by
  rw [Console.reply, h.2, if_neg (by simp), hc]

end Console

/-- What is collected, and the console after it, by what the prompt gets. -/
theorem collect_of_takes {q : Question} (hq : Question.ofParameter rules p = q) {c : Console}
    (h : c.Takes (q.introduction p)) :
    ∃ room, collect rules p c =
      let shown := { c with out := c.out ++ Text.utf8 (q.introduction p), room := room }
      match c.reply with
      | .failed => (.error (.console .inputGone), shown.finish (q.prompt p) .failed)
      | .closed =>
        (.error (.parameter (.inputClosed p.name)), shown.finish (q.prompt p) .closed)
      | .line line => ((q.interpret p line).mapError .parameter,
          { shown.finish (q.prompt p) (.line line) with answers := c.answers.tail }) := by
  obtain ⟨room, written⟩ := c.write_of_takes h
  refine ⟨room, ?_⟩
  unfold collect Question.put Console.writeAndAsk Console.ask Console.reply
  simp only [hq, written]
  by_cases fails : c.inputFailsAt = some c.exchanges.length
  · simp only [if_pos fails]
  · simp only [if_neg fails, Question.take, Console.receive]
    cases c.answers <;> rfl

/-- The exchange in which a parameter is collected, and what its answer gives. -/
theorem collect_of_sound (rules : List ChoiceRule) (p : Parameter) {c : Console} (h : c.Sound)
    {line : String} {rest : List String} (hc : c.answers = line :: rest) :
    let q := Question.ofParameter rules p
    (collect rules p c).1 = (q.interpret p line).mapError .parameter ∧
      (collect rules p c).2.exchanges =
        c.exchanges ++ [⟨c.out ++ Text.utf8 (q.introduction p), q.prompt p, .line line⟩] := by
  intro q
  have room : c.Takes (q.introduction p) := by
    intro n hn
    rw [h.1] at hn
    cases hn
  obtain ⟨room, collected⟩ := collect_of_takes (q := q) rfl room
  rw [h.reply hc] at collected
  rw [collected]
  exact ⟨rfl, rfl⟩

theorem Choice.exists_convert {choice : Choice} (h : (convert p choice.value).isOk = true) :
    ∃ a, convert p choice.value = .ok a := by
  cases converted : convert p choice.value with
  | ok a => exact ⟨a, rfl⟩
  | error e =>
    rw [converted] at h
    cases h

/-- Choices that fit are listed and taken by number. -/
theorem asksByNumber_of_ne_nil (h : choicesFor rules p ≠ []) :
    AsksByNumber rules p (choicesFor rules p) := by
  have question := ofParameter_of_ne_nil h
  refine ⟨h, ?_, ?_⟩
  · intro c line rest sound answers
    obtain ⟨_, shown⟩ := collect_of_sound rules p sound answers
    rw [question, Question.introduction, choiceLines_eq] at shown
    exact shown
  · intro c line rest k choice sound answers number at_k
    obtain ⟨given, _⟩ := collect_of_sound rules p sound answers
    have picked : Question.picked? (choicesFor rules p) line = some choice := by
      rw [Question.picked?, number]
      exact at_k
    rw [question, Question.interpret, picked] at given
    exact given

/-- Without a choice that fits, the parameter is asked for by name and type. -/
theorem asksFreely_of_eq_nil (h : choicesFor rules p = []) :
    AsksFreely rules p s!"{p.name} ({p.declaredType}): " := by
  have question := ofParameter_of_eq_nil h
  refine ⟨?_, ?_⟩
  · intro c line rest sound answers
    obtain ⟨_, shown⟩ := collect_of_sound rules p sound answers
    rw [question, Question.introduction, show Text.utf8 "" = [] from rfl, List.append_nil] at shown
    exact shown
  · intro c line rest sound answers
    obtain ⟨given, _⟩ := collect_of_sound rules p sound answers
    rw [question] at given
    exact given

/-- A list is shown before one kind of prompt and nothing before the other. -/
theorem AsksByNumber.not_asksFreely {choices : List Choice} {prompt : String}
    (h : AsksByNumber rules p choices) : ¬AsksFreely rules p prompt := by
  intro free
  have numbered := h.shows (.ofAnswers [""] none none) "" [] ⟨rfl, rfl⟩ rfl
  rw [free.shows (.ofAnswers [""] none none) "" [] ⟨rfl, rfl⟩ rfl] at numbered
  simp only [Console.ofAnswers, List.nil_append, List.cons.injEq, Exchange.mk.injEq] at numbered
  have silent : Text.utf8 (numberedList p choices) = [] := numbered.1.1.symm
  have said : 'S' ∈ (numberedList p choices).toList := by
    simp only [numberedList, String.toList_append, List.mem_append]
    exact .inl (.inl (.inl (by decide)))
  exact absurd (List.flatMap_eq_nil_iff.mp silent 'S' said) (by decide)

theorem AsksFreely.prompt_eq {prompt other : String} (h : AsksFreely rules p prompt)
    (h' : AsksFreely rules p other) : prompt = other := by
  have shown := h.shows (.ofAnswers [""] none none) "" [] ⟨rfl, rfl⟩ rfl
  rw [h'.shows (.ofAnswers [""] none none) "" [] ⟨rfl, rfl⟩ rfl] at shown
  simpa using shown.symm

end ContractSurface
