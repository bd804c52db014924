import ContractSurface.Proofs.Session.Collecting
import ContractSurface.Proofs.Text.Numerals

/-! # One question for one parameter

Collecting a parameter puts one question and takes at most one answer. The first rule that applies
to the name decides whether the answer is the number of a choice or the text of a value, and no rule
behind it counts, even if none of its own choices fits.
-/
namespace ContractSurface

theorem Text.occursIn_iff {part whole : List Char} :
    Text.occursIn part whole = true ↔ part <:+: whole := by
  induction whole with
  | nil => simp [Text.occursIn]
  | cons c cs ih =>
    rw [Text.occursIn, Bool.or_eq_true, ih, List.isPrefixOf_iff_prefix, List.infix_cons_iff]

/-- The text of the rule occurs in the name, where the case of ASCII letters does not count. -/
def ChoiceRule.Applies (rule : ChoiceRule) (name : String) : Prop :=
  Text.lowered rule.nameContains <:+: Text.lowered name

instance (rule : ChoiceRule) (name : String) : Decidable (rule.Applies name) :=
  inferInstanceAs (Decidable (_ <:+: _))

/-- The rule applies to the name, and none before it does. -/
def Decides (rules : List ChoiceRule) (name : String) (rule : ChoiceRule) : Prop :=
  ∃ before after, rules = before ++ rule :: after ∧ rule.Applies name ∧
    ∀ r ∈ before, ¬r.Applies name

def ChoiceRule.offers (rule : ChoiceRule) (p : Parameter) : List Choice :=
  rule.choices.filter fun c => (convert p c.value).isOk

variable {rules : List ChoiceRule} {rule : ChoiceRule} {p : Parameter} {c : Console}

theorem appliesTo_iff {name : String} : rule.appliesTo name = true ↔ rule.Applies name :=
  Text.occursIn_iff

/-- The rule in use is the first one that applies. -/
theorem ruleFor?_eq_some_iff {name : String} :
    ruleFor? rules name = some rule ↔ Decides rules name rule := by
  rw [ruleFor?, List.find?_eq_some_iff_append]
  constructor
  · rintro ⟨applies, before, after, split, skipped⟩
    refine ⟨before, after, split, appliesTo_iff.mp applies, fun r hr other => ?_⟩
    have no := skipped r hr
    rw [appliesTo_iff.mpr other] at no
    cases no
  · rintro ⟨before, after, split, applies, skipped⟩
    refine ⟨appliesTo_iff.mpr applies, before, after, split, fun r hr => ?_⟩
    have no := skipped r hr
    rw [← appliesTo_iff] at no
    simpa using no

theorem choicesFor_of_decides (h : Decides rules p.name rule) :
    choicesFor rules p = rule.offers p := by
  rw [choicesFor, ruleFor?_eq_some_iff.mpr h]
  rfl

theorem choicesFor_eq_nil (h : ∀ rule, Decides rules p.name rule → rule.offers p = []) :
    choicesFor rules p = [] := by
  cases found : ruleFor? rules p.name with
  | none => rw [choicesFor, found]
  | some rule =>
    have decides := ruleFor?_eq_some_iff.mp found
    rw [choicesFor_of_decides decides, h rule decides]

def Reply.lines : Reply → List String
  | .line text => [text]
  | _ => []

/-- Collecting the parameter shows a text and one prompt, and makes of a line what `gives` says. -/
structure PutsOneQuestion (rules : List ChoiceRule) (p : Parameter) (c : Console)
    (shown prompt : String) (gives : String → Except ParameterError Argument) : Prop where
  asks : (collect rules p c).2.exchanges =
    c.exchanges ++ [⟨c.out ++ Text.utf8 shown, prompt, c.reply⟩]
  silent : (collect rules p c).2.out = []
  uses : c.answers = c.reply.lines ++ (collect rules p c).2.answers
  answered : ∀ line, c.reply = .line line →
    (collect rules p c).1 = (gives line).mapError .parameter
  closed : c.reply = .closed →
    (collect rules p c).1 = .error (.parameter (.inputClosed p.name))
  failed : c.reply = .failed → (collect rules p c).1 = .error (.console .inputGone)

/-- A parameter is asked for by one text and one prompt. -/
theorem putsOneQuestion {q : Question} (hq : Question.ofParameter rules p = q)
    (h : c.Takes (q.introduction p)) :
    PutsOneQuestion rules p c (q.introduction p) (q.prompt p) fun line => q.interpret p line := by
  obtain ⟨room, collected⟩ := collect_of_takes hq h
  constructor
  · rw [collected]
    cases c.reply <;> rfl
  · rw [collected]
    cases c.reply <;> rfl
  · rw [collected]
    unfold Console.reply
    split
    · rfl
    · cases c.answers <;> rfl
  · intro line got
    rw [collected, got]
  · intro got
    rw [collected, got]
  · intro got
    rw [collected, got]

/-- A line stands for the choice whose number it spells, the first one having the number one.
Numbers are machine words, so a numeral of `2 ^ 64` or more stands for no choice. -/
structure TakesNumbers (p : Parameter) (choices : List Choice)
    (gives : String → Except ParameterError Argument) : Prop where
  picks : ∀ line k choice, Spells (Text.trim line.toList) (k + 1) → k + 1 < 2 ^ 64 →
    choices[k]? = some choice →
    gives line = convert p choice.value ∧ ∃ a, convert p choice.value = .ok a
  refuses : ∀ line, (∀ k, Spells (Text.trim line.toList) (k + 1) → k + 1 < 2 ^ 64 →
    choices.length ≤ k) → gives line = .error (.invalidChoice p.name line)
  errors : ∀ line e, gives line = .error e → e = .invalidChoice p.name line

/-- A choice is picked by the numeral of its position. -/
theorem picked?_eq_some_iff {choices : List Choice} {line : String} {choice : Choice} :
    Question.picked? choices line = some choice ↔
      ∃ k, Spells (Text.trim line.toList) (k + 1) ∧ k + 1 < 2 ^ 64 ∧ choices[k]? = some choice := by
  unfold Question.picked?
  constructor
  · intro picked
    split at picked
    · next k number =>
      obtain ⟨spelled, word⟩ := Text.naturalOfWidth?_eq_some_iff.mp number
      exact ⟨k, spelled, word, picked⟩
    · cases picked
  · rintro ⟨k, spelled, word, at_k⟩
    rw [Text.naturalOfWidth?_eq_some_iff.mpr ⟨spelled, word⟩]
    exact at_k

theorem takesNumbers_offers :
    TakesNumbers p (rule.offers p)
      fun line => (Question.pick (rule.offers p)).interpret p line := by
  have picks : ∀ line k choice, Spells (Text.trim line.toList) (k + 1) → k + 1 < 2 ^ 64 →
      (rule.offers p)[k]? = some choice →
      (Question.pick (rule.offers p)).interpret p line = convert p choice.value ∧
        ∃ a, convert p choice.value = .ok a := by
    intro line k choice spelled word at_k
    rw [Question.interpret, picked?_eq_some_iff.mpr ⟨k, spelled, word, at_k⟩]
    have offered : choice ∈ rule.offers p := List.mem_of_getElem? at_k
    exact ⟨rfl, Choice.exists_convert (List.mem_filter.mp offered).2⟩
  have cases_line : ∀ line, (∃ k choice, Spells (Text.trim line.toList) (k + 1) ∧ k + 1 < 2 ^ 64 ∧
      (rule.offers p)[k]? = some choice) ∨
      (Question.pick (rule.offers p)).interpret p line = .error (.invalidChoice p.name line) := by
    intro line
    cases picked : Question.picked? (rule.offers p) line with
    | some choice =>
      obtain ⟨k, read⟩ := picked?_eq_some_iff.mp picked
      exact .inl ⟨k, choice, read⟩
    | none =>
      rw [Question.interpret, picked]
      exact .inr rfl
  refine ⟨picks, ?_, ?_⟩
  · intro line none
    rcases cases_line line with ⟨k, choice, spelled, word, at_k⟩ | refused
    · obtain ⟨within, -⟩ := List.getElem?_eq_some_iff.mp at_k
      have beyond := none k spelled word
      omega
    · exact refused
  · intro line e given
    rcases cases_line line with ⟨k, choice, spelled, word, at_k⟩ | refused
    · obtain ⟨same, a, fits⟩ := picks line k choice spelled word at_k
      rw [given, fits] at same
      cases same
    · rw [given] at refused
      exact Except.error.inj refused

/-- If the first rule that applies to the name of a parameter has choices that fit, these are shown
with their numbers and the answer is a number; in every other case the prompt alone is shown and the
answer is converted. -/
theorem collect_puts_one_question (rules : List ChoiceRule) (p : Parameter) (c : Console) :
    (∀ rule, Decides rules p.name rule → rule.offers p ≠ [] →
      c.Takes (numberedList p (rule.offers p)) →
      ∃ gives, TakesNumbers p (rule.offers p) gives ∧
        PutsOneQuestion rules p c (numberedList p (rule.offers p))
          s!"Choice [1-{(rule.offers p).length}]: " gives) ∧
    ((∀ rule, Decides rules p.name rule → rule.offers p = []) →
      PutsOneQuestion rules p c "" s!"{p.name} ({p.declaredType}): " (convert p)) := by
  constructor
  · intro rule decides offered room
    have choices := choicesFor_of_decides decides
    have question : Question.ofParameter rules p = .pick (rule.offers p) := by
      rw [ofParameter_of_ne_nil (by rwa [choices]), choices]
    have shown : (Question.pick (rule.offers p)).introduction p =
        numberedList p (rule.offers p) := by
      rw [Question.introduction, choiceLines_eq, numberedList]
    have asked := putsOneQuestion (c := c) question (by rwa [shown])
    rw [shown] at asked
    exact ⟨_, takesNumbers_offers, asked⟩
  · intro none
    exact putsOneQuestion (ofParameter_of_eq_nil (choicesFor_eq_nil none)) c.takes_empty

/-- Of the four choices of the first rule two fit the row and are numbered anew, so `+2` is the
last one. None fits the seat, and it is asked for by name although the second rule has a choice for
it. -/
theorem row_takes_second_choice :
    let rule : ChoiceRule := ⟨"INDEX", [⟨"Seven", "7"⟩, ⟨"One", "1"⟩, ⟨"Many", "x"⟩, ⟨"Two", "2"⟩]⟩
    let rules : List ChoiceRule := [rule, ⟨"seat", [⟨"Five", "5"⟩]⟩]
    let row : Parameter := ⟨"row_index", "Uint<0..3>"⟩
    let seat : Parameter := ⟨"seat_index", "4..6"⟩
    let c := Console.ofAnswers [" +2 ", "6"] (some 100) none
    Decides rules row.name rule ∧ rule.offers row = [⟨"One", "1"⟩, ⟨"Two", "2"⟩] ∧
      (collect rules row c).1 = .ok (.integer 2) ∧ (collect rules row c).2.answers = ["6"] ∧
      (collect rules seat (collect rules row c).2).1 = .ok (.integer 6) := by
  intro rule rules row seat c
  have decides : ∀ name, rule.Applies name → Decides rules name rule := fun name applies =>
    ⟨[], _, rfl, applies, by simp⟩
  have ofRow := decides row.name (by decide +kernel)
  have ofSeat := decides seat.name (by decide +kernel)
  have offered : rule.offers row = [⟨"One", "1"⟩, ⟨"Two", "2"⟩] := by decide +kernel
  have refused : rule.offers seat = [] := by decide +kernel
  obtain ⟨gives, numbers, asked⟩ := (collect_puts_one_question rules row c).1 rule ofRow
    (by simp [offered]) (by rw [offered]; decide +kernel)
  have spelled : Spells (Text.trim " +2 ".toList) 2 :=
    Text.natural?_eq_some_iff.mp (by decide +kernel)
  obtain ⟨two, -⟩ := numbers.picks " +2 " 1 ⟨"Two", "2"⟩ spelled (by decide)
    (by rw [offered]; rfl)
  have given := asked.answered " +2 " rfl
  rw [two] at given
  have none : ∀ r, Decides rules seat.name r → r.offers seat = [] := by
    intro r other
    have same := (ruleFor?_eq_some_iff.mpr other).symm.trans (ruleFor?_eq_some_iff.mpr ofSeat)
    rw [Option.some.inj same, refused]
  have free := ((collect_puts_one_question rules seat (collect rules row c).2).2 none).answered "6"
    (by decide +kernel)
  refine ⟨ofRow, offered, ?_, (List.cons.inj asked.uses).2.symm, ?_⟩
  · rw [given]
    decide +kernel
  · rw [free]
    decide +kernel

end ContractSurface
