import ContractSurface.Call.Conversion
import ContractSurface.Text.Find

/-! # Choices and questions

A rule offers a closed list of choices for the parameters whose names contain its text. The first
rule that applies to a name decides, and of its choices only those stay whose values the parameter
takes. A parameter without choices is asked for as free text.
-/
namespace ContractSurface

structure Choice where
  label : String
  value : String
  deriving DecidableEq, Repr

structure ChoiceRule where
  nameContains : String
  choices : List Choice
  deriving DecidableEq, Repr

/-- A remark for the failures whose message contains the given text. -/
structure ErrorHint where
  contains : String
  hint : String
  deriving DecidableEq, Repr

structure SessionOptions where
  choiceRules : List ChoiceRule
  errorHints : List ErrorHint
  deriving DecidableEq, Repr

def ChoiceRule.appliesTo (rule : ChoiceRule) (name : String) : Bool :=
  Text.containsIgnoringCase name rule.nameContains

def ruleFor? (rules : List ChoiceRule) (name : String) : Option ChoiceRule :=
  rules.find? (·.appliesTo name)

def Choice.fits (p : Parameter) (c : Choice) : Bool := (convert p c.value).isOk

def choicesFor (rules : List ChoiceRule) (p : Parameter) : List Choice :=
  match ruleFor? rules p.name with
  | some rule => rule.choices.filter (·.fits p)
  | none => []

def hintFor? (hints : List ErrorHint) (message : String) : Option ErrorHint :=
  hints.find? fun h => Text.contains message h.contains

def SessionOptions.standard : SessionOptions where
  choiceRules := [⟨"index",
    [⟨"Option A", "0"⟩, ⟨"Option B", "1"⟩, ⟨"Option C", "2"⟩, ⟨"Option D", "3"⟩]⟩]
  errorHints := [⟨"already",
    "this action is only allowed once and has already been performed."⟩]

inductive Question where
  | free
  | pick (choices : List Choice)
  deriving DecidableEq, Repr

namespace Question

def ofParameter (rules : List ChoiceRule) (p : Parameter) : Question :=
  match choicesFor rules p with
  | [] => .free
  | choices => .pick choices

def choiceLines (number : Nat) : List Choice → List String
  | [] => []
  | c :: cs => s!"  {number}) {c.label}\n" :: choiceLines (number + 1) cs

def introduction (p : Parameter) : Question → String
  | .free => ""
  | .pick choices => s!"Select {p.name}:\n" ++ String.join (choiceLines 1 choices)

def prompt (p : Parameter) : Question → String
  | .free => s!"{p.name} ({p.declaredType}): "
  | .pick choices => s!"Choice [1-{choices.length}]: "

def picked? (choices : List Choice) (line : String) : Option Choice :=
  match Text.naturalOfWidth? 64 (Text.trim line.toList) with
  | some (k + 1) => choices[k]?
  | _ => none

def interpret (p : Parameter) (line : String) : Question → Except ParameterError Argument
  | .free => convert p line
  | .pick choices =>
    match picked? choices line with
    | some c => convert p c.value
    | none => .error (.invalidChoice p.name line)

end Question

end ContractSurface
