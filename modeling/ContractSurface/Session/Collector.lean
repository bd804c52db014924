import ContractSurface.Call.Choice
import ContractSurface.Session.Console

/-! # Collecting a parameter

A parameter is asked for once: the question is put to the console, and its answer is converted.
-/
namespace ContractSurface

inductive CollectError where
  | parameter (e : ParameterError)
  | console (fault : Fault)
  deriving DecidableEq, Repr

def CollectError.message : CollectError → String
  | .parameter e => e.message
  | .console fault => fault.message

def Question.put (p : Parameter) (q : Question) (c : Console) : Except Fault Unit × Console :=
  c.writeAndAsk (q.introduction p) (q.prompt p)

def Question.take (p : Parameter) (q : Question) (c : Console) :
    Except ParameterError Argument × Console :=
  match c.receive with
  | (none, c) => (.error (.inputClosed p.name), c)
  | (some line, c) => (q.interpret p line, c)

def collect (rules : List ChoiceRule) (p : Parameter) (c : Console) :
    Except CollectError Argument × Console :=
  let q := Question.ofParameter rules p
  match q.put p c with
  | (.error fault, c) => (.error (.console fault), c)
  | (.ok (), c) =>
    let (result, c) := q.take p c
    (result.mapError .parameter, c)

end ContractSurface
