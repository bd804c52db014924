import ContractSurface.Call.Capabilities

/-! # Contracts that take calls

A contract takes transactions and queries by name and answers them; a dry run is one such contract.
What a table of capabilities passes on does not depend on which contract it is.
-/
namespace ContractSurface

structure Binding (σ : Type) where
  callTx : σ → String → List Argument → Except InvocationError TransactionData × σ
  query : σ → String → List Argument → Except InvocationError Json × σ

variable {σ : Type}

namespace Binding

def dryRun : Binding DryRun := ⟨DryRun.callTx, DryRun.query⟩

/-- The contract with a record of every call that reaches it, taken or not. -/
def recorded (b : Binding σ) : Binding (σ × List RecordedCall) where
  callTx s name arguments :=
    let (result, after) := b.callTx s.1 name arguments
    (result, after, s.2 ++ [⟨name, arguments, true⟩])
  query s name arguments :=
    let (result, after) := b.query s.1 name arguments
    (result, after, s.2 ++ [⟨name, arguments, false⟩])

end Binding

namespace Capabilities

def invokeOn (table : Capabilities) (b : Binding σ) (s : σ) (name : String)
    (arguments : List Argument) : Except InvocationError CallOutcome × σ :=
  match table.lookup name with
  | none => (.error (.unsupported name), s)
  | some true =>
    let (result, s) := b.callTx s name arguments
    (result.map fun t => .receipt (.ofTransaction t), s)
  | some false =>
    let (result, s) := b.query s name arguments
    (result.map .value, s)

theorem invoke_eq_invokeOn (table : Capabilities) (name : String) (arguments : List Argument)
    (d : DryRun) : table.invoke name arguments d = table.invokeOn .dryRun d name arguments := rfl

end Capabilities

end ContractSurface
