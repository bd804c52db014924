import ContractSurface.Call.Binding
import ContractSurface.Proofs.Call.Invocation

/-! # Invocations are calls

To invoke an operation by its name is to call it once, as a transaction if it changes the ledger
and as a query otherwise, whatever contract takes the call. A name that no operation has reaches no
contract.
-/
namespace ContractSurface

variable {σ : Type} {i : Interface}

def Operation.callOn (o : Operation) (b : Binding σ) (s : σ) (arguments : List Argument) :
    Except InvocationError CallOutcome × σ :=
  if o.mutates then
    ((b.callTx s o.name arguments).1.map fun t => .receipt (.ofTransaction t),
      (b.callTx s o.name arguments).2)
  else ((b.query s o.name arguments).1.map .value, (b.query s o.name arguments).2)

theorem Operation.callOn_recorded (o : Operation) (b : Binding σ) (s : σ)
    (log : List RecordedCall) (arguments : List Argument) :
    o.callOn b.recorded (s, log) arguments =
      ((o.callOn b s arguments).1, (o.callOn b s arguments).2,
        log ++ [⟨o.name, arguments, o.mutates⟩]) := by
  unfold callOn
  cases o.mutates <;> rfl

namespace Capabilities

theorem invokeOn_bind (hd : (i.operations.map (·.name)).Nodup) {o : Operation}
    (ho : o ∈ i.operations) (b : Binding σ) (s : σ) (arguments : List Argument) :
    (bind i).invokeOn b s o.name arguments = o.callOn b s arguments := by
  unfold invokeOn Operation.callOn
  rw [lookup_bind hd ho]
  cases o.mutates <;> rfl

/-- A name that the interface lacks does not reach the contract. -/
theorem invokeOn_unknown {name : String} (hn : name ∉ i.operations.map (·.name))
    (b : Binding σ) (s : σ) (arguments : List Argument) :
    (bind i).invokeOn b s name arguments = (.error (.unsupported name), s) := by
  have none : i.operations.reverse.find? (·.name == name) = none := by
    rw [List.find?_eq_none]
    intro o ho same
    exact hn (List.mem_map.mpr ⟨o, List.mem_reverse.mp ho, by simpa using same⟩)
  unfold invokeOn
  rw [bind, lookup_foldl_enter, none]
  rfl

end Capabilities

end ContractSurface
