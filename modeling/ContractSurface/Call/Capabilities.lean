import ContractSurface.Call.Receipt

/-! # Capabilities

The operations of an interface, by name, as they can be invoked on a contract: a mutation as a
transaction, a query as a query. Of two operations of one name the later one counts.
-/
namespace ContractSurface

inductive CallOutcome where
  | receipt (r : Receipt)
  | value (j : Json)

abbrev Capabilities := List (String × Bool)

namespace Capabilities

/-- Enters a name; an earlier entry of the same name gives way. -/
def enter (table : Capabilities) (o : Operation) : Capabilities :=
  (o.name, o.mutates) :: table.filter (·.1 != o.name)

def bind (i : Interface) : Capabilities := i.operations.foldl enter []

def invoke (table : Capabilities) (name : String) (arguments : List Argument) (d : DryRun) :
    Except InvocationError CallOutcome × DryRun :=
  match table.lookup name with
  | none => (.error (.unsupported name), d)
  | some true =>
    let (result, d) := d.callTx name arguments
    (result.map fun t => .receipt (.ofTransaction t), d)
  | some false =>
    let (result, d) := d.query name arguments
    (result.map .value, d)

end Capabilities

end ContractSurface
