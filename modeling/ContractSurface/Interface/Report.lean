import ContractSurface.Data.Json.Basic
import ContractSurface.Interface.Basic

/-! # Reports on interfaces

The JSON form of an interface names all that the interface holds. Members stand in the order in
which a reader wants them, the contract first. The summary has a line for each operation and each
state variable.
-/
namespace ContractSurface

def declarationJson (name declaredType : String) : Json :=
  .object [("name", .string name), ("type", .string declaredType)]

def Parameter.json (p : Parameter) : Json := declarationJson p.name p.declaredType

def StateVariable.json (v : StateVariable) : Json := declarationJson v.name v.declaredType

def Operation.json (o : Operation) : Json :=
  .object
    [("name", .string o.name), ("parameters", .array (o.parameters.map Parameter.json)),
     ("returnType", .string o.returnType), ("mutates", .bool o.mutates),
     ("description", .string o.description)]

def Interface.json (i : Interface) : Json :=
  .object
    [("contractName", .string i.contractName),
     ("functions", .array (i.operations.map Operation.json)),
     ("stateVariables", .array (i.stateVariables.map StateVariable.json))]

def Operation.summaryLine (o : Operation) : String :=
  let parameters := ", ".intercalate (o.parameters.map fun p => s!"{p.name}: {p.declaredType}")
  let kind := if o.mutates then "mutation" else "query"
  s!"  {o.name}({parameters}) -> {o.returnType}  [{kind}]\n"

def StateVariable.summaryLine (v : StateVariable) : String := s!"  {v.name}: {v.declaredType}\n"

def Interface.summary (i : Interface) : String :=
  s!"Contract: {i.contractName}\n" ++
    s!"Functions ({i.operations.length}):\n" ++
    String.join (i.operations.map Operation.summaryLine) ++
    s!"State ({i.stateVariables.length}):\n" ++
    String.join (i.stateVariables.map StateVariable.summaryLine)

end ContractSurface
