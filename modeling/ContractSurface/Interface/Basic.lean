/-! # The interface of a contract

What a caller of a contract can see: its operations, each a query or a mutation, and the variables
of its ledger. Names and types are kept as they are written.
-/
namespace ContractSurface

structure Parameter where
  name : String
  declaredType : String
  deriving DecidableEq, Repr, Inhabited

structure StateVariable where
  name : String
  declaredType : String
  deriving DecidableEq, Repr, Inhabited

structure Operation where
  name : String
  parameters : List Parameter
  returnType : String
  mutates : Bool
  description : String
  deriving DecidableEq, Repr, Inhabited

structure Interface where
  contractName : String
  operations : List Operation
  stateVariables : List StateVariable
  deriving DecidableEq, Repr, Inhabited

namespace Interface

def operation? (i : Interface) (name : String) : Option Operation :=
  i.operations.find? (·.name == name)

def operationIndex? (i : Interface) (name : String) : Option Nat :=
  i.operations.findIdx? (·.name == name)

def isEmpty (i : Interface) : Bool := i.operations.isEmpty && i.stateVariables.isEmpty

end Interface

def voidType : String := "[]"

end ContractSurface
