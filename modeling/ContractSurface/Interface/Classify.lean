import ContractSurface.Interface.Basic
import ContractSurface.Text.Blank
import ContractSurface.Text.Find

/-! # Queries and mutations

A circuit is taken for a query when its name says so, that is, when it starts with `get_` or
speaks of a `public_key`, or when it returns something. What is left changes the ledger.
-/
namespace ContractSurface

/-- No result: a blank type or the empty tuple. -/
def isVoid (declaredType : String) : Bool :=
  let t := Text.trim declaredType.toList
  t.isEmpty || t == voidType.toList

def isMutation (name returnType : String) : Bool :=
  if "get_".toList.isPrefixOf name.toList then false
  else if Text.contains name "public_key" then false
  else isVoid returnType

end ContractSurface
