import ContractSurface.Interface.Names
import ContractSurface.Interface.Classify
import ContractSurface.Source.Declaration

/-! # From declarations to an interface

Each circuit becomes an operation, except that the first circuit of a name hides the later ones.
Ledger fields are taken as they are.
-/
namespace ContractSurface
open Source

/-- The circuits whose names are not among `seen` and do not occur earlier in the list. -/
def firstOfName (seen : List String) : List Circuit → List Circuit
  | [] => []
  | c :: cs =>
    if c.name ∈ seen then firstOfName seen cs else c :: firstOfName (c.name :: seen) cs

/-- The comment lines of a circuit, or a text made from its name when it has none. -/
def describe (c : Circuit) : String :=
  if c.doc.isEmpty then "Execute " ++ c.name else " ".intercalate c.doc

def Operation.ofCircuit (c : Circuit) : Operation :=
  ⟨c.name, c.parameters, c.returnType, isMutation c.name c.returnType, describe c⟩

def Interface.ofDeclarations (d : Declarations) (file : String) : Interface :=
  ⟨contractNameOfFile file, (firstOfName [] d.circuits).map Operation.ofCircuit, d.ledgers⟩

def analyze (source file : String) : Interface := .ofDeclarations (declarations source) file

end ContractSurface
