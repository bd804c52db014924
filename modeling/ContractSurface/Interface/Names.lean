import ContractSurface.Text.Find

/-! # Names shown to people and to TypeScript

A contract is named after its file: what stands before the first dot of the last path component,
cut at everything that is no ASCII letter or digit, each part with a capital. An operation is shown
under its words, cut at underscores and hyphens.
-/
namespace ContractSurface

def capitalize : List Char → List Char
  | [] => []
  | c :: cs => c.toUpper :: cs

def capitalizedParts (isCut : Char → Bool) (cs : List Char) : List (List Char) :=
  ((Text.fields isCut cs).filter (!·.isEmpty)).map capitalize

/-- The last component of a path without what follows its first dot. -/
def fileStem (path : List Char) : List Char :=
  let component := (Text.fields (fun c => c == '/' || c == '\\') path).getLastD []
  component.takeWhile (· != '.')

def contractNameOfFile (file : String) : String :=
  let parts := capitalizedParts (fun c => !c.isAlphanum) (fileStem file.toList)
  if parts.isEmpty then "Contract" else String.ofList parts.flatten

def titleCase (name : String) : String :=
  let parts := capitalizedParts (fun c => c == '_' || c == '-') name.toList
  " ".intercalate (parts.map String.ofList)

end ContractSurface
