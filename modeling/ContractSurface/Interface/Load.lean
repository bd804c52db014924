import ContractSurface.Files.Store
import ContractSurface.Interface.Analyze

/-! # Interfaces of source files

The contract is named after the file; a path that ends in no name gives none.
-/
namespace ContractSurface

def Interface.load (files : FileStore) (path : Path) : Except UnreadableFile Interface :=
  (files.load path).map fun source => analyze source (path.fileName?.getD "")

end ContractSurface
