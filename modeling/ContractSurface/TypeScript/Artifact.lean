import ContractSurface.TypeScript.Api
import ContractSurface.TypeScript.Cli

/-! # Generated files

An interface is turned into two modules, whose places below the output directory are fixed.
-/
namespace ContractSurface.TypeScript

structure Artifact where
  path : String
  contents : String
  deriving DecidableEq, Repr

def apiPath : String := "src/api.ts"

def cliPath : String := "src/cli.ts"

def generate (i : Interface) (options : SessionOptions) : List Artifact :=
  [⟨apiPath, (Api.ofInterface i).text⟩, ⟨cliPath, (Cli.ofInterface i options).text⟩]

end ContractSurface.TypeScript
