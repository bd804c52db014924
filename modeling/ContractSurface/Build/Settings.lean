import ContractSurface.Files.Path

/-! # Build settings

Where a build finds the contract, which commands it runs, and how long it rests. An empty command
turns its step off.
-/
namespace ContractSurface

structure BuildSettings where
  contractDir : Path
  source : Option Path
  compiler : List String
  compilerOutput : Path
  contractBuild : List String
  cliDir : Path
  cliBuild : List String
  debounceMs : Nat
  deriving DecidableEq, Repr

def BuildSettings.standard : BuildSettings where
  contractDir := "contract"
  source := none
  compiler := ["compactc"]
  compilerOutput := "contract/src/managed"
  contractBuild := ["npm", "run", "build"]
  cliDir := "cli"
  cliBuild := ["npm", "run", "build"]
  debounceMs := 2000

/-- The directory in which changes are looked for: that of the source, if one is set and has one. -/
def BuildSettings.watchRoot (b : BuildSettings) : Path :=
  match b.source.bind Path.parent? with
  | some directory => if directory = "" then b.contractDir else directory
  | none => b.contractDir

inductive ChangeKind where
  | any
  | access
  | create
  | modify
  | remove
  | other
  deriving DecidableEq, Repr

/-- A change calls for a build when it makes, alters or removes a contract source. -/
def isRelevantChange (kind : ChangeKind) (paths : List Path) : Bool :=
  [.create, .modify, .remove].contains kind && paths.any isContractSource

end ContractSurface
