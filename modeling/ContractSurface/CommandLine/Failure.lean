import ContractSurface.Build.Pipeline
import ContractSurface.Configuration
import ContractSurface.Session.Console

/-! # Failures

What a command reports when it fails: a message, and the causes beneath it, from the nearest one on.
The report gives each cause on lines of its own, and numbers them when there is more than one.
-/
namespace ContractSurface

structure Failure where
  message : String
  causes : List String
  deriving DecidableEq, Repr

namespace Failure

def ofUnreadable (f : UnreadableFile) : Failure := ⟨f.message, [f.cause.message]⟩

def ofConfiguration : ConfigurationError → Failure
  | .unreadable file => ofUnreadable file
  | .malformed path => ⟨(ConfigurationError.malformed path).message, []⟩

def ofPipeline (message : String) (e : PipelineError) : Failure :=
  ⟨message, e.message :: e.cause?.toList⟩

def ofFault (message : String) (fault : Fault) : Failure := ⟨message, [fault.message]⟩

def indented (lead margin text : String) : String :=
  lead ++ ("\n" ++ margin).intercalate (text.splitOn "\n")

/-- The causes with their numbers, which stand right-aligned in five columns. -/
def numbered : Nat → List String → List String
  | _, [] => []
  | n, cause :: causes =>
    let number := toString n
    let lead := "".pushn ' ' (5 - number.length) ++ number ++ ": "
    indented lead "       " cause :: numbered (n + 1) causes

def causeLines : List String → List String
  | [cause] => [indented "    " "    " cause]
  | causes => numbered 0 causes

def report (f : Failure) : String :=
  s!"Error: {f.message}\n" ++
    if f.causes.isEmpty then ""
    else "\nCaused by:\n" ++ String.join ((causeLines f.causes).map (· ++ "\n"))

end Failure

end ContractSurface
