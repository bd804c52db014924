import ContractSurface.Files.Store
import ContractSurface.Text.Blank

/-! # External steps

A step is a command that a build hands out, and its reply is what came of it: the exit code and the
output of the command, or the reason why it did not start. A command that a signal ended has no
exit code.
-/
namespace ContractSurface

structure ExternalStep where
  name : String
  program : String
  arguments : List String
  directory : Option Path
  deriving DecidableEq, Repr

namespace ExternalStep

/-- The step that runs a command; an empty command gives none. -/
def ofCommand? (name : String) (command : List String) (directory : Option Path) :
    Option ExternalStep :=
  match command with
  | [] => none
  | program :: arguments => some ⟨name, program, arguments, directory⟩

def withArgument (s : ExternalStep) (argument : String) : ExternalStep :=
  { s with arguments := s.arguments ++ [argument] }

def commandLine (s : ExternalStep) : String := " ".intercalate (s.program :: s.arguments)

end ExternalStep

structure CommandOutput where
  code : Option Int
  stdout : String
  stderr : String
  deriving DecidableEq, Repr

namespace CommandOutput

def succeeded (o : CommandOutput) : Bool := o.code == some 0

/-- Both outputs for a report, without blanks at their ends; one that is blank is left out. -/
def combined (o : CommandOutput) : String :=
  let parts := [Text.endTrimmed o.stdout, Text.endTrimmed o.stderr]
  "\n".intercalate (parts.filter (· != ""))

end CommandOutput

abbrev StepReply := Except String CommandOutput

end ContractSurface
