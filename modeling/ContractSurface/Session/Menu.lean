import ContractSurface.Interface.Basic
import ContractSurface.Interface.Names
import ContractSurface.Text.Blank
import ContractSurface.Text.Numeral

/-! # The menu of a session

One numbered entry for each operation, then one that shows the state and one that leaves. An
answer selects the entry whose number it gives.
-/
namespace ContractSurface

inductive MenuAction where
  | invoke (name : String)
  | showState
  | exit
  deriving DecidableEq, Repr

structure MenuItem where
  id : Nat
  label : String
  description : String
  isReadOnly : Bool
  action : MenuAction
  deriving DecidableEq, Repr

def entryLabel (number : Nat) (o : Operation) : String :=
  s!"{number}. {titleCase o.name}({o.parameters.length} params)"

def stateLabel (number : Nat) : String := s!"{number}. Display contract state"

def exitLabel (number : Nat) : String := s!"{number}. Exit"

abbrev Menu := List MenuItem

namespace Menu

def operationItems (number : Nat) : List Operation → Menu
  | [] => []
  | o :: os =>
    ⟨number, entryLabel number o, o.description, !o.mutates, .invoke o.name⟩ ::
      operationItems (number + 1) os

def ofInterface (i : Interface) : Menu :=
  let n := i.operations.length
  operationItems 1 i.operations ++
    [⟨n + 1, stateLabel (n + 1), "Show the current value of every ledger field", true, .showState⟩,
     ⟨n + 2, exitLabel (n + 2), "Leave the session", true, .exit⟩]

def select? (menu : Menu) (line : String) : Option MenuItem :=
  (Text.naturalOfWidth? 64 (Text.trim line.toList)).bind fun k => menu.find? (·.id == k)

end Menu

end ContractSurface
