/-! # Decimal numerals

Three spellings of a natural number: digits alone, digits after an optional plus sign, and the
grouped form, in which underscores may stand after the first digit. Digits are the ASCII ones.
-/
namespace ContractSurface.Text

def digitValue (c : Char) : Nat := c.toNat - '0'.toNat

def decimalValue (ds : List Char) : Nat := ds.foldl (fun n d => 10 * n + digitValue d) 0

def isDigits (cs : List Char) : Bool := !cs.isEmpty && cs.all Char.isDigit

def dropPlus : List Char → List Char
  | '+' :: cs => cs
  | cs => cs

def natural? (cs : List Char) : Option Nat :=
  if isDigits (dropPlus cs) then some (decimalValue (dropPlus cs)) else none

def naturalOfWidth? (width : Nat) (cs : List Char) : Option Nat :=
  (natural? cs).filter (· < Nat.pow 2 width)

/-- An optional plus sign, a digit, and then digits and underscores. -/
def grouped? (cs : List Char) : Option Nat :=
  match dropPlus cs with
  | [] => none
  | d :: ds =>
    if d.isDigit && ds.all (fun c => c.isDigit || c == '_') then
      some (decimalValue ((d :: ds).filter (· != '_')))
    else none

end ContractSurface.Text
