import ContractSurface.Call.Argument
import ContractSurface.Interface.DeclaredType
import ContractSurface.Text.Utf8

/-! # From answers to argument values

A line of text is converted by the declared type of the parameter it answers. Blanks around the
line count only where the text itself is the value.
-/
namespace ContractSurface

inductive ParameterError where
  | notAnInteger (name input : String)
  | outOfRange (name : String) (range : IntegerRange) (value : Nat)
  | notABoolean (name input : String)
  | invalidHex (name : String) (reason : Text.HexError)
  | invalidChoice (name input : String)
  | inputClosed (name : String)
  deriving DecidableEq, Repr

/-- A digit that was refused is shown as the character of its byte. -/
def hexErrorMessage : Text.HexError → String
  | .oddLength => "Odd number of digits"
  | .notADigit byte position =>
    s!"Invalid character {Text.quotedSingle (Char.ofNat byte.toNat)} at position {position}"

def ParameterError.message : ParameterError → String
  | .notAnInteger name input => s!"`{name}` expects an integer, got `{input}`"
  | .outOfRange name range value => s!"`{name}` must be within {range.text}, got {value}"
  | .notABoolean name input => s!"`{name}` expects yes/no, got `{input}`"
  | .invalidHex name reason => s!"`{name}` has invalid hex: {hexErrorMessage reason}"
  | .invalidChoice name input => s!"`{name}`: `{input}` is not one of the listed choices"
  | .inputClosed name => s!"input closed while reading `{name}`"

def truthValue? (word : List Char) : Option Bool :=
  let lowered := String.ofList (word.map Char.toLower)
  if ["true", "yes", "y", "1"].contains lowered then some true
  else if ["false", "no", "n", "0"].contains lowered then some false
  else none

def convertInteger (name : String) (range : IntegerRange) (input : String) :
    Except ParameterError Argument :=
  let digits := Text.trim input.toList
  if Text.isDigits digits then
    let value := Text.decimalValue digits
    if range.contains value then .ok (.integer value) else .error (.outOfRange name range value)
  else .error (.notAnInteger name input)

def convertBoolean (name input : String) : Except ParameterError Argument :=
  match truthValue? (Text.trim input.toList) with
  | some b => .ok (.boolean b)
  | none => .error (.notABoolean name input)

def afterHexMark? : List Char → Option (List Char)
  | '0' :: 'x' :: digits => some digits
  | '0' :: 'X' :: digits => some digits
  | _ => none

/-- Hexadecimal digits after `0x`; any other text gives its own bytes, blanks included. -/
def convertBytes (name input : String) : Except ParameterError Argument :=
  match afterHexMark? (Text.trim input.toList) with
  | some digits =>
    match Text.readHex (digits.flatMap String.utf8EncodeChar) with
    | .ok bytes => .ok (.bytes bytes)
    | .error reason => .error (.invalidHex name reason)
  | none => .ok (.bytes (Text.utf8 input))

def convert (p : Parameter) (input : String) : Except ParameterError Argument :=
  match parameterKind p.declaredType with
  | .integer range => convertInteger p.name range input
  | .boolean => convertBoolean p.name input
  | .bytes => convertBytes p.name input
  | .text => .ok (.text input)

end ContractSurface
