import ContractSurface.Interface.Classify
import ContractSurface.Text.Numeral

/-! # What a declared type means to a caller

The same spelling is read twice: for the TypeScript type that stands for it, and for the kind of
value a person is asked for. Integer types carry the range of their values.
-/
namespace ContractSurface

structure IntegerRange where
  min : Nat
  max : Option Nat
  deriving DecidableEq, Repr

namespace IntegerRange

def unbounded : IntegerRange := ⟨0, none⟩

def inclusive (min max : Nat) : IntegerRange := ⟨min, some max⟩

def widestWidth : Nat := 256

/-- The unsigned integers of the given width; a width beyond the widest has no bound. -/
def ofWidth (bits : Nat) : IntegerRange :=
  if bits > widestWidth then unbounded else inclusive 0 (Nat.pow 2 bits - 1)

def contains (r : IntegerRange) (v : Nat) : Bool := r.min ≤ v && r.max.all (v ≤ ·)

def text (r : IntegerRange) : String :=
  match r.max with
  | some max => s!"{r.min}..={max}"
  | none => s!"{r.min}.."

end IntegerRange

inductive TargetType where
  | bigInt
  | bytes
  | boolean
  | text
  | void
  | unknown
  deriving DecidableEq, Repr

def TargetType.typeName : TargetType → String
  | .bigInt => "bigint"
  | .bytes => "Uint8Array"
  | .boolean => "boolean"
  | .text => "string"
  | .void => "void"
  | .unknown => "unknown"

inductive ParameterKind where
  | integer (range : IntegerRange)
  | boolean
  | bytes
  | text
  deriving DecidableEq, Repr

/-- Two numerals around the first `..`, each with blanks around it allowed. -/
def bareRange? (cs : List Char) : Option IntegerRange := do
  let (low, high) ← Text.splitAround? ['.', '.'] cs
  let min ← Text.grouped? (Text.trim low)
  let max ← Text.grouped? (Text.trim high)
  return .inclusive min max

/-- The head of a type and the text between its first `<` and its last `>`. A text without such a
pair is all head. -/
def splitGeneric (cs : List Char) : List Char × Option (List Char) :=
  let head := cs.takeWhile (· != '<')
  let inside := (cs.dropWhile (· != '<')).drop 1
  if inside.contains '>' then
    (Text.trim head, some ((inside.reverse.dropWhile (· != '>')).drop 1).reverse)
  else (cs, none)

def targetOfGeneric (cs : List Char) : TargetType :=
  let (head, arguments) := splitGeneric cs
  match String.ofList head with
  | "Uint" => .bigInt
  | "Field" => .bigInt
  | "Counter" => .bigInt
  | "Bytes" => .bytes
  | "Boolean" => .boolean
  | "Opaque" => if arguments = some "\"string\"".toList then .text else .unknown
  | _ => .unknown

def targetType (declared : String) : TargetType :=
  let cs := Text.trim declared.toList
  if isVoid (String.ofList cs) then .void
  else if (bareRange? cs).isSome then .bigInt
  else targetOfGeneric cs

/-- The range that the arguments of `Uint` give: a bare range, or a positive width. -/
def rangeOfArguments (arguments : List Char) : IntegerRange :=
  match bareRange? arguments with
  | some range => range
  | none =>
    match Text.naturalOfWidth? 32 (Text.trim arguments) with
    | some bits => if bits > 0 then .ofWidth bits else .unbounded
    | none => .unbounded

def integerRange (cs : List Char) : IntegerRange :=
  match splitGeneric cs with
  | (head, some arguments) =>
    if String.ofList head = "Uint" then rangeOfArguments arguments else .unbounded
  | (_, none) => .unbounded

def parameterKind (declared : String) : ParameterKind :=
  let cs := Text.trim declared.toList
  match bareRange? cs with
  | some range => .integer range
  | none =>
    match targetType (String.ofList cs) with
    | .bigInt => .integer (integerRange cs)
    | .boolean => .boolean
    | .bytes => .bytes
    | _ => .text

end ContractSurface
