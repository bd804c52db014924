import ContractSurface.Data.Json.Basic
import ContractSurface.Text.Numeral

/-! # Numbers, strings and words of JSON

A fault says whether the text ends too early, breaks the grammar, or has the wrong shape for its
reader. A number outside the range of binary64 breaks the grammar.
-/
namespace ContractSurface.Json

inductive Fault where
  | endOfText
  | malformed
  | wrongShape
  deriving DecidableEq, Repr

def isSpace (c : Char) : Bool := c == ' ' || c == '\n' || c == '\t' || c == '\r'

def skipSpace (cs : List Char) : List Char := cs.dropWhile isSpace

def readWord : List Char → List Char → Except Fault (Unit × List Char)
  | [], cs => .ok ((), cs)
  | _ :: _, [] => .error .endOfText
  | w :: ws, c :: cs => if w = c then readWord ws cs else .error .malformed

structure NumberText where
  isNegative : Bool
  whole : List Char
  fraction : List Char
  exponentIsNegative : Bool
  exponent : List Char
  deriving Repr

def readDigits (atEnd : Fault) (cs : List Char) : Except Fault (List Char × List Char) :=
  match cs with
  | [] => .error atEnd
  | c :: _ =>
    if c.isDigit then .ok (cs.takeWhile Char.isDigit, cs.dropWhile Char.isDigit)
    else .error .malformed

def readExponent (atEnd : Fault) (cs : List Char) : Except Fault ((Bool × List Char) × List Char) :=
  let signed (negative : Bool) (rest : List Char) :=
    (readDigits atEnd rest).map fun r => ((negative, r.1), r.2)
  match cs with
  | e :: rest =>
    if e = 'e' ∨ e = 'E' then
      match rest with
      | '+' :: ds => signed false ds
      | '-' :: ds => signed true ds
      | ds => signed false ds
    else .ok ((false, []), cs)
  | [] => .ok ((false, []), [])

/-- Reads a number. A leading zero stands alone, and digits follow a point. -/
def readNumber (atEnd : Fault) (cs : List Char) : Except Fault (NumberText × List Char) := do
  let (isNegative, cs) := match cs with
    | '-' :: rest => (true, rest)
    | _ => (false, cs)
  let (whole, cs) ← readDigits atEnd cs
  if whole.length > 1 ∧ whole.head? = some '0' then throw .malformed
  let (fraction, cs) ← match cs with
    | '.' :: rest => readDigits atEnd rest
    | _ => pure ([], cs)
  let (exponent, cs) ← readExponent atEnd cs
  return (⟨isNegative, whole, fraction, exponent.1, exponent.2⟩, cs)

def takeSignificand (significand : Nat) (count : Nat) : List Char → Nat × Nat
  | [] => (significand, count)
  | d :: ds =>
    let next := 10 * significand + Text.digitValue d
    if next < Nat.pow 2 64 then takeSignificand next (count + 1) ds else (significand, count)

def powerOfTen (n : Nat) : Float := Float.ofScientific 1 false n

def divideByPower (f : Float) (n : Nat) : Nat → Float
  | 0 => 0
  | steps + 1 =>
    if n ≤ 308 then f / powerOfTen n
    else if f == 0 then f
    else divideByPower (f / powerOfTen 308) (n - 308) steps

def scaled? (significand : Nat) (scale : Int) : Option Float :=
  let f := (UInt64.ofNat significand).toFloat
  if scale < 0 then some (divideByPower f scale.natAbs 8)
  else if scale ≤ 308 then
    let product := f * powerOfTen scale.toNat
    if product.isInf then none else some product
  else if significand = 0 then some 0
  else none

namespace NumberText

/-- The number as a binary64, unless it is out of range. Digits that the significand has no room
for count for the scale only. -/
def real? (t : NumberText) : Option Float :=
  let (whole, taken) := takeSignificand 0 0 t.whole
  let (significand, places) := takeSignificand whole 0 t.fraction
  let dropped := t.whole.length - taken
  let exponent := Text.decimalValue t.exponent
  if exponent < Nat.pow 2 31 then
    let shift : Int := if t.exponentIsNegative then -exponent else exponent
    scaled? significand ((dropped : Int) - places + shift)
  else if significand = 0 ∨ t.exponentIsNegative then some 0
  else none

def isWhole (t : NumberText) : Bool := t.fraction.isEmpty && t.exponent.isEmpty

/-- The value of the number: exact when it is whole and fits in 64 bits, with a sign if it is
negative, and a binary64 otherwise. -/
def value? (t : NumberText) : Option JsonNumber :=
  let n := Text.decimalValue t.whole
  if t.isWhole && !t.isNegative && n < Nat.pow 2 64 then some (.natural n)
  else if t.isWhole && t.isNegative && 0 < n && n ≤ Nat.pow 2 63 then some (.negative n)
  else t.real?.map fun f => .real (if t.isNegative then -f else f).toBits

end NumberText

/-- The value of four hexadecimal digits. The faults go by bytes: a text with fewer than four of
them left ends too early. -/
def readHexQuad (cs : List Char) : Except Fault (Nat × List Char) :=
  match cs with
  | a :: b :: c :: d :: rest =>
    match [a, b, c, d].mapM fun x => Text.nibble? x.toNat with
    | some ns => .ok (ns.foldl (fun n h => 16 * n + h) 0, rest)
    | none => .error .malformed
  | _ =>
    if (String.ofList cs).utf8ByteSize < 4 then .error .endOfText else .error .malformed

def isHighSurrogate (n : Nat) : Bool := 0xD800 ≤ n && n ≤ 0xDBFF

def isLowSurrogate (n : Nat) : Bool := 0xDC00 ≤ n && n ≤ 0xDFFF

/-- The character of an escape by number; a surrogate must be half of a pair. -/
def readUnicodeEscape (cs : List Char) : Except Fault (Char × List Char) := do
  let (n, cs) ← readHexQuad cs
  if isLowSurrogate n then throw .malformed
  if !isHighSurrogate n then return (Char.ofNat n, cs)
  match cs with
  | [] => throw .endOfText
  | '\\' :: [] => throw .endOfText
  | '\\' :: 'u' :: rest =>
    let (low, rest) ← readHexQuad rest
    if isLowSurrogate low then
      return (Char.ofNat ((n - 0xD800) * 0x400 + (low - 0xDC00) + 0x10000), rest)
    else throw .malformed
  | _ => throw .malformed

def shortEscape? : Char → Option Char
  | '"' => some '"'
  | '\\' => some '\\'
  | '/' => some '/'
  | 'b' => some '\x08'
  | 'f' => some '\x0c'
  | 'n' => some '\n'
  | 'r' => some '\r'
  | 't' => some '\t'
  | _ => none

def readStringFrom : Nat → List Char → Except Fault (List Char × List Char)
  | 0, _ => .error .endOfText
  | _ + 1, [] => .error .endOfText
  | steps + 1, c :: cs =>
    if c = '"' then .ok ([], cs)
    else if c = '\\' then do
      match cs with
      | [] => throw .endOfText
      | 'u' :: rest =>
        let (x, rest) ← readUnicodeEscape rest
        let (xs, rest) ← readStringFrom steps rest
        return (x :: xs, rest)
      | e :: rest =>
        match shortEscape? e with
        | none => throw .malformed
        | some x =>
          let (xs, rest) ← readStringFrom steps rest
          return (x :: xs, rest)
    else if c.toNat < 32 then .error .malformed
    else do
      let (xs, rest) ← readStringFrom steps cs
      return (c :: xs, rest)

def readString (cs : List Char) : Except Fault (String × List Char) :=
  (readStringFrom (cs.length + 1) cs).map fun r => (String.ofList r.1, r.2)

/-- Passes over a string after its opening quote. Escapes are checked, but surrogates need not be
paired. -/
def skipStringFrom : Nat → List Char → Except Fault (Unit × List Char)
  | 0, _ => .error .endOfText
  | _ + 1, [] => .error .endOfText
  | steps + 1, c :: cs =>
    if c = '"' then .ok ((), cs)
    else if c = '\\' then do
      match cs with
      | [] => throw .endOfText
      | 'u' :: rest =>
        let (_, rest) ← readHexQuad rest
        skipStringFrom steps rest
      | e :: rest =>
        if (shortEscape? e).isNone then throw .malformed
        skipStringFrom steps rest
    else if c.toNat < 32 then .error .malformed
    else skipStringFrom steps cs

def skipString (cs : List Char) : Except Fault (Unit × List Char) :=
  skipStringFrom (cs.length + 1) cs

end ContractSurface.Json
