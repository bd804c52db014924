/-! # Hexadecimal text

Bytes are written as two lower-case digits each. Reading takes digits of either case; a text of
odd length is refused before any of its digits is looked at, and otherwise the first character
that is no digit is reported with its position.
-/
namespace ContractSurface.Text

def hexDigit (n : Nat) : Char := if n < 10 then Char.ofNat (48 + n) else Char.ofNat (87 + n)

def hexByte (b : UInt8) : List Char := [hexDigit (b.toNat / 16), hexDigit (b.toNat % 16)]

def hexChars (bytes : List UInt8) : List Char := bytes.flatMap hexByte

def hexText (bytes : List UInt8) : String := String.ofList (hexChars bytes)

def hexNumeral (n : Nat) : List Char := Nat.toDigits 16 n

def nibble? (n : Nat) : Option Nat :=
  if 48 ≤ n && n ≤ 57 then some (n - 48)
  else if 97 ≤ n && n ≤ 102 then some (n - 87)
  else if 65 ≤ n && n ≤ 70 then some (n - 55)
  else none

inductive HexError where
  | oddLength
  | notADigit (byte : UInt8) (position : Nat)
  deriving DecidableEq, Repr

def readHexPairs (position : Nat) : List UInt8 → Except HexError (List UInt8)
  | high :: low :: rest =>
    match nibble? high.toNat, nibble? low.toNat with
    | none, _ => .error (.notADigit high position)
    | some _, none => .error (.notADigit low (position + 1))
    | some h, some l =>
      match readHexPairs (position + 2) rest with
      | .ok bytes => .ok (UInt8.ofNat (16 * h + l) :: bytes)
      | .error e => .error e
  | _ => .ok []

def readHex (digits : List UInt8) : Except HexError (List UInt8) :=
  if digits.length % 2 = 1 then .error .oddLength else readHexPairs 0 digits

end ContractSurface.Text
