/-! # UTF-8

Text as bytes, and bytes as text. A decoder takes one character at a time; where the bytes are
ill-formed it drops the longest beginning of a character that is there, or else one byte. Strict
reading refuses ill-formed bytes, and forgiving reading shows each such piece as U+FFFD.
-/
namespace ContractSurface.Text

def utf8 (s : String) : List UInt8 := s.toList.flatMap String.utf8EncodeChar

/-- How many bytes follow the first byte of a character, the value of its own bits, and the range
of the second byte. -/
def leadByte? (b : Nat) : Option (Nat × Nat × Nat × Nat) :=
  if b < 0x80 then some (0, b, 0x80, 0xBF)
  else if 0xC2 ≤ b && b ≤ 0xDF then some (1, b - 0xC0, 0x80, 0xBF)
  else if b == 0xE0 then some (2, 0, 0xA0, 0xBF)
  else if b == 0xED then some (2, 0xD, 0x80, 0x9F)
  else if 0xE1 ≤ b && b ≤ 0xEF then some (2, b - 0xE0, 0x80, 0xBF)
  else if b == 0xF0 then some (3, 0, 0x90, 0xBF)
  else if b == 0xF4 then some (3, 4, 0x80, 0x8F)
  else if 0xF1 ≤ b && b ≤ 0xF3 then some (3, b - 0xF0, 0x80, 0xBF)
  else none

/-- Reads the given number of continuation bytes after the bits `value`, the first within `low` and
`high`. The number of bytes taken comes with the code point, or alone when the sequence breaks
off. -/
def continuation (value low high taken : Nat) : Nat → List UInt8 → Nat × Option Nat
  | 0, _ => (taken, some value)
  | _ + 1, [] => (taken, none)
  | count + 1, b :: bs =>
    if low ≤ b.toNat && b.toNat ≤ high then
      continuation (value * 64 + (b.toNat - 0x80)) 0x80 0xBF (taken + 1) count bs
    else (taken, none)

/-- The characters of a byte list, `none` for each ill-formed piece. -/
def decodePieces : List UInt8 → List (Option Char)
  | [] => []
  | b :: bs =>
    match leadByte? b.toNat with
    | none => none :: decodePieces bs
    | some (count, value, low, high) =>
      let piece := continuation value low high 0 count bs
      piece.2.map Char.ofNat :: decodePieces (bs.drop piece.1)
termination_by bytes => bytes.length
decreasing_by all_goals simp only [List.length_cons, List.length_drop]; omega

def decodeUtf8? (bytes : List UInt8) : Option String :=
  ((decodePieces bytes).mapM id).map String.ofList

def decodeForgiving (bytes : List UInt8) : String :=
  String.ofList ((decodePieces bytes).map fun c => c.getD '\uFFFD')

end ContractSurface.Text
