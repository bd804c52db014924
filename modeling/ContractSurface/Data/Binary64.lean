/-! # Decimal text of binary64 numbers

A finite number is written with the fewest decimal digits that read back as it: among the decimals
with that many digits, the one nearest to it. All arithmetic is exact, on natural numbers.
-/
namespace ContractSurface.Binary64

/-- A positive number and the numbers that round to it, over one denominator: the value is
`value / den`, and a decimal between `low / den` and `high / den` reads back as it, the two ends
included when `closed`. -/
structure Rounding where
  value : Nat
  low : Nat
  high : Nat
  den : Nat
  closed : Bool

/-- The rounding interval of `significand * 2 ^ exponent`. Below a power of two the numbers lie
twice as close. -/
def Rounding.of (significand : Nat) (exponent : Int) : Rounding :=
  let up := Nat.pow 2 exponent.toNat
  let den := 4 * Nat.pow 2 (-exponent).toNat
  let gap := if significand = Nat.pow 2 52 then 1 else 2
  ⟨4 * significand * up, (4 * significand - gap) * up, (4 * significand + 2) * up, den,
    significand % 2 == 0⟩

def Rounding.readsBack (r : Rounding) (numerator den : Nat) : Bool :=
  let x := numerator * r.den
  let low := r.low * den
  let high := r.high * den
  (low < x && x < high) || (r.closed && (x == low || x == high))

/-- The decimals next to the value on the grid of multiples of `10 ^ scale`, if they read back; the
nearer one when both do. -/
def Rounding.onGrid? (r : Rounding) (scale : Int) : Option Nat :=
  let up := Nat.pow 10 scale.toNat
  let down := Nat.pow 10 (-scale).toNat
  let below := r.value * down / (r.den * up)
  let isBelow := r.readsBack (below * up) down
  let isAbove := r.readsBack ((below + 1) * up) down
  let twice := 2 * (r.value * down)
  let middle := (2 * below + 1) * (r.den * up)
  if isBelow && isAbove then
    some (if twice < middle || (twice == middle && below % 2 == 0) then below else below + 1)
  else if isBelow && below > 0 then some below
  else if isAbove then some (below + 1)
  else none

def Rounding.magnitude (r : Rounding) : Int :=
  if r.den ≤ r.value then ((Nat.toDigits 10 (r.value / r.den)).length : Int)
  else 1 - ((Nat.toDigits 10 ((r.den - 1) / r.value)).length : Int)

def Rounding.search (r : Rounding) (scale : Int) : Nat → Nat × Int
  | 0 => ((r.onGrid? scale).getD 0, scale)
  | finer + 1 =>
    match r.onGrid? scale with
    | some n => (n, scale)
    | none => r.search (scale - 1) finer

def shortest (significand : Nat) (exponent : Int) : List Char × Int :=
  let r := Rounding.of significand exponent
  let (n, scale) := r.search r.magnitude 18
  let digits := Nat.toDigits 10 n
  let kept := (digits.reverse.dropWhile (· == '0')).reverse
  (kept, (digits.length : Int) + scale)

/-- Digits with a point after the first `point` of them: positional from 10^-5 up to 10^16, and
otherwise with an exponent that always has its sign. Whole numbers end in `.0` when positional. -/
def layout (digits : List Char) (point : Int) : List Char :=
  let count : Int := digits.length
  if count ≤ point && point ≤ 16 then
    digits ++ List.replicate (point - count).toNat '0' ++ ['.', '0']
  else if 0 < point && point ≤ 16 then
    digits.take point.toNat ++ '.' :: digits.drop point.toNat
  else if -5 < point && point ≤ 0 then
    '0' :: '.' :: (List.replicate (-point).toNat '0' ++ digits)
  else
    let sign := if point > 0 then ['+'] else []
    let exponent := 'e' :: (sign ++ (toString (point - 1)).toList)
    match digits with
    | [d] => d :: exponent
    | d :: ds => d :: '.' :: (ds ++ exponent)
    | [] => exponent

def text (bits : UInt64) : String :=
  let n : Nat := bits.toNat
  let sign := if n / Nat.pow 2 63 = 1 then ['-'] else []
  let biased : Nat := n / Nat.pow 2 52 % Nat.pow 2 11
  let fraction : Nat := n % Nat.pow 2 52
  if biased = 0 && fraction = 0 then String.ofList (sign ++ ['0', '.', '0'])
  else
    let (digits, point) :=
      if biased = 0 then shortest fraction (-1074)
      else shortest (Nat.pow 2 52 + fraction) ((biased : Int) - 1075)
    String.ofList (sign ++ layout digits point)

end ContractSurface.Binary64
