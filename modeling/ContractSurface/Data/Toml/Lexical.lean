import ContractSurface.Data.Toml.Basic
import ContractSurface.Text.Numeral
import ContractSurface.Text.Hex

/-! # Keys, strings, numbers and dates of settings

A text holds no control character except tabs and line ends, and a line ends with a line feed or
with a carriage return and a line feed. Digits may be grouped by single underscores.
-/
namespace ContractSurface.Toml

def isBlank (c : Char) : Bool := c == ' ' || c == '\t'

def isPlain (c : Char) : Bool := c == '\t' || (32 ≤ c.toNat && c.toNat != 127)

def skipBlanks (cs : List Char) : List Char := cs.dropWhile isBlank

def newline? : List Char → Option (List Char)
  | '\n' :: cs => some cs
  | '\r' :: '\n' :: cs => some cs
  | _ => none

def endOfLine? (cs : List Char) : Option (List Char) :=
  let rest := match skipBlanks cs with
    | '#' :: comment => comment.dropWhile isPlain
    | other => other
  if rest.isEmpty then some [] else newline? rest

mutual

def skipLayout : List Char → List Char
  | [] => []
  | '\r' :: '\n' :: cs => skipLayout cs
  | c :: cs =>
    if isBlank c ∨ c = '\n' then skipLayout cs
    else if c = '#' then skipComment cs
    else c :: cs

def skipComment : List Char → List Char
  | [] => []
  | '\r' :: '\n' :: cs => skipLayout cs
  | c :: cs =>
    if c = '\n' then skipLayout cs
    else if isPlain c then skipComment cs
    else c :: cs

end

def afterWord? (word : String) (cs : List Char) : Option (List Char) :=
  if word.toList.isPrefixOf cs then some (cs.drop word.length) else none

def scalar? (n : Nat) : Option Char :=
  if n.isValidChar then some (Char.ofNat n) else none

def readNumberedChar? (count : Nat) (cs : List Char) : Option (Char × List Char) := do
  let digits := cs.take count
  guard (digits.length = count)
  let values ← digits.mapM fun d => Text.nibble? d.toNat
  let c ← scalar? (values.foldl (fun n h => 16 * n + h) 0)
  return (c, cs.drop count)

def readEscape? : List Char → Option (Char × List Char)
  | 'b' :: cs => some ('\x08', cs)
  | 't' :: cs => some ('\t', cs)
  | 'n' :: cs => some ('\n', cs)
  | 'f' :: cs => some ('\x0c', cs)
  | 'r' :: cs => some ('\r', cs)
  | '"' :: cs => some ('"', cs)
  | '\\' :: cs => some ('\\', cs)
  | 'u' :: cs => readNumberedChar? 4 cs
  | 'U' :: cs => readNumberedChar? 8 cs
  | _ => none

def startsEscape (quote c : Char) : Bool := quote == '"' && c == '\\'

/-- The content of a string on one line, after its opening quote. `steps` is more than the length
of the text. -/
def readLineFrom? (quote : Char) : Nat → List Char → Option (List Char × List Char)
  | 0, _ => none
  | _ + 1, [] => none
  | steps + 1, c :: cs =>
    if c = quote then some ([], cs)
    else do
      let (x, rest) ← if startsEscape quote c then readEscape? cs
        else if isPlain c then some (c, cs) else none
      let (xs, rest) ← readLineFrom? quote steps rest
      return (x :: xs, rest)

def skipBlankLines : List Char → List Char
  | [] => []
  | '\r' :: '\n' :: cs => skipBlankLines cs
  | c :: cs => if isBlank c ∨ c = '\n' then skipBlankLines cs else c :: cs

/-- The text after the blank lines that a backslash at the end of a line drops. -/
def afterContinuation? (cs : List Char) : Option (List Char) :=
  (newline? (skipBlanks cs)).map skipBlankLines

/-- The content of a string between triple quotes. At its end up to two more quotes belong to it. -/
def readBlockFrom? (quote : Char) : Nat → List Char → Option (List Char × List Char)
  | 0, _ => none
  | _ + 1, [] => none
  | steps + 1, c :: cs =>
    if c = quote then
      let quotes := (c :: cs).takeWhile (· = quote)
      let rest := (c :: cs).dropWhile (· = quote)
      if quotes.length < 3 then
        (readBlockFrom? quote steps rest).map fun r => (quotes ++ r.1, r.2)
      else if quotes.length ≤ 5 then some (quotes.drop 3, rest)
      else none
    else if startsEscape quote c then
      match afterContinuation? cs with
      | some rest => readBlockFrom? quote steps rest
      | none => do
        let (x, rest) ← readEscape? cs
        let (xs, rest) ← readBlockFrom? quote steps rest
        return (x :: xs, rest)
    else
      match newline? (c :: cs) with
      | some rest => (readBlockFrom? quote steps rest).map fun r => ('\n' :: r.1, r.2)
      | none =>
        if isPlain c then (readBlockFrom? quote steps cs).map fun r => (c :: r.1, r.2) else none

def isQuote (c : Char) : Bool := c == '"' || c == '\''

def readLine? : List Char → Option (String × List Char)
  | [] => none
  | q :: cs =>
    if isQuote q then
      (readLineFrom? q (cs.length + 1) cs).map fun r => (String.ofList r.1, r.2)
    else none

/-- A string, on one line or in a block. A line end right after the opening of a block is not part
of it. -/
def readString? (cs : List Char) : Option (String × List Char) :=
  match cs with
  | a :: b :: c :: rest =>
    if isQuote a ∧ b = a ∧ c = a then
      let body := (newline? rest).getD rest
      (readBlockFrom? a (body.length + 1) body).map fun r => (String.ofList r.1, r.2)
    else readLine? cs
  | _ => readLine? cs

def isKeyChar (c : Char) : Bool := c.isAlphanum || c == '_' || c == '-'

def readName? (cs : List Char) : Option (String × List Char) :=
  if (cs.head?.any isQuote) then readLine? cs
  else
    let name := cs.takeWhile isKeyChar
    if name.isEmpty then none else some (String.ofList name, cs.dropWhile isKeyChar)

def readParts? : Nat → List Char → Option (List String × List Char)
  | 0, _ => none
  | limit + 1, cs => do
    let (name, rest) ← readName? (skipBlanks cs)
    match skipBlanks rest with
    | '.' :: more =>
      let (names, rest) ← readParts? limit more
      return (name :: names, rest)
    | rest => return ([name], rest)

def readKey? (cs : List Char) : Option (List String × List Char) := readParts? 79 cs

/-- Digits after the first one. An underscore stands between two digits. -/
def readMoreDigits? (isDigit : Char → Bool) : List Char → Option (List Char × List Char)
  | [] => some ([], [])
  | '_' :: d :: cs =>
    if isDigit d then (readMoreDigits? isDigit cs).map fun r => (d :: r.1, r.2) else none
  | c :: cs =>
    if c = '_' then none
    else if isDigit c then (readMoreDigits? isDigit cs).map fun r => (c :: r.1, r.2)
    else some ([], c :: cs)

def readDigits? (isDigit : Char → Bool) : List Char → Option (List Char × List Char)
  | [] => none
  | d :: cs =>
    if isDigit d then (readMoreDigits? isDigit cs).map fun r => (d :: r.1, r.2) else none

def readSign : List Char → Bool × List Char
  | '+' :: cs => (false, cs)
  | '-' :: cs => (true, cs)
  | cs => (false, cs)

/-- The digits in front of a point. A leading zero stands alone. -/
def readWhole? : List Char → Option (List Char × List Char)
  | '0' :: cs => some (['0'], cs)
  | cs => readDigits? Char.isDigit cs

def integer? (isNegative : Bool) (n : Nat) : Option Toml :=
  let value : Int := if isNegative then -n else n
  if -(Int.pow 2 63) ≤ value ∧ value < Int.pow 2 63 then some (.integer value) else none

def hasRadix (radix : Nat) (c : Char) : Bool := (Text.nibble? c.toNat).any (· < radix)

def readRadix? (radix : Nat) (cs : List Char) : Option (Toml × List Char) := do
  let (digits, rest) ← readDigits? (hasRadix radix) cs
  let value := digits.foldl (fun n d => radix * n + (Text.nibble? d.toNat).getD 0) 0
  return (← integer? false value, rest)

def infinityBound : Nat := Nat.pow 2 1024 - Nat.pow 2 970

def isTooLarge (ds : List Char) (scale : Int) : Bool :=
  let n := Text.decimalValue ds
  if n = 0 ∨ (ds.length : Int) + scale < 300 then false
  else if scale < 0 then infinityBound * Nat.pow 10 scale.natAbs ≤ n
  else 309 < scale || infinityBound ≤ n * Nat.pow 10 scale.toNat

def readFraction? : List Char → Option (List Char × List Char)
  | '.' :: cs => readDigits? Char.isDigit cs
  | cs => some ([], cs)

def readExponent? : List Char → Option (Int × List Char)
  | [] => some (0, [])
  | e :: cs =>
    if e = 'e' ∨ e = 'E' then do
      let (isNegative, cs) := readSign cs
      let (digits, rest) ← readDigits? Char.isDigit cs
      let n : Int := Text.decimalValue digits
      return (if isNegative then -n else n, rest)
    else some (0, e :: cs)

def startsReal (cs : List Char) : Bool := cs.head?.any fun c => c == '.' || c == 'e' || c == 'E'

def written (cs rest : List Char) : String := String.ofList (cs.take (cs.length - rest.length))

/-- A decimal integer or a real number. A real number is not too large, but a negative one may be
too small. -/
def readDecimal? (cs : List Char) : Option (Toml × List Char) := do
  let (isNegative, unsigned) := readSign cs
  if let some rest := afterWord? "inf" unsigned <|> afterWord? "nan" unsigned then
    return (.real (written cs rest), rest)
  let (whole, rest) ← readWhole? unsigned
  if startsReal rest then
    let (fraction, rest) ← readFraction? rest
    let (exponent, rest) ← readExponent? rest
    guard (isNegative ∨ ¬ isTooLarge (whole ++ fraction) (exponent - fraction.length))
    return (.real (written cs rest), rest)
  else
    return (← integer? isNegative (Text.decimalValue whole), rest)

def readNumber? : List Char → Option (Toml × List Char)
  | '0' :: 'x' :: cs => readRadix? 16 cs
  | '0' :: 'o' :: cs => readRadix? 8 cs
  | '0' :: 'b' :: cs => readRadix? 2 cs
  | cs => readDecimal? cs

def readTwo? (least most : Nat) : List Char → Option (Nat × List Char)
  | a :: b :: cs =>
    let n := Text.decimalValue [a, b]
    if a.isDigit ∧ b.isDigit ∧ least ≤ n ∧ n ≤ most then some (n, cs) else none
  | _ => none

def readMark? (mark : Char) : List Char → Option (List Char)
  | c :: cs => if c = mark then some cs else none
  | [] => none

def isLeapYear (year : Nat) : Bool := year % 4 == 0 && (year % 100 != 0 || year % 400 == 0)

def daysInMonth (year month : Nat) : Nat :=
  if month = 2 then if isLeapYear year then 29 else 28
  else if [4, 6, 9, 11].contains month then 30
  else 31

def afterDate? (cs : List Char) : Option (List Char) := do
  let year := cs.take 4
  guard (year.length = 4 ∧ year.all Char.isDigit)
  let rest ← readMark? '-' (cs.drop 4)
  let (month, rest) ← readTwo? 1 12 rest
  let rest ← readMark? '-' rest
  let (_, rest) ← readTwo? 1 (daysInMonth (Text.decimalValue year) month) rest
  return rest

def afterTime? (cs : List Char) : Option (List Char) := do
  let (_, rest) ← readTwo? 0 23 cs
  let rest ← readMark? ':' rest
  let (_, rest) ← readTwo? 0 59 rest
  let rest ← readMark? ':' rest
  let (_, rest) ← readTwo? 0 60 rest
  match rest with
  | '.' :: d :: more => return if d.isDigit then more.dropWhile Char.isDigit else rest
  | _ => return rest

def afterOffset? (cs : List Char) : Option (List Char) :=
  match cs with
  | [] => none
  | c :: rest =>
    if c = 'Z' ∨ c = 'z' then some rest
    else if c = '+' ∨ c = '-' then do
      let (_, rest) ← readTwo? 0 23 rest
      let rest ← readMark? ':' rest
      let (_, rest) ← readTwo? 0 59 rest
      return rest
    else none

def afterTimeOfDate? : List Char → Option (List Char)
  | [] => none
  | c :: cs =>
    if c = 'T' ∨ c = 't' ∨ c = ' ' then
      (afterTime? cs).map fun rest => (afterOffset? rest).getD rest
    else none

/-- A date, a time, or both; only both may have a distance from universal time. -/
def readMoment? (cs : List Char) : Option (Toml × List Char) :=
  let rest? := match afterDate? cs with
    | some rest => some ((afterTimeOfDate? rest).getD rest)
    | none => afterTime? cs
  rest?.map fun rest => (.moment (written cs rest), rest)

end ContractSurface.Toml
