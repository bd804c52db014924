import ContractSurface.Shell.Script

/-! # Printing words

Backslashes stand for bytes, given by letter or by number. A format is a text with conversions, each
of which prints the next argument; it is used again for as long as arguments are left that it takes.
Arguments that are missing count as empty.
-/
namespace ContractSurface.Shell

def letterByte? (c : Char) : Option Char :=
  ([('a', '\x07'), ('b', '\x08'), ('t', '\t'), ('n', '\n'), ('v', '\x0b'), ('f', '\x0c'),
    ('r', '\r'), ('e', '\x1b'), ('\\', '\\')] : List (Char × Char)).lookup c

def isOctal (c : Char) : Bool := '0' ≤ c && c ≤ '7'

def octalByte (cs : Raw) : Char × Raw :=
  let digits := (cs.take 3).takeWhile isOctal
  let value := digits.foldl (fun n d => 8 * n + Text.digitValue d) 0
  (Char.ofNat (value % 256), cs.drop digits.length)

/-- The bytes of an escape after its backslash, and the text after it. In a word a zero may stand in
front of the octal digits. -/
def readEscape (isWord : Bool) : Raw → Raw × Raw
  | [] => (['\\'], [])
  | c :: cs =>
    match letterByte? c with
    | some b => ([b], cs)
    | none =>
      if isOctal c then
        let (b, rest) := octalByte (if isWord ∧ c = '0' then cs else c :: cs)
        ([b], rest)
      else if c = '"' ∧ !isWord then (['"'], cs)
      else (['\\', c], cs)

def unescape : Nat → Raw → Raw × Bool
  | 0, _ => ([], false)
  | _ + 1, [] => ([], false)
  | _ + 1, '\\' :: 'c' :: _ => ([], true)
  | steps + 1, '\\' :: cs =>
    let (bytes, rest) := readEscape true cs
    let (text, isCut) := unescape steps rest
    (bytes ++ text, isCut)
  | steps + 1, c :: cs =>
    let (text, isCut) := unescape steps cs
    (c :: text, isCut)

def unescaped (word : Raw) : Raw × Bool := unescape (word.length + 1) word

def echo (words : List Raw) : Raw :=
  let isOpen := words.head? = some ['-', 'n']
  let (text, isCut) := unescaped (List.intercalate [' '] (if isOpen then words.drop 1 else words))
  if isOpen ∨ isCut then text else text ++ ['\n']

def echoPlain (words : List Raw) : Raw :=
  let isOpen := words.head? = some ['-', 'n']
  let text := List.intercalate [' '] (if isOpen then words.drop 1 else words)
  if isOpen then text else text ++ ['\n']

inductive Flaw where
  | noNumber
  /-- It starts with a number and goes on. -/
  | partly
  deriving DecidableEq, Repr

def integerOf (word : Raw) : Int × Option Flaw :=
  let (isNegative, cs) := match word.dropWhile (· == ' ') with
    | '-' :: cs => (true, cs)
    | '+' :: cs => (false, cs)
    | cs => (false, cs)
  let digits := cs.takeWhile Char.isDigit
  let n : Int := Text.decimalValue digits
  (if isNegative then -n else n,
    if word.isEmpty then none
    else if digits.isEmpty then some .noNumber
    else if digits.length < cs.length then some .partly
    else none)

/-- What came of a format so far: the text, the words that are no numbers, and the arguments that
are left. -/
structure Formatting where
  text : Raw
  flaws : List (Raw × Flaw)
  arguments : List Raw
  hasTaken : Bool
  isCut : Bool

namespace Formatting

def put (f : Formatting) (text : Raw) : Formatting := { f with text := f.text ++ text }

def next (f : Formatting) : Raw × Formatting :=
  (f.arguments.headD [], { f with arguments := f.arguments.drop 1, hasTaken := true })

def nextInteger (f : Formatting) : Int × Formatting :=
  let (word, f) := f.next
  let (n, flaw) := integerOf word
  (n, { f with flaws := f.flaws ++ (flaw.map fun flaw => (word, flaw)).toList })

def convert? (f : Formatting) : Char → Option Formatting
  | 's' =>
    let (word, f) := f.next
    some (f.put word)
  | 'b' =>
    let (word, f) := f.next
    let (text, isCut) := unescaped word
    some { f.put text with isCut }
  | 'd' =>
    let (n, f) := f.nextInteger
    some (f.put (toString n).toList)
  | _ => none

def once : Nat → Raw → Formatting → Formatting × Option Raw
  | 0, _, f => (f, none)
  | _ + 1, [], f => (f, none)
  | steps + 1, '%' :: '%' :: cs, f => once steps cs (f.put ['%'])
  | _ + 1, ['%'], f => (f, some ['%'])
  | steps + 1, '%' :: letter :: cs, f =>
    match f.convert? letter with
    | some f => if f.isCut then (f, none) else once steps cs f
    | none => (f, some ['%', letter])
  | steps + 1, '\\' :: cs, f =>
    let (bytes, rest) := readEscape false cs
    once steps rest (f.put bytes)
  | steps + 1, c :: cs, f => once steps cs (f.put [c])

def all (format : Raw) : Nat → Formatting → Formatting × Option Raw
  | 0, f => (f, none)
  | rounds + 1, f =>
    match once (format.length + 1) format { f with hasTaken := false } with
    | (f, some directive) => (f, some directive)
    | (f, none) =>
      if f.hasTaken ∧ f.arguments ≠ [] ∧ !f.isCut then all format rounds f else (f, none)

end Formatting

def formatted (format : Raw) (arguments : List Raw) : Formatting × Option Raw :=
  Formatting.all format (arguments.length + 1) ⟨[], [], arguments, false, false⟩

end ContractSurface.Shell
