import ContractSurface.Text.Numeral
import ContractSurface.Text.Utf8

/-! # Scripts

A script is read line by line. Its commands are rows of words with redirections, joined by pipes, by
`&&` and `||`, in lists and under conditions. A shell works on bytes and does not ask which
characters they spell: a raw text is a list of bytes, each given as the character of its number.
-/
namespace ContractSurface.Shell

abbrev Raw := List Char

namespace Raw

def ofBytes (bs : List UInt8) : Raw := bs.map fun b => Char.ofNat b.toNat

def ofString (s : String) : Raw := ofBytes (Text.utf8 s)

def bytes (r : Raw) : List UInt8 := r.map fun c => UInt8.ofNat c.toNat

def text (r : Raw) : String := Text.decodeForgiving (bytes r)

end Raw

/-- Only the value of a bare parameter is split into fields. -/
inductive Part where
  | text (r : Raw) (isQuoted : Bool)
  | parameter (name : Raw) (isQuoted : Bool)
  deriving DecidableEq, Repr

abbrev Word := List Part

inductive Use where
  | read
  | write
  | append
  | copy
  deriving DecidableEq, Repr

structure Redirection where
  channel : Nat
  use : Use
  target : Word
  deriving DecidableEq, Repr

inductive Command where
  | nothing
  | simple (line : Nat) (assignments : List (Raw × Word)) (words : List Word)
      (redirections : List Redirection)
  | redirected (line : Nat) (c : Command) (redirections : List Redirection)
  | pipe (a b : Command)
  | inverse (c : Command)
  | both (a b : Command)
  | either (a b : Command)
  | sequence (a b : Command)
  | choice (test yes no : Command)
  | subshell (c : Command)
  deriving DecidableEq, Repr

def isNameStart (c : Char) : Bool := c.isAlpha || c == '_'

def isNamePart (c : Char) : Bool := c.isAlphanum || c == '_'

def isName (r : Raw) : Bool := r.head?.any isNameStart && r.all isNamePart

def endsWord (c : Char) : Bool := " \t\n;&|<>()".toList.contains c

def readParameter? : Raw → Option (Raw × Raw)
  | '\x7b' :: cs =>
    let name := cs.takeWhile (· != '\x7d')
    if name.length < cs.length then some (name, cs.drop (name.length + 1)) else none
  | c :: cs =>
    if isNameStart c then some (c :: cs.takeWhile isNamePart, cs.dropWhile isNamePart)
    else if c.isDigit || "#?$@*".toList.contains c then some ([c], cs)
    else none
  | [] => none

/-- The parts of a word and the text after it. `steps` is more than the length of the text. -/
def readParts : Nat → (isQuoted : Bool) → Raw → Except String (Word × Raw)
  | 0, _, cs => .ok ([], cs)
  | _ + 1, isQuoted, [] => if isQuoted then .error "Unterminated quoted string" else .ok ([], [])
  | steps + 1, isQuoted, c :: cs => do
    let go (p : Part) (isQuoted : Bool) (rest : Raw) : Except String (Word × Raw) := do
      let (parts, rest) ← readParts steps isQuoted rest
      return (p :: parts, rest)
    if c = '"' then go (.text [] true) (!isQuoted) cs
    else if c = '\'' ∧ !isQuoted then
      let inside := cs.takeWhile (· != '\'')
      if inside.length = cs.length then .error "Unterminated quoted string"
      else go (.text inside true) false (cs.drop (inside.length + 1))
    else if c = '$' then
      match readParameter? cs with
      | some (name, rest) => go (.parameter name isQuoted) isQuoted rest
      | none => go (.text [c] isQuoted) isQuoted cs
    else if c = '\\' then
      match cs with
      | [] => go (.text [c] true) isQuoted []
      | '\n' :: rest => readParts steps isQuoted rest
      | d :: rest =>
        let keeps := isQuoted && !"\\\x60$\"".toList.contains d
        go (.text (if keeps then [c, d] else [d]) true) isQuoted rest
    else if endsWord c ∧ !isQuoted then .ok ([], c :: cs)
    else go (.text [c] isQuoted) isQuoted cs

/-- The end of the script is the empty mark. A fault stands where the script cannot be read on. -/
inductive Token where
  | word (w : Word)
  | mark (text : String)
  | redirection (channel : Nat) (use : Use)
  | fault (message : String)
  deriving DecidableEq, Repr

def Part.plain? : Part → Option Raw
  | .text r false => some r
  | _ => none

def plainText? (w : Word) : Option Raw := (w.mapM Part.plain?).map List.flatten

def keywords : List String :=
  ["!", "elif", "else", "fi", "if", "then", "\x7b", "\x7d"]

def Token.keyword? : Token → Option String
  | .word w => ((plainText? w).map String.ofList).filter keywords.contains
  | _ => none

def Token.description (t : Token) : String :=
  match t, t.keyword? with
  | _, some text => s!"\"{text}\""
  | .mark "", _ => "end of file"
  | .mark "\n", _ => "newline"
  | .mark text, _ => s!"\"{text}\""
  | .redirection _ _, _ => "redirection"
  | _, _ => "word"

def readRedirection? (cs : Raw) : Option (Token × Raw) :=
  let digits := cs.takeWhile Char.isDigit
  let of (usual : Nat) (use : Use) (rest : Raw) : Option (Token × Raw) :=
    some (.redirection (if digits.isEmpty then usual else Text.decimalValue digits) use, rest)
  match cs.drop digits.length with
  | '>' :: '>' :: rest => of 1 .append rest
  | '>' :: '&' :: rest => of 1 .copy rest
  | '>' :: rest => of 1 .write rest
  | '<' :: '&' :: rest => of 0 .copy rest
  | '<' :: rest => of 0 .read rest
  | _ => none

def readTokens : Nat → (line : Nat) → Raw → List (Nat × Token)
  | 0, _, _ => []
  | _ + 1, line, [] => [(line, .mark "")]
  | steps + 1, line, c :: cs =>
    let go (t : Token) (rest : Raw) : List (Nat × Token) := (line, t) :: readTokens steps line rest
    if c = '\n' then (line, .mark "\n") :: readTokens steps (line + 1) cs
    else if c = ' ' ∨ c = '\t' then readTokens steps line cs
    else if c = '\\' ∧ cs.head? = some '\n' then readTokens steps (line + 1) (cs.drop 1)
    else if c = '#' then readTokens steps line (cs.dropWhile (· != '\n'))
    else if (c = '&' ∨ c = '|' ∨ c = ';') ∧ cs.head? = some c then
      go (.mark (String.ofList [c, c])) (cs.drop 1)
    else if "&|;()".toList.contains c then go (.mark (String.ofList [c])) cs
    else
      match readRedirection? (c :: cs) with
      | some (t, rest) => go t rest
      | none =>
        match readParts (cs.length + 2) false (c :: cs) with
        | .error message => [(line, .fault message)]
        | .ok (w, rest) =>
          let read := (c :: cs).take (cs.length + 1 - rest.length)
          (line, .word w) :: readTokens steps (line + read.countP (· == '\n')) rest

structure Fault where
  line : Nat
  message : String
  deriving DecidableEq, Repr

abbrev Reader := StateT (List (Nat × Token)) (Except Fault)

namespace Reader

def peekPlaced : Reader (Nat × Token) := do
  match ← get with
  | (line, .fault message) :: _ => throw ⟨line, message⟩
  | t :: _ => return t
  | [] => return (1, .mark "")

def peek : Reader Token := do return (← peekPlaced).2

def skip : Reader Unit := modify fun ts => ts.drop 1

def skipLineEnds : Reader Unit := modify fun ts => ts.dropWhile (·.2 == .mark "\n")

def unexpected {α : Type} : Reader α := do
  let (line, t) ← peekPlaced
  throw ⟨line, s!"{t.description} unexpected"⟩

def is (t : Token) (text : String) : Bool := t.keyword? == some text || t == .mark text

def accept (text : String) : Reader Bool := do
  let found := is (← peek) text
  if found then skip
  return found

def demand (text : String) : Reader Unit := do
  let (line, t) ← peekPlaced
  if is t text then skip
  else throw ⟨line, s!"{t.description} unexpected (expecting \"{text}\")"⟩

def redirections : Nat → Reader (List Redirection)
  | 0 => return []
  | steps + 1 => do
    match ← peek with
    | .redirection channel use =>
      skip
      match ← peek with
      | .word target =>
        skip
        return ⟨channel, use, target⟩ :: (← redirections steps)
      | _ => unexpected
    | _ => return []

def assignment? (w : Word) : Option (Raw × Word) :=
  let isPlain (p : Part) : Bool := p.plain?.any (· != ['='])
  match w.dropWhile isPlain, plainText? (w.takeWhile isPlain) with
  | .text ['='] false :: value, some name => if isName name then some (name, value) else none
  | _, _ => none

def simple (line : Nat) : Nat → List (Raw × Word) → List Word → List Redirection → Reader Command
  | 0, assigned, words, rs => return .simple line assigned words rs
  | steps + 1, assigned, words, rs => do
    match ← peek with
    | .word w =>
      skip
      match words, assignment? w with
      | [], some a => simple line steps (assigned ++ [a]) words rs
      | _, _ => simple line steps assigned (words ++ [w]) rs
    | .redirection _ _ => simple line steps assigned words (rs ++ (← redirections (steps + 1)))
    | _ => return .simple line assigned words rs

def closers : List String := ["", "then", "elif", "else", "fi", "\x7d", ")", ";;"]

mutual

def list (isLine : Bool) : Nat → Reader Command
  | 0 => return .nothing
  | steps + 1 => do
    let first ← chain steps none
    let goesOn ← accept ";"
    let t ← peek
    if isLine then
      if t = .mark "\n" ∨ t = .mark "" then return first
      if goesOn then return .sequence first (← list true steps) else unexpected
    else
      skipLineEnds
      if closers.any (is (← peek)) then return first
      if goesOn ∨ t = .mark "\n" then return .sequence first (← list false steps)
      else return first

def chain : Nat → Option (Command → Command) → Reader Command
  | 0, _ => return .nothing
  | steps + 1, join? => do
    let c ← pipeline steps
    let joined := (join?.map (· c)).getD c
    if ← accept "&&" then
      skipLineEnds
      chain steps (some (.both joined))
    else if ← accept "||" then
      skipLineEnds
      chain steps (some (.either joined))
    else return joined

def pipeline : Nat → Reader Command
  | 0 => return .nothing
  | steps + 1 => do
    if ← accept "!" then return .inverse (← pipeline steps)
    let first ← command steps
    if ← accept "|" then
      skipLineEnds
      return .pipe first (← pipeline steps)
    else return first

def part : Nat → Reader Command
  | 0 => return .nothing
  | steps + 1 => do
    skipLineEnds
    if (← peek) = .mark "" then return .nothing else list false steps

def choice : Nat → Reader Command
  | 0 => return .nothing
  | steps + 1 => do
    let test ← part steps
    demand "then"
    let yes ← part steps
    if ← accept "elif" then return .choice test yes (← choice steps)
    let no ← if ← accept "else" then part steps else pure .nothing
    demand "fi"
    return .choice test yes no

def command : Nat → Reader Command
  | 0 => return .nothing
  | steps + 1 => do
    let (line, t) ← peekPlaced
    if ← accept "if" then redirected line (← choice steps)
    else if ← accept "\x7b" then
      let c ← part steps
      demand "\x7d"
      redirected line c
    else if ← accept "(" then
      let c ← part steps
      demand ")"
      redirected line (.subshell c)
    else
      match t, t.keyword? with
      | .redirection _ _, _ => simple line (steps + 1) [] [] []
      | .word _, none => simple line (steps + 1) [] [] []
      | _, _ => unexpected
where
  redirected (line : Nat) (c : Command) : Reader Command := do
    let rs ← redirections (← get).length
    return if rs.isEmpty then c else .redirected line c rs

end

end Reader

def readLines : Nat → List (Nat × Token) → List Command × Option Fault
  | 0, _ => ([], none)
  | steps + 1, ts =>
    match ts.dropWhile (·.2 == .mark "\n") with
    | [] => ([], none)
    | [(_, .mark "")] => ([], none)
    | ts =>
      match (Reader.list true (8 * (ts.length + 1))).run ts with
      | .error fault => ([], some fault)
      | .ok (c, left) =>
        let (cs, fault?) := readLines steps left
        (c :: cs, fault?)

def readScript (script : Raw) : List Command × Option Fault :=
  let ts := readTokens (script.length + 1) 1 script
  readLines ts.length ts

end ContractSurface.Shell
