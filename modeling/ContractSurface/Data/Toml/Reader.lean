import ContractSurface.Data.Toml.Lexical

/-! # Reading settings

A document is read line by line. Brackets hold items over several lines, with a comma after the
last one or not; braces hold keys and values on one line. Brackets and braces nest less than eighty
deep.
-/
namespace ContractSurface.Toml

def readScalar? (cs : List Char) : Option (Toml × List Char) :=
  match cs with
  | [] => none
  | c :: _ =>
    if isQuote c then (readString? cs).map fun r => (.text r.1, r.2)
    else if c = 't' then (afterWord? "true" cs).map fun rest => (.boolean true, rest)
    else if c = 'f' then (afterWord? "false" cs).map fun rest => (.boolean false, rest)
    else readMoment? cs <|> readNumber? cs

mutual

/-- Reads a value. `steps` bounds the work and is more than twice the length of the text; `depth`
is the number of brackets and braces that may still be opened. -/
def readValue? : Nat → Nat → List Char → Option (Toml × List Char)
  | 0, _, _ => none
  | steps + 1, depth, cs =>
    match cs with
    | '[' :: rest =>
      if depth = 0 then none
      else (readItems? steps (depth - 1) (skipLayout rest)).map fun r => (.list r.1, r.2)
    | '\x7b' :: rest => do
      guard (depth ≠ 0)
      match skipBlanks rest with
      | '\x7d' :: after => return (.table .braces [], after)
      | inside =>
        let (pairs, after) ← readPairs? steps (depth - 1) inside
        return (← ofPairs? pairs, after)
    | _ => readScalar? cs

def readItems? : Nat → Nat → List Char → Option (List Toml × List Char)
  | 0, _, _ => none
  | _ + 1, _, ']' :: after => some ([], after)
  | steps + 1, depth, cs => do
    let (item, rest) ← readValue? steps depth cs
    match skipLayout rest with
    | ']' :: after => return ([item], after)
    | ',' :: more =>
      let (items, after) ← readItems? steps depth (skipLayout more)
      return (item :: items, after)
    | _ => none

def readPairs? : Nat → Nat → List Char → Option (List (List String × Toml) × List Char)
  | 0, _, _ => none
  | steps + 1, depth, cs => do
    let (key, rest) ← readKey? cs
    let rest ← readMark? '=' rest
    let (value, rest) ← readValue? steps depth (skipBlanks rest)
    match skipBlanks rest with
    | '\x7d' :: after => return ([(key, value)], after)
    | ',' :: more =>
      let (pairs, after) ← readPairs? steps depth more
      return ((key, value) :: pairs, after)
    | _ => none

end

def readStatement? (cs : List Char) : Option (Statement × List Char) :=
  match cs with
  | '[' :: '[' :: rest => do
    let (path, rest) ← readKey? rest
    let rest ← afterWord? "]]" rest
    return (.elementHeader path, ← endOfLine? rest)
  | '[' :: rest => do
    let (path, rest) ← readKey? rest
    let rest ← readMark? ']' rest
    return (.header path, ← endOfLine? rest)
  | _ => do
    let (path, rest) ← readKey? cs
    let rest ← readMark? '=' rest
    let (value, rest) ← readValue? (2 * rest.length + 1) 79 (skipBlanks rest)
    return (.setting path value, ← endOfLine? rest)

/-- Reads the statements of a document; lines without one are passed over. `steps` is more than
the length of the text. -/
def readStatements? : Nat → List Char → Option (List Statement)
  | 0, _ => none
  | steps + 1, cs =>
    match skipBlanks cs with
    | [] => some []
    | inside =>
      match endOfLine? inside with
      | some rest => readStatements? steps rest
      | none => do
        let (statement, rest) ← readStatement? inside
        return statement :: (← readStatements? steps rest)

def withoutMark : List Char → List Char
  | '\ufeff' :: cs => cs
  | cs => cs

def parse? (text : String) : Option Entries := do
  let cs := withoutMark text.toList
  ofStatements? (← readStatements? (cs.length + 1) cs)

end ContractSurface.Toml
