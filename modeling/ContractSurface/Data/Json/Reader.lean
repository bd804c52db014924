import ContractSurface.Data.Json.Lexical

/-! # Reading JSON

A value is read from the front of a text; a whole text holds one value and blanks. Containers nest
at most 127 deep. Passing over a value checks its grammar and nothing else, at any depth.
-/
namespace ContractSurface.Json

def readScalar (c : Char) (cs : List Char) : Except Fault (Json × List Char) :=
  let constant (j : Json) (r : Except Fault (Unit × List Char)) := r.map fun p => (j, p.2)
  if c = 'n' then constant .null (readWord "ull".toList cs)
  else if c = 't' then constant (.bool true) (readWord "rue".toList cs)
  else if c = 'f' then constant (.bool false) (readWord "alse".toList cs)
  else if c = '"' then (readString cs).map fun r => (.string r.1, r.2)
  else if c = '-' ∨ c.isDigit then do
    let (t, rest) ← readNumber .endOfText (c :: cs)
    match t.value? with
    | some n => return (.number n, rest)
    | none => throw .malformed
  else .error .malformed

def readKey (cs : List Char) : Except Fault (String × List Char) :=
  match cs with
  | [] => .error .endOfText
  | '"' :: rest => do
    let (key, rest) ← readString rest
    match skipSpace rest with
    | [] => throw .endOfText
    | ':' :: rest => return (key, rest)
    | _ => throw .malformed
  | _ => .error .malformed

mutual

/-- Reads a value. `steps` bounds the work and is at least the length of the text; `depth` is the
number of containers that may still be opened. -/
def readValueFrom : Nat → Nat → List Char → Except Fault (Json × List Char)
  | 0, _, _ => .error .endOfText
  | steps + 1, depth, cs =>
    match skipSpace cs with
    | [] => .error .endOfText
    | '[' :: rest =>
      if depth ≤ 1 then .error .malformed
      else
        match skipSpace rest with
        | ']' :: after => .ok (.array [], after)
        | [] => .error .endOfText
        | inside => (readItemsFrom steps (depth - 1) inside).map fun r => (.array r.1, r.2)
    | '\x7b' :: rest =>
      if depth ≤ 1 then .error .malformed
      else
        match skipSpace rest with
        | '\x7d' :: after => .ok (.object [], after)
        | [] => .error .endOfText
        | inside => (readMembersFrom steps (depth - 1) inside).map fun r => (ofMembers r.1, r.2)
    | c :: rest => readScalar c rest

def readItemsFrom : Nat → Nat → List Char → Except Fault (List Json × List Char)
  | 0, _, _ => .error .endOfText
  | steps + 1, depth, cs => do
    let (item, rest) ← readValueFrom steps depth cs
    match skipSpace rest with
    | [] => throw .endOfText
    | ']' :: after => return ([item], after)
    | ',' :: more =>
      let (items, after) ← readItemsFrom steps depth more
      return (item :: items, after)
    | _ => throw .malformed

def readMembersFrom : Nat → Nat → List Char → Except Fault (List (String × Json) × List Char)
  | 0, _, _ => .error .endOfText
  | steps + 1, depth, cs => do
    let (key, rest) ← readKey (skipSpace cs)
    let (value, rest) ← readValueFrom steps depth rest
    match skipSpace rest with
    | [] => throw .endOfText
    | '\x7d' :: after => return ([(key, value)], after)
    | ',' :: more =>
      let (members, after) ← readMembersFrom steps depth more
      return ((key, value) :: members, after)
    | _ => throw .malformed

end

def endOfDocument (cs : List Char) : Except Fault Unit :=
  if (skipSpace cs).isEmpty then .ok () else .error .malformed

def parse (text : String) : Except Fault Json := do
  let cs := text.toList
  let (j, rest) ← readValueFrom (2 * cs.length + 1) 128 cs
  endOfDocument rest
  return j

def skipScalar (c : Char) (cs : List Char) : Except Fault (Unit × List Char) :=
  if c = 'n' then readWord "ull".toList cs
  else if c = 't' then readWord "rue".toList cs
  else if c = 'f' then readWord "alse".toList cs
  else if c = '"' then skipString cs
  else if c = '-' ∨ c.isDigit then (readNumber .malformed (c :: cs)).map fun r => ((), r.2)
  else .error .malformed

def skipKey (cs : List Char) : Except Fault (Unit × List Char) :=
  match skipSpace cs with
  | [] => .error .endOfText
  | '"' :: rest => do
    let (_, rest) ← skipString rest
    match skipSpace rest with
    | [] => throw .endOfText
    | ':' :: rest => return ((), rest)
    | _ => throw .malformed
  | _ => .error .malformed

mutual

def skipValueFrom : Nat → List Char → Except Fault (Unit × List Char)
  | 0, _ => .error .endOfText
  | steps + 1, cs =>
    match skipSpace cs with
    | [] => .error .endOfText
    | '[' :: rest =>
      match skipSpace rest with
      | ']' :: after => .ok ((), after)
      | [] => .error .endOfText
      | inside => skipItemsFrom steps inside
    | '\x7b' :: rest =>
      match skipSpace rest with
      | '\x7d' :: after => .ok ((), after)
      | [] => .error .endOfText
      | inside => skipMembersFrom steps inside
    | c :: rest => skipScalar c rest

def skipItemsFrom : Nat → List Char → Except Fault (Unit × List Char)
  | 0, _ => .error .endOfText
  | steps + 1, cs => do
    let (_, rest) ← skipValueFrom steps cs
    match skipSpace rest with
    | [] => throw .endOfText
    | ']' :: after => return ((), after)
    | ',' :: more => skipItemsFrom steps more
    | _ => throw .malformed

def skipMembersFrom : Nat → List Char → Except Fault (Unit × List Char)
  | 0, _ => .error .endOfText
  | steps + 1, cs => do
    let (_, rest) ← skipKey cs
    let (_, rest) ← skipValueFrom steps rest
    match skipSpace rest with
    | [] => throw .endOfText
    | '\x7d' :: after => return ((), after)
    | ',' :: more => skipMembersFrom steps more
    | _ => throw .malformed

end

def skipValue (cs : List Char) : Except Fault (Unit × List Char) :=
  skipValueFrom (2 * cs.length + 1) cs

end ContractSurface.Json
