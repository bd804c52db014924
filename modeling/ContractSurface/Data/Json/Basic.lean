import ContractSurface.Data.Binary64
import ContractSurface.Text.Hex

/-! # JSON values and their text

The members of an object stand in the order of their keys. The compact text has no blanks; the
indented text puts each item on a line of its own, two columns further in than its container.
Only quotes, backslashes and control characters are escaped.
-/
namespace ContractSurface

/-- Whole numbers keep their exact value; any other number is a binary64, given by its bits. -/
inductive JsonNumber where
  | natural (n : Nat)
  | negative (magnitude : Nat)
  | real (bits : UInt64)
  deriving DecidableEq, Repr

inductive Json where
  | null
  | bool (b : Bool)
  | number (n : JsonNumber)
  | string (s : String)
  | array (items : List Json)
  | object (members : List (String × Json))
  deriving Repr, Inhabited

def JsonNumber.text : JsonNumber → String
  | .natural n => toString n
  | .negative n => "-" ++ toString n
  | .real bits => Binary64.text bits

namespace Json

def escapedChar (c : Char) : List Char :=
  if c = '"' then ['\\', '"']
  else if c = '\\' then ['\\', '\\']
  else if c = '\n' then ['\\', 'n']
  else if c = '\r' then ['\\', 'r']
  else if c = '\t' then ['\\', 't']
  else if c.toNat = 8 then ['\\', 'b']
  else if c.toNat = 12 then ['\\', 'f']
  else if c.toNat < 32 then '\\' :: 'u' :: '0' :: '0' :: Text.hexByte c.toNat.toUInt8
  else [c]

def stringText (s : String) : String :=
  String.ofList ('"' :: (s.toList.flatMap escapedChar ++ ['"']))

mutual

def compact : Json → String
  | .null => "null"
  | .bool b => if b then "true" else "false"
  | .number n => n.text
  | .string s => stringText s
  | .array items => "[" ++ compactItems items ++ "]"
  | .object members => "\x7b" ++ compactMembers members ++ "\x7d"

def compactItems : List Json → String
  | [] => ""
  | [j] => compact j
  | j :: k :: rest => compact j ++ "," ++ compactItems (k :: rest)

def compactMembers : List (String × Json) → String
  | [] => ""
  | [(key, j)] => stringText key ++ ":" ++ compact j
  | (key, j) :: m :: rest => stringText key ++ ":" ++ compact j ++ "," ++ compactMembers (m :: rest)

end

def lineBreak (depth : Nat) : String := "\n" ++ String.ofList (List.replicate (2 * depth) ' ')

mutual

def indented (depth : Nat) : Json → String
  | .null => "null"
  | .bool b => if b then "true" else "false"
  | .number n => n.text
  | .string s => stringText s
  | .array items =>
    if items.isEmpty then "[]"
    else "[" ++ indentedItems (depth + 1) items ++ lineBreak depth ++ "]"
  | .object members =>
    if members.isEmpty then "\x7b\x7d"
    else "\x7b" ++ indentedMembers (depth + 1) members ++ lineBreak depth ++ "\x7d"

def indentedItems (depth : Nat) : List Json → String
  | [] => ""
  | [j] => lineBreak depth ++ indented depth j
  | j :: k :: rest => lineBreak depth ++ indented depth j ++ "," ++ indentedItems depth (k :: rest)

def indentedMembers (depth : Nat) : List (String × Json) → String
  | [] => ""
  | [(key, j)] => lineBreak depth ++ stringText key ++ ": " ++ indented depth j
  | (key, j) :: m :: rest =>
    lineBreak depth ++ stringText key ++ ": " ++ indented depth j ++ "," ++
      indentedMembers depth (m :: rest)

end

def insertMember (key : String) (value : Json) : List (String × Json) → List (String × Json)
  | [] => [(key, value)]
  | (k, v) :: rest =>
    if key < k then (key, value) :: (k, v) :: rest
    else if key = k then (key, value) :: rest
    else (k, v) :: insertMember key value rest

/-- The object with the given members; of two members of one key the later one stays. -/
def ofMembers (members : List (String × Json)) : Json :=
  .object (members.foldl (fun sorted m => insertMember m.1 m.2 sorted) [])

def member? (key : String) : Json → Option Json
  | .object members => (members.find? (·.1 == key)).map (·.2)
  | _ => none

end Json

end ContractSurface
