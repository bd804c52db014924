import ContractSurface.Call.DryRun
import ContractSurface.Data.Json.Reader

/-! # Receipts

A receipt is what a caller keeps of a transaction. The data it is made from may come as JSON: an
object with the member `public`, whose members are `txId` and `blockHeight`, or arrays of just
these values in this order. Members of other names are passed over; a member that is missing or
given twice is a fault of shape, and the fault that comes first in the text is the one reported.
-/
namespace ContractSurface

structure Receipt where
  transactionId : String
  blockHeight : Nat
  deriving DecidableEq, Repr

def Receipt.ofTransaction (t : TransactionData) : Receipt := ⟨t.txId, t.blockHeight⟩

namespace TransactionData
open Json

/-- The fault of a value that stands where another kind of value is wanted: its own grammar comes
first. -/
def wrongValue (cs : List Char) : Fault :=
  match cs with
  | [] => .endOfText
  | '[' :: _ => .wrongShape
  | '\x7b' :: _ => .wrongShape
  | c :: rest =>
    match readScalar c rest with
    | .ok _ => .wrongShape
    | .error e => e

def readText (cs : List Char) : Except Fault (String × List Char) :=
  match skipSpace cs with
  | '"' :: rest => Json.readString rest
  | cs => .error (wrongValue cs)

def readHeight (cs : List Char) : Except Fault (Nat × List Char) :=
  match skipSpace cs with
  | [] => .error .endOfText
  | c :: rest =>
    if c = '-' ∨ c.isDigit then
      match readScalar c rest with
      | .ok (.number (.natural n), rest) => .ok (n, rest)
      | .ok _ => .error .wrongShape
      | .error e => .error e
    else .error (wrongValue (c :: rest))

def nextItem (isFirst : Bool) (cs : List Char) : Except Fault (List Char) :=
  match skipSpace cs with
  | [] => .error .endOfText
  | ']' :: _ => .error .wrongShape
  | ',' :: rest =>
    if isFirst then .ok (',' :: rest)
    else
      match skipSpace rest with
      | [] => .error .endOfText
      | ']' :: _ => .error .malformed
      | more => .ok more
  | cs => if isFirst then .ok cs else .error .malformed

def endArray (cs : List Char) : Except Fault (List Char) :=
  match skipSpace cs with
  | [] => .error .endOfText
  | ']' :: rest => .ok rest
  | _ => .error .malformed

/-- Goes to the next key of an object, after its opening quote; `none` at the end. -/
def nextKey (isFirst : Bool) (cs : List Char) : Except Fault (Option (List Char)) :=
  match skipSpace cs with
  | [] => .error .endOfText
  | '\x7d' :: _ => .ok none
  | '"' :: rest => if isFirst then .ok (some rest) else .error .malformed
  | ',' :: rest =>
    if isFirst then .error .malformed
    else
      match skipSpace rest with
      | [] => .error .endOfText
      | '"' :: more => .ok (some more)
      | _ => .error .malformed
  | _ => .error .malformed

def colon (cs : List Char) : Except Fault (List Char) :=
  match skipSpace cs with
  | [] => .error .endOfText
  | ':' :: rest => .ok rest
  | _ => .error .malformed

def endObject (cs : List Char) : List Char := (skipSpace cs).drop 1

def readInnerMembers (isFirst : Bool) (txId : Option String) (height : Option Nat) :
    Nat → List Char → Except Fault (TransactionData × List Char)
  | 0, _ => .error .endOfText
  | steps + 1, cs => do
    match ← nextKey isFirst cs with
    | none =>
      match txId, height with
      | some t, some h => return (⟨t, h⟩, endObject cs)
      | _, _ => throw .wrongShape
    | some rest =>
      let (key, rest) ← Json.readString rest
      if key = "txId" then
        if txId.isSome then throw .wrongShape
        let (t, rest) ← readText (← colon rest)
        readInnerMembers false (some t) height steps rest
      else if key = "blockHeight" then
        if height.isSome then throw .wrongShape
        let (h, rest) ← readHeight (← colon rest)
        readInnerMembers false txId (some h) steps rest
      else
        let (_, rest) ← skipValue (← colon rest)
        readInnerMembers false txId height steps rest

def readInner (cs : List Char) : Except Fault (TransactionData × List Char) :=
  match skipSpace cs with
  | [] => .error .endOfText
  | '\x7b' :: rest => readInnerMembers true none none (rest.length + 1) rest
  | '[' :: rest => do
    let (t, rest) ← readText (← nextItem true rest)
    let (h, rest) ← readHeight (← nextItem false rest)
    return (⟨t, h⟩, ← endArray rest)
  | cs => .error (wrongValue cs)

def readOuterMembers (isFirst : Bool) (found : Option TransactionData) :
    Nat → List Char → Except Fault (TransactionData × List Char)
  | 0, _ => .error .endOfText
  | steps + 1, cs => do
    match ← nextKey isFirst cs with
    | none =>
      match found with
      | some t => return (t, endObject cs)
      | none => throw .wrongShape
    | some rest =>
      let (key, rest) ← Json.readString rest
      if key = "public" then
        if found.isSome then throw .wrongShape
        let (t, rest) ← readInner (← colon rest)
        readOuterMembers false (some t) steps rest
      else
        let (_, rest) ← skipValue (← colon rest)
        readOuterMembers false found steps rest

def readOuter (cs : List Char) : Except Fault (TransactionData × List Char) :=
  match skipSpace cs with
  | [] => .error .endOfText
  | '\x7b' :: rest => readOuterMembers true none (rest.length + 1) rest
  | '[' :: rest => do
    let (t, rest) ← readInner (← nextItem true rest)
    return (t, ← endArray rest)
  | cs => .error (wrongValue cs)

def ofJsonText (text : String) : Except Fault TransactionData := do
  let (t, rest) ← readOuter text.toList
  endOfDocument rest
  return t

end TransactionData

end ContractSurface
