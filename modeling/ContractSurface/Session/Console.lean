import ContractSurface.Text.Utf8

/-! # Consoles

A console takes text byte by byte, shows prompts and hands out the lines of its input. The output
may break after a number of bytes and the input at a given prompt. Everything that was shown is
kept, cut into exchanges: the text before a prompt, the prompt, and what came back.
-/
namespace ContractSurface

inductive Reply where
  | line (text : String)
  | closed
  | failed
  deriving DecidableEq, Repr

structure Exchange where
  out : List UInt8
  promptText : String
  reply : Reply
  deriving DecidableEq, Repr

inductive Fault where
  | outputGone
  | inputGone
  deriving DecidableEq, Repr

def Fault.message : Fault → String
  | .outputGone => "output gone"
  | .inputGone => "input gone"

/-- The two sides of a conversation. `room` is the number of bytes that the output still takes, and
`inputFailsAt` the number of the prompt at which the input breaks; `none` stands for never. `asked`
is the prompt that waits for its answer. -/
structure Console where
  answers : List String
  room : Option Nat
  inputFailsAt : Option Nat
  exchanges : List Exchange
  out : List UInt8
  asked : Option String
  deriving DecidableEq, Repr

namespace Console

def ofAnswers (answers : List String) (room inputFailsAt : Option Nat) : Console :=
  ⟨answers, room, inputFailsAt, [], [], none⟩

/-- Writes a text, as much of it as there is room for. -/
def write (c : Console) (text : String) : Except Fault Unit × Console :=
  let bytes := Text.utf8 text
  match c.room with
  | none => (.ok (), { c with out := c.out ++ bytes })
  | some n =>
    (if bytes.length ≤ n then .ok () else .error .outputGone,
      { c with out := c.out ++ bytes.take n, room := some (n - bytes.length) })

def finish (c : Console) (promptText : String) (reply : Reply) : Console :=
  { c with
    exchanges := c.exchanges ++ [⟨c.out, promptText, reply⟩]
    out := []
    asked := none }

def ask (c : Console) (promptText : String) : Except Fault Unit × Console :=
  if c.inputFailsAt = some c.exchanges.length then
    (.error .inputGone, c.finish promptText .failed)
  else (.ok (), { c with asked := some promptText })

def receive (c : Console) : Option String × Console :=
  match c.answers with
  | [] => (none, c.finish (c.asked.getD "") .closed)
  | line :: rest =>
    (some line, { c.finish (c.asked.getD "") (.line line) with answers := rest })

def writeAndAsk (c : Console) (text promptText : String) : Except Fault Unit × Console :=
  match c.write text with
  | (.ok (), c) => c.ask promptText
  | (.error e, c) => (.error e, c)

def transcript (c : Console) : List UInt8 :=
  c.exchanges.flatMap (fun e => e.out ++ Text.utf8 e.promptText) ++ c.out ++
    (c.asked.map Text.utf8).getD []

def written (c : Console) : List UInt8 := c.exchanges.flatMap (·.out) ++ c.out

def prompts (c : Console) : List String := c.exchanges.map (·.promptText)

end Console

end ContractSurface
