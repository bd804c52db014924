import ContractSurface.Text.Find

/-! # Words of a command line

A command has switches, which may stand anywhere, and places, which are filled in order. A switch
with a value takes it after an equals sign or as the next word. What was given to a switch or a
place is accepted when the next thing is given or when the words end, so that of two mistakes the
one is told that comes to light first. After two dashes every word fills a place.
-/
namespace ContractSurface.CommandLine

inductive Notice where
  | helpWanted
  | versionWanted
  | nothingGiven
  | missingArgument
  | missingCommand
  | unknownArgument
  | unknownCommand
  | invalidValue
  | tooManyValues
  | repeated
  deriving DecidableEq, Repr

inductive Kind where
  | nothing
  | text
  | path
  | help
  | version
  deriving DecidableEq, Repr

structure Switch where
  name : String
  letter : Option Char
  kind : Kind
  deriving DecidableEq, Repr

/-- What may follow a word. `inner` lists the commands that may come after the switches. -/
structure Command where
  switches : List Switch
  places : List String
  inner : List String
  deriving DecidableEq, Repr

structure Given where
  values : List (String × String)
  waiting : Option (String × Kind × List String)
  deriving DecidableEq, Repr

namespace Given

def empty : Given := ⟨[], none⟩

def value? (g : Given) (name : String) : Option String := g.values.lookup name

def accept (g : Given) (name : String) (kind : Kind) (words : List String) : Except Notice Given :=
  if kind ≠ .nothing ∧ words = [] then .error .invalidValue
  else if (g.value? name).isSome then .error .repeated
  else if kind = .path ∧ words = [""] then .error .invalidValue
  else .ok { g with values := g.values ++ [(name, words.headD "")] }

def settle (g : Given) : Except Notice Given :=
  match g.waiting with
  | none => .ok g
  | some (name, kind, words) => { g with waiting := none }.accept name kind words

/-- Gives a switch, with the value attached to it. The answer says whether the next word may be its
value. -/
def giveSwitch (g : Given) (s : Switch) (attached : Option String) :
    Except Notice (Given × Bool) := do
  match s.kind, attached with
  | .help, none => let _ ← g.settle; throw .helpWanted
  | .version, none => let _ ← g.settle; throw .versionWanted
  | .nothing, none => return (← (← g.settle).accept s.name .nothing [], false)
  | .text, none | .path, none =>
    return ({ ← g.settle with waiting := some (s.name, s.kind, []) }, true)
  | .text, some value | .path, some value =>
    return (← (← g.settle).accept s.name s.kind [value], false)
  | _, some _ => throw .tooManyValues

/-- Gives switches by letter, in a row. Letters stand for switches without a value. -/
def giveLetters (c : Command) (g : Given) : List Char → Except Notice Given
  | [] => .ok g
  | letter :: letters =>
    match c.switches.find? (·.letter == some letter) with
    | none => .error .unknownArgument
    | some s =>
      match g.giveSwitch s none with
      | .ok (g, _) => giveLetters c g letters
      | .error notice => .error notice

def giveWord (g : Given) (word : String) : Given :=
  { g with waiting := g.waiting.map fun w => (w.1, w.2.1, w.2.2 ++ [word]) }

def givePlace (c : Command) (dashed : Bool) (word : String) :
    Given × List String → Except Notice (Given × List String)
  | (g, place :: free) => do
    return ({ ← g.settle with waiting := some (place, .path, [word]) }, free)
  | (_, []) =>
    if c.inner = [] ∨ (dashed ∧ word ∈ c.inner) then .error .unknownArgument
    else .error .unknownCommand

end Given

inductive Shape where
  | dashes
  | long (name : String) (attached : Option String)
  | letters (cs : List Char)
  | plain
  deriving DecidableEq, Repr

def shapeOf (word : String) : Shape :=
  match word.toList with
  | ['-', '-'] => .dashes
  | '-' :: '-' :: cs =>
    let name := String.ofList (cs.takeWhile (· != '='))
    match cs.dropWhile (· != '=') with
    | [] => .long name none
    | _ :: value => .long name (some (String.ofList value))
  | '-' :: c :: cs => .letters (c :: cs)
  | _ => .plain

abbrev Inner := Option (String × List String)

namespace Command

/-- Reads the words of a command up to the name of an inner one. `free` lists the places that are
not filled, and `awaits` says that the next word may be the value of a switch. -/
def readFrom (c : Command) (g : Given) (free : List String) (awaits : Bool) :
    List String → Except Notice (Given × Inner)
  | [] => .ok (g, none)
  | word :: words =>
    if !awaits && c.inner.contains word then .ok (g, some (word, words))
    else
      match shapeOf word with
      | .dashes => do
        let (g, _) ← words.foldlM (fun state w => Given.givePlace c true w state) (g, free)
        return (g, none)
      | .long name attached =>
        match c.switches.find? (·.name == name) with
        | none => .error .unknownArgument
        | some s => do
          let (g, awaits) ← g.giveSwitch s attached
          readFrom c g free awaits words
      | .letters cs => do readFrom c (← g.giveLetters c cs) free false words
      | .plain =>
        if awaits then readFrom c (g.giveWord word) free false words
        else do
          let (g, free) ← Given.givePlace c false word (g, free)
          readFrom c g free false words

def read (c : Command) (words : List String) : Except Notice (Given × Inner) :=
  c.readFrom .empty c.places false words

end Command

end ContractSurface.CommandLine
