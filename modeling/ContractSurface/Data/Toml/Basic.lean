/-! # Tables of settings

A document is a table of named items, and a table remembers how it came to be, because that decides
what may still be added to it. A key is set once. A dotted key reaches into tables that dotted keys
or the headers of inner tables made, but the table that it sets a key in was made by dotted keys. A
header names a table that no header, key or value has made before.
-/
namespace ContractSurface

inductive TableOrigin where
  /-- By a header of its own. -/
  | header
  /-- By the header of a table inside it. -/
  | implied
  /-- By a dotted key. -/
  | dotted
  /-- By a value in braces, which is complete. -/
  | braces
  deriving DecidableEq, Repr

inductive Toml where
  | text (s : String)
  | integer (n : Int)
  | boolean (b : Bool)
  /-- A real number, as it is written. -/
  | real (written : String)
  /-- A date, a time of day or both, as it is written. -/
  | moment (written : String)
  | list (items : List Toml)
  | table (origin : TableOrigin) (entries : List (String × Toml))
  /-- The tables that the headers in double brackets of one name made, in order. -/
  | tables (elements : List (List (String × Toml)))
  deriving Repr

namespace Toml

abbrev Entries := List (String × Toml)

def assign (key : String) (item : Toml) : Entries → Entries
  | [] => [(key, item)]
  | e :: es => if e.1 = key then (key, item) :: es else e :: assign key item es

/-- Changes the table that an item stands for. A list of tables stands for its last one. -/
def inTable? (item : Toml) (change : TableOrigin → Entries → Option Entries) : Option Toml :=
  match item with
  | .table origin entries => (change origin entries).map (.table origin)
  | .tables elements =>
    elements.getLast?.bind fun last =>
      (change .header last).map fun new => .tables (elements.dropLast ++ [new])
  | _ => none

def isOpen : Toml → Bool
  | .table .implied _ => true
  | .table .dotted _ => true
  | .tables _ => true
  | _ => false

def set? : List String → Toml → Entries → Option Entries
  | [], _, _ => none
  | [key], value, entries =>
    if (entries.lookup key).isSome then none else some (entries ++ [(key, value)])
  | key :: next :: rest, value, entries => do
    let inner := (entries.lookup key).getD (.table .dotted [])
    guard inner.isOpen
    let changed ← inner.inTable? fun origin es => do
      guard (rest ≠ [] ∨ origin = .dotted)
      set? (next :: rest) value es
    return assign key changed entries

/-- Changes the item at the end of a path of headers. Tables on the way are made where they are
missing; a value in braces is not entered. -/
def atHeader? (change : Option Toml → Option Toml) : List String → Entries → Option Entries
  | [], _ => none
  | [key], entries => (change (entries.lookup key)).map fun item => assign key item entries
  | key :: next :: rest, entries => do
    let inner := (entries.lookup key).getD (.table .implied [])
    let changed ← inner.inTable? fun origin es =>
      if origin = .braces then none else atHeader? change (next :: rest) es
    return assign key changed entries

def declareTable : Option Toml → Option Toml
  | none => some (.table .header [])
  | some (.table .implied entries) => some (.table .header entries)
  | some _ => none

def declareElement : Option Toml → Option Toml
  | none => some (.tables [[]])
  | some (.tables elements) => some (.tables (elements ++ [[]]))
  | some _ => none

inductive Statement where
  | setting (path : List String) (value : Toml)
  | header (path : List String)
  | elementHeader (path : List String)
  deriving Repr

structure Draft where
  entries : Entries
  here : List String
  deriving Repr

namespace Draft

def add? (d : Draft) : Statement → Option Draft
  | .setting path value =>
    match d.here with
    | [] => (set? path value d.entries).map fun es => { d with entries := es }
    | header =>
      let change (item : Option Toml) : Option Toml :=
        item.bind fun i => i.inTable? fun _ es => set? path value es
      (atHeader? change header d.entries).map fun es => { d with entries := es }
  | .header path => (atHeader? declareTable path d.entries).map fun es => ⟨es, path⟩
  | .elementHeader path => (atHeader? declareElement path d.entries).map fun es => ⟨es, path⟩

end Draft

def ofStatements? (statements : List Statement) : Option Entries :=
  (statements.foldlM Draft.add? ⟨[], []⟩).map Draft.entries

def ofPairs? (pairs : List (List String × Toml)) : Option Toml :=
  (pairs.foldlM (fun es p => set? p.1 p.2 es) []).map (.table .braces)

def text? : Toml → Option String
  | .text s => some s
  | _ => none

def natural? : Toml → Option Nat
  | .integer (.ofNat n) => some n
  | _ => none

/-- The entries of a record whose fields have the given names. A list gives the fields in their
order, as many as it has, and a date-time gives none. -/
def record? (fields : List String) : Toml → Option Entries
  | .table _ entries => some entries
  | .list items => some (fields.zip items)
  | .tables elements => some (fields.zip (elements.map (.table .header)))
  | .moment _ => some []
  | _ => none

def listOf? {α : Type} (read : Toml → Option α) : Toml → Option (List α)
  | .list items => items.mapM read
  | .tables elements => elements.mapM fun es => read (.table .header es)
  | _ => none

def valueOr? {α : Type} (entries : Entries) (key : String) (standard : α)
    (read : Toml → Option α) : Option α :=
  match entries.lookup key with
  | none => some standard
  | some item => read item

def value? {α : Type} (entries : Entries) (key : String) (read : Toml → Option α) : Option α :=
  (entries.lookup key).bind read

end Toml

end ContractSurface
