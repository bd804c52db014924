/-! # File trees

The content of a directory is a list of named files and directories. In a list of entries each
constructor holds the first entry and the entries after it, so that a tree is one inductive type.
-/
namespace ContractSurface

inductive Tree where
  | empty
  | file (name : String) (content : ByteArray) (rest : Tree)
  | folder (name : String) (inside : Tree) (rest : Tree)

inductive Entry where
  | file (content : ByteArray)
  | folder (inside : Tree)

namespace Tree

def entry? (name : String) : Tree → Option Entry
  | empty => none
  | file n content rest => if n = name then some (.file content) else rest.entry? name
  | folder n inside rest => if n = name then some (.folder inside) else rest.entry? name

def lookup (t : Tree) : List String → Option Entry
  | [] => some (.folder t)
  | name :: names =>
    match t.entry? name with
    | some (.folder inside) => inside.lookup names
    | some (.file content) => if names = [] then some (.file content) else none
    | none => none

def cons (name : String) (e : Entry) (rest : Tree) : Tree :=
  match e with
  | .file content => file name content rest
  | .folder inside => folder name inside rest

/-- Puts an entry under a name, in the place of the one that is there. -/
def set (name : String) (e : Entry) : Tree → Tree
  | empty => cons name e empty
  | file n content rest =>
    if n = name then cons name e rest else file n content (rest.set name e)
  | folder n inside rest =>
    if n = name then cons name e rest else folder n inside (rest.set name e)

def put (t : Tree) (e : Entry) : List String → Tree
  | [] => t
  | [name] => t.set name e
  | name :: next :: names =>
    match t.entry? name with
    | some (.folder inside) => t.set name (.folder (inside.put e (next :: names)))
    | _ => t

def remove (name : String) : Tree → Tree
  | empty => empty
  | file n content rest => if n = name then rest else file n content (rest.remove name)
  | folder n inside rest => if n = name then rest else folder n inside (rest.remove name)

def removeAt (t : Tree) : List String → Tree
  | [] => t
  | [name] => t.remove name
  | name :: next :: names =>
    match t.entry? name with
    | some (.folder inside) => t.set name (.folder (inside.removeAt (next :: names)))
    | _ => t

def insertByName (name : String) (e : Entry) : Tree → Tree
  | empty => cons name e empty
  | file n content rest =>
    if name < n then cons name e (file n content rest)
    else file n content (rest.insertByName name e)
  | folder n inside rest =>
    if name < n then cons name e (folder n inside rest)
    else folder n inside (rest.insertByName name e)

def sorted : Tree → Tree
  | empty => empty
  | file n content rest => rest.sorted.insertByName n (.file content)
  | folder n inside rest => rest.sorted.insertByName n (.folder inside.sorted)

def names : Tree → List String
  | empty => []
  | file n _ rest => n :: rest.names
  | folder n _ rest => n :: rest.names

/-- The files of a tree in the order in which they are met when each directory is gone through
from its first entry to its last. A file is given by its path of names. -/
def walk : Tree → List (List String × ByteArray)
  | empty => []
  | file n content rest => ([n], content) :: rest.walk
  | folder n inside rest => inside.walk.map (fun f => (n :: f.1, f.2)) ++ rest.walk

end Tree

end ContractSurface
