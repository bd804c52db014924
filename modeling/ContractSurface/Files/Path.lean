import ContractSurface.Text.Find

/-! # Paths

A path is a text whose components stand between slashes. Slashes in a row count as one, and a dot
that is a component of its own counts only at the very start. A path keeps the spelling it was
given; two paths agree when their components do.
-/
namespace ContractSurface

abbrev Path := String

namespace Path

def isAbsolute (p : Path) : Bool := p.toList.head? == some '/'

def segments (p : Path) : List String := (Text.fields (· == '/') p.toList).map String.ofList

def components (p : Path) : List String :=
  let named := p.segments.filter fun s => s != "" && s != "."
  if p.isAbsolute then "/" :: named
  else if p.segments.head? = some "." then "." :: named
  else named

def agrees (p q : Path) : Bool := p.components == q.components

/-- A reversed path without the slashes and dots at its end that are no components. -/
def withoutTail : List Char → List Char
  | '/' :: c :: cs => withoutTail (c :: cs)
  | '.' :: '/' :: cs => withoutTail ('/' :: cs)
  | cs => cs

def splitLast? (p : Path) : Option (Path × String) :=
  let reversed := withoutTail p.toList.reverse
  if reversed = [] ∨ reversed = ['/'] then none
  else
    some (String.ofList (withoutTail (reversed.dropWhile (· != '/'))).reverse,
      String.ofList (reversed.takeWhile (· != '/')).reverse)

def parent? (p : Path) : Option Path := p.splitLast?.map (·.1)

def fileName? (p : Path) : Option String :=
  match p.splitLast? with
  | some (_, name) => if name = "." ∨ name = ".." then none else some name
  | none => none

/-- What follows the last dot of a file name. A dot that only starts a name marks no extension. -/
def extensionOfName? (name : String) : Option String :=
  let reversed := name.toList.reverse
  let stem := (reversed.dropWhile (· != '.')).drop 1
  if stem.isEmpty then none else some (String.ofList (reversed.takeWhile (· != '.')).reverse)

def extension? (p : Path) : Option String := p.fileName?.bind extensionOfName?

/-- The path of `q` as seen from `p`. -/
def join (p q : Path) : Path :=
  if q.isAbsolute then q
  else if p = "" ∨ p.toList.getLast? = some '/' then p ++ q
  else p ++ "/" ++ q

end Path

def sourceExtension : String := "compact"

def isContractSource (p : Path) : Bool := p.extension? == some sourceExtension

end ContractSurface
