import ContractSurface.Text.Blank

/-! # Tokens of a contract source

Keywords are identifiers like any other. A line comment is a token, since it may describe the
declaration that follows. The spelling of a token is what it contributes to a rendered type.
-/
namespace ContractSurface.Source

inductive Token where
  | ident (name : String)
  | number (digits : String)
  | str (content : String)
  | comment (line : String)
  | range
  | punct (c : Char)
  deriving DecidableEq, Repr

namespace Token

def isComment : Token → Bool
  | .comment _ => true
  | _ => false

def exportWord : Token := .ident "export"

def opens : Token → Bool
  | .punct c => c == '<' || c == '(' || c == '['
  | _ => false

def closes : Token → Bool
  | .punct c => c == '>' || c == ')' || c == ']'
  | _ => false

/-- The bracket depth after a token; a closing bracket too many leaves it at zero. -/
def depthAfter (depth : Nat) (t : Token) : Nat :=
  if t.opens then depth + 1 else if t.closes then depth - 1 else depth

def spelling : Token → String
  | .ident s => s
  | .number s => s
  | .str s => "\"" ++ s ++ "\""
  | .comment _ => ""
  | .range => ".."
  | .punct c => String.singleton c

end Token

/-- A type in its canonical spelling: no blanks except one space after every comma. -/
def renderType (tokens : List Token) : String :=
  let piece (t : Token) := t.spelling ++ if t = .punct ',' then " " else ""
  Text.endTrimmed (String.join (tokens.map piece))

end ContractSurface.Source
