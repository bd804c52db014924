import ContractSurface.Data.Json.Basic
import ContractSurface.Text.Quoted

/-! # Argument values

A value that is ready to be passed to a circuit. Its JSON form is a truth value or a string: the
decimal numeral of an integer, the digits of bytes after `0x`, and text itself.
-/
namespace ContractSurface

inductive Argument where
  | integer (n : Nat)
  | boolean (b : Bool)
  | bytes (bs : List UInt8)
  | text (s : String)
  deriving DecidableEq, Repr

namespace Argument

def prefixedHex (bs : List UInt8) : String := "0x" ++ Text.hexText bs

def json : Argument → Json
  | .integer n => .string (toString n)
  | .boolean b => .bool b
  | .bytes bs => .string (prefixedHex bs)
  | .text s => .string s

def display : Argument → String
  | .integer n => toString n
  | .boolean b => if b then "true" else "false"
  | .bytes bs => prefixedHex bs
  | .text s => Text.quoted s

end Argument

end ContractSurface
