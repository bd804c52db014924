import ContractSurface.Text.Hex
import ContractSurface.Text.Printable

/-! # Quoted text

A quoted text stands between two quotes. Inside, the backslash, the enclosing quote and five
controls have escapes of two characters; a mark that draws on its neighbour and every unprintable
character are written by code point; all else stands for itself.
-/
namespace ContractSurface.Text

def codePointEscape (c : Char) : List Char :=
  '\\' :: 'u' :: '\x7b' :: (hexNumeral c.toNat ++ ['\x7d'])

def quotedChar (quote c : Char) : List Char :=
  if c = '\x00' then ['\\', '0']
  else if c = '\t' then ['\\', 't']
  else if c = '\r' then ['\\', 'r']
  else if c = '\n' then ['\\', 'n']
  else if c = '\\' || c = quote then ['\\', c]
  else if extendsGrapheme c || isUnprintable c then codePointEscape c
  else [c]

def quotedChars (cs : List Char) : List Char :=
  '"' :: (cs.flatMap (quotedChar '"') ++ ['"'])

def quoted (s : String) : String := String.ofList (quotedChars s.toList)

def quotedSingle (c : Char) : String := String.ofList ('\x27' :: (quotedChar '\x27' c ++ ['\x27']))

end ContractSurface.Text
