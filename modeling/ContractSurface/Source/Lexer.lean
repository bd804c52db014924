import ContractSurface.Source.Token

/-! # Lexing a contract source

Blanks and block comments vanish, and every other character belongs to exactly one token. There
are no lexical errors: a string or a block comment that is never closed runs to the end.
-/
namespace ContractSurface.Source

def isWordStart (c : Char) : Bool := c.isAlpha || c == '_'

def isWordChar (c : Char) : Bool := c.isAlphanum || c == '_'

/-- The text of a line comment: slashes in front and blanks around are no part of it. -/
def commentText (line : List Char) : String :=
  String.ofList (Text.trim (line.dropWhile (· == '/')))

def afterBlockComment : List Char → List Char
  | '*' :: '/' :: rest => rest
  | _ :: rest => afterBlockComment rest
  | [] => []

/-- The content of a string and what follows its closing quote. A backslash gives the character
after it. -/
def readString : List Char → List Char × List Char
  | [] => ([], [])
  | '"' :: rest => ([], rest)
  | '\\' :: c :: rest => (readString rest).map (c :: ·) id
  | c :: rest => if c = '\\' then ([], rest) else (readString rest).map (c :: ·) id

/-- The lexical item that starts with the character `c`, which is not blank, and the text after
it. A block comment is an item without a token. -/
def readItem (c : Char) (cs : List Char) : Option Token × List Char :=
  if c = '/' then
    match cs with
    | '/' :: rest =>
      (some (.comment (commentText (rest.takeWhile (· != '\n')))), rest.dropWhile (· != '\n'))
    | '*' :: rest => (none, afterBlockComment rest)
    | _ => (some (.punct '/'), cs)
  else if c = '"' then
    let r := readString cs
    (some (.str (String.ofList r.1)), r.2)
  else if c = '.' then
    match cs with
    | '.' :: rest => (some .range, rest)
    | _ => (some (.punct '.'), cs)
  else if c.isDigit then
    (some (.number (String.ofList (c :: cs.takeWhile Char.isDigit))), cs.dropWhile Char.isDigit)
  else if isWordStart c then
    (some (.ident (String.ofList (c :: cs.takeWhile isWordChar))), cs.dropWhile isWordChar)
  else (some (.punct c), cs)

theorem length_dropWhile_le {α : Type} (p : α → Bool) (xs : List α) :
    (xs.dropWhile p).length ≤ xs.length :=
  (List.dropWhile_sublist p).length_le

theorem length_afterBlockComment_le (cs : List Char) :
    (afterBlockComment cs).length ≤ cs.length := by
  fun_induction afterBlockComment cs <;> simp_all <;> omega

theorem length_readString_le (cs : List Char) : (readString cs).2.length ≤ cs.length := by
  fun_induction readString cs <;> simp_all <;> omega

/-- An item takes nothing back. -/
theorem length_readItem_le (c : Char) (cs : List Char) :
    (readItem c cs).2.length ≤ cs.length := by
  have word := length_dropWhile_le isWordChar cs
  have digits := length_dropWhile_le Char.isDigit cs
  have content := length_readString_le cs
  unfold readItem
  split
  · split
    · next rest =>
      have line := length_dropWhile_le (· != '\n') rest
      simp; omega
    · next rest =>
      have block := length_afterBlockComment_le rest
      simp; omega
    · simp
  · split
    · exact content
    · split
      · split <;> simp
      · split
        · exact digits
        · split
          · exact word
          · simp

def lex : List Char → List Token
  | [] => []
  | c :: cs =>
    if Text.isBlank c then lex cs
    else (readItem c cs).1.toList ++ lex (readItem c cs).2
termination_by cs => cs.length
decreasing_by
  · simp
  · have := length_readItem_le c cs; simp; omega

def tokens (source : String) : List Token := lex source.toList

end ContractSurface.Source
