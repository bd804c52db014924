import ContractSurface.Proofs.Source.Lexing
import ContractSurface.Proofs.Text.Quoted

/-! # String literals as a program reads them

Generated modules are read in strict mode. A literal between double quotes is read up to its closing
quote, escape by escape, and its value is a row of code units. A quoted text is read as the text
that it quotes, with one exception: before a digit the escape of the character zero is refused.
-/
namespace ContractSurface.TypeScript

def unitsOf (point : Nat) : List Nat :=
  if point < 0x10000 then [point]
  else [0xD800 + (point - 0x10000) / 0x400, 0xDC00 + (point - 0x10000) % 0x400]

def codeUnits (s : String) : List Nat := s.toList.flatMap fun c => unitsOf c.toNat

def pointsOf : List Nat → List Nat
  | [] => []
  | [unit] => [unit]
  | high :: low :: rest =>
    if 0xD800 ≤ high ∧ high < 0xDC00 then
      (0x10000 + (high - 0xD800) * 0x400 + (low - 0xDC00)) :: pointsOf rest
    else high :: pointsOf (low :: rest)

/-- A character is read back from its code units. -/
theorem pointsOf_unitsOf (c : Char) (rest : List Nat) :
    pointsOf (unitsOf c.toNat ++ rest) = c.toNat :: pointsOf rest := by
  have scalar : c.toNat < 0xD800 ∨ 0xDFFF < c.toNat ∧ c.toNat < 0x110000 := c.valid
  unfold unitsOf
  split
  · cases rest with
    | nil => rfl
    | cons unit rest =>
      rw [List.cons_append, List.nil_append, pointsOf, if_neg (by omega)]
  · have point : 0x10000 + (0xD800 + (c.toNat - 0x10000) / 0x400 - 0xD800) * 0x400 +
        (0xDC00 + (c.toNat - 0x10000) % 0x400 - 0xDC00) = c.toNat := by
      omega
    rw [List.cons_append, List.cons_append, List.nil_append, pointsOf, if_pos (by omega), point]

/-- Different texts have different code units. -/
theorem codeUnits_injective : Function.Injective codeUnits := by
  have points : ∀ cs : List Char,
      pointsOf (cs.flatMap fun c => unitsOf c.toNat) = cs.map Char.toNat := by
    intro cs
    induction cs with
    | nil => rfl
    | cons c cs ih => rw [List.flatMap_cons, pointsOf_unitsOf, ih, List.map_cons]
  intro s t same
  have mapped : s.toList.map Char.toNat = t.toList.map Char.toNat := by
    rw [← points, ← points]
    exact congrArg pointsOf same
  have injective : Function.Injective Char.toNat := Function.LeftInverse.injective Char.ofNat_toNat
  exact String.toList_inj.mp (List.map_injective_iff.mpr injective mapped)

def isHexDigit (c : Char) : Bool := (Text.nibble? c.toNat).isSome

def hexValue (digits : List Char) : Nat :=
  digits.foldl (fun v c => 16 * v + (Text.nibble? c.toNat).getD 0) 0

def endsLine (c : Char) : Bool := c == '\n' || c == '\r' || c == '\u2028' || c == '\u2029'

def readCodePoint (cs : List Char) : Option (List Nat × List Char) :=
  let digits := cs.takeWhile isHexDigit
  match cs.dropWhile isHexDigit with
  | '\x7d' :: rest =>
    if digits = [] ∨ 0x10FFFF < hexValue digits then none
    else some (unitsOf (hexValue digits), rest)
  | _ => none

def readUnit (count : Nat) (cs : List Char) : Option (List Nat × List Char) :=
  let digits := cs.take count
  if digits.length = count ∧ digits.all isHexDigit then some ([hexValue digits], cs.drop count)
  else none

def escaped (c : Char) : Nat :=
  match c with
  | 'b' => 0x08
  | 't' => 0x09
  | 'n' => 0x0A
  | 'v' => 0x0B
  | 'f' => 0x0C
  | 'r' => 0x0D
  | c => c.toNat

/-- Reads behind a backslash. A line end is left out of the value. Of the digits only a zero that no
digit follows is an escape. -/
def readEscape : List Char → Option (List Nat × List Char)
  | [] => none
  | 'u' :: '\x7b' :: cs => readCodePoint cs
  | 'u' :: cs => readUnit 4 cs
  | 'x' :: cs => readUnit 2 cs
  | '0' :: cs => if cs.head?.any Char.isDigit then none else some ([0], cs)
  | '\r' :: '\n' :: cs => some ([], cs)
  | c :: cs =>
    if endsLine c then some ([], cs)
    else if c.isDigit then none
    else some (unitsOf (escaped c), cs)

theorem length_readCodePoint_lt {cs rest : List Char} {units : List Nat}
    (h : readCodePoint cs = some (units, rest)) : rest.length < cs.length := by
  unfold readCodePoint at h
  dsimp only at h
  split at h
  · next behind =>
    split at h
    · cases h
    · cases h
      have shorter := (List.dropWhile_sublist isHexDigit (l := cs)).length_le
      rw [behind, List.length_cons] at shorter
      omega
  · cases h

theorem length_readUnit_le {count : Nat} {cs rest : List Char} {units : List Nat}
    (h : readUnit count cs = some (units, rest)) : rest.length ≤ cs.length := by
  unfold readUnit at h
  dsimp only at h
  split at h
  · cases h
    exact (List.drop_sublist count cs).length_le
  · cases h

theorem length_readEscape_lt {cs rest : List Char} {units : List Nat}
    (h : readEscape cs = some (units, rest)) : rest.length < cs.length := by
  unfold readEscape at h
  split at h
  · cases h
  · have := length_readCodePoint_lt h
    simp only [List.length_cons]
    omega
  · have := length_readUnit_le h
    simp only [List.length_cons]
    omega
  · have := length_readUnit_le h
    simp only [List.length_cons]
    omega
  · split at h
    · cases h
    · cases h
      simp
  · cases h
    simp only [List.length_cons]
    omega
  · split at h
    · cases h
      simp
    · split at h
      · cases h
      · cases h
        simp

def readBody : List Char → Option (List Nat × List Char)
  | [] => none
  | c :: cs =>
    if c = '"' then some ([], cs)
    else if c = '\\' then
      match _h : readEscape cs with
      | none => none
      | some (units, rest) => (readBody rest).map fun r => (units ++ r.1, r.2)
    else if c = '\n' ∨ c = '\r' then none
    else (readBody cs).map fun r => (unitsOf c.toNat ++ r.1, r.2)
termination_by cs => cs.length
decreasing_by
  · have := length_readEscape_lt _h
    simp only [List.length_cons]
    omega
  · simp

/-- The value of the literal at the front of the text, and the text behind it. -/
def readLiteral : List Char → Option (List Nat × List Char)
  | '"' :: cs => readBody cs
  | _ => none

section Body

variable {c : Char} {cs rest : List Char} {units : List Nat}

theorem readBody_quote (cs : List Char) : readBody ('"' :: cs) = some ([], cs) := by
  rw [readBody, if_pos rfl]

theorem readBody_escape (h : readEscape cs = some (units, rest)) :
    readBody ('\\' :: cs) = (readBody rest).map fun r => (units ++ r.1, r.2) := by
  rw [readBody, if_neg (by decide), if_pos rfl]
  split
  · next none => rw [h] at none; cases none
  · next some => rw [h] at some; cases some; rfl

theorem readBody_escape_none (h : readEscape cs = none) : readBody ('\\' :: cs) = none := by
  rw [readBody, if_neg (by decide), if_pos rfl]
  split
  · rfl
  · next some => rw [h] at some; cases some

theorem readBody_plain (quote : c ≠ '"') (backslash : c ≠ '\\') (lineEnd : ¬(c = '\n' ∨ c = '\r'))
    (cs : List Char) :
    readBody (c :: cs) = (readBody cs).map fun r => (unitsOf c.toNat ++ r.1, r.2) := by
  rw [readBody, if_neg quote, if_neg backslash, if_neg lineEnd]

end Body

theorem hexValue_append (ds : List Char) (d : Char) :
    hexValue (ds ++ [d]) = 16 * hexValue ds + (Text.nibble? d.toNat).getD 0 := by
  rw [hexValue, List.foldl_append]
  rfl

theorem nibble?_digitChar {d : Nat} (h : d < 16) :
    Text.nibble? (Nat.digitChar d).toNat = some d := by
  have all : ∀ d < 16, Text.nibble? (Nat.digitChar d).toNat = some d := by decide
  exact all d h

/-- A hexadecimal numeral has the value that it is made from. -/
theorem hexValue_hexNumeral (n : Nat) : hexValue (Text.hexNumeral n) = n := by
  unfold Text.hexNumeral
  induction n using Nat.strongRecOn with
  | ind n ih =>
    rcases Nat.lt_or_ge n 16 with small | large
    · rw [Nat.toDigits_of_lt_base small]
      have digit := hexValue_append [] (Nat.digitChar n)
      rw [nibble?_digitChar small] at digit
      simpa [hexValue] using digit
    · rw [Nat.toDigits_of_base_le (by decide) large, hexValue_append,
        ih (n / 16) (Nat.div_lt_self (by omega) (by decide)),
        nibble?_digitChar (Nat.mod_lt n (by decide)), Option.getD_some, Nat.div_add_mod]

theorem isHexDigit_of_mem_hexNumeral {n : Nat} {d : Char} (h : d ∈ Text.hexNumeral n) :
    isHexDigit d = true := by
  obtain ⟨v, small, rfl⟩ := Text.exists_digitChar_of_mem_hexNumeral h
  rw [isHexDigit, nibble?_digitChar small]
  rfl

theorem readEscape_codePoint (c : Char) (rest : List Char) :
    readEscape ('u' :: '\x7b' :: (Text.hexNumeral c.toNat ++ '\x7d' :: rest)) =
      some (unitsOf c.toNat, rest) := by
  have digits : ∀ d ∈ Text.hexNumeral c.toNat, isHexDigit d = true :=
    fun _ h => isHexDigit_of_mem_hexNumeral h
  have stop : isHexDigit '\x7d' = false := by decide
  have taken : (Text.hexNumeral c.toNat ++ '\x7d' :: rest).takeWhile isHexDigit =
      Text.hexNumeral c.toNat := by
    rw [List.takeWhile_append_of_pos digits, List.takeWhile_cons_of_neg (by simp [stop]),
      List.append_nil]
  have left : (Text.hexNumeral c.toNat ++ '\x7d' :: rest).dropWhile isHexDigit =
      '\x7d' :: rest := by
    rw [List.dropWhile_append_of_pos digits, List.dropWhile_cons_of_neg (by simp [stop])]
  have within : ¬0x10FFFF < c.toNat := by
    have scalar : c.toNat < 0xD800 ∨ 0xDFFF < c.toNat ∧ c.toNat < 0x110000 := c.valid
    omega
  rw [readEscape, readCodePoint, taken, left, hexValue_hexNumeral]
  exact if_neg (by simp [Text.hexNumeral, within])

def startsWithDigit (cs : List Char) : Bool := cs.head?.any Char.isDigit

/-- A quoted character is read as its code units unless it is a zero before a digit. -/
theorem readBody_quotedChar {c : Char} {rest : List Char}
    (h : ¬(c = '\x00' ∧ startsWithDigit rest = true)) :
    readBody (Text.quotedChar '"' c ++ rest) =
      (readBody rest).map fun r => (unitsOf c.toNat ++ r.1, r.2) := by
  unfold Text.quotedChar
  split
  · next zero =>
    subst zero
    have undigited : ¬startsWithDigit rest = true := fun digit => h ⟨rfl, digit⟩
    exact readBody_escape (if_neg undigited)
  split
  · next tab => subst tab; exact readBody_escape rfl
  split
  · next return_ => subst return_; exact readBody_escape rfl
  split
  · next line => subst line; exact readBody_escape rfl
  · next noReturn noLine =>
    split
    · next escaped =>
      rcases (by simpa using escaped : c = '\\' ∨ c = '"') with rfl | rfl
      · exact readBody_escape rfl
      · exact readBody_escape rfl
    · next unescaped =>
      have other : c ≠ '\\' ∧ c ≠ '"' := by simpa using unescaped
      split
      · have escape := readEscape_codePoint c rest
        simp only [Text.codePointEscape, List.cons_append, List.append_assoc, List.nil_append]
        exact readBody_escape escape
      · exact readBody_plain other.2 other.1 (by simp [noReturn, noLine]) rest

theorem readBody_zero {rest : List Char} (h : startsWithDigit rest = true) :
    readBody (Text.quotedChar '"' '\x00' ++ rest) = none :=
  readBody_escape_none (if_pos h)

theorem isPlain_of_isDigit {c : Char} (h : c.isDigit = true) : Text.IsPlain c := by
  obtain ⟨low, high⟩ := Source.isDigit_iff.mp h
  have other : ∀ d : Char, ¬(0x30 ≤ d.toNat ∧ d.toNat ≤ 0x39) → c ≠ d := by
    rintro d outside rfl
    exact outside ⟨low, high⟩
  exact ⟨by omega, by omega, other _ (by decide), other _ (by decide)⟩

/-- Only a digit is written as something that starts with one. -/
theorem startsWithDigit_quotedChar (c : Char) (rest : List Char) :
    startsWithDigit (Text.quotedChar '"' c ++ rest) = c.isDigit := by
  by_cases digit : c.isDigit = true
  · rw [Text.quotedChar_of_isPlain (isPlain_of_isDigit digit)]
    rfl
  · have escape : ∀ after, startsWithDigit ('\\' :: after ++ rest) = c.isDigit := by
      intro after
      rw [Bool.eq_false_iff.mpr digit]
      rfl
    unfold Text.quotedChar
    split
    · exact escape _
    split
    · exact escape _
    split
    · exact escape _
    split
    · exact escape _
    split
    · exact escape _
    split
    · exact escape _
    · rfl

theorem startsWithDigit_quoted (cs rest : List Char) :
    startsWithDigit (cs.flatMap (Text.quotedChar '"') ++ '"' :: rest) = startsWithDigit cs := by
  cases cs with
  | nil => rfl
  | cons c cs =>
    rw [List.flatMap_cons, List.append_assoc, startsWithDigit_quotedChar]
    rfl

/-- The two characters, one behind the other, are not written like an octal escape. -/
def NotOctal (c d : Char) : Prop := ¬(c = '\x00' ∧ d.isDigit = true)

instance : DecidableRel NotOctal := fun c d =>
  inferInstanceAs (Decidable ¬(c = _ ∧ d.isDigit = true))

/-- No digit stands directly behind the character zero. -/
def Expressible (s : String) : Prop := s.toList.IsChain NotOctal

instance (s : String) : Decidable (Expressible s) := inferInstanceAs (Decidable (List.IsChain _ _))

theorem isChain_cons_iff {c : Char} {cs : List Char} :
    (c :: cs).IsChain NotOctal ↔
      ¬(c = '\x00' ∧ startsWithDigit cs = true) ∧ cs.IsChain NotOctal := by
  cases cs with
  | nil => simp [startsWithDigit]
  | cons d cs => exact List.isChain_cons_cons

/-- A quoted text is read whole, and as itself, if it has no zero before a digit. -/
theorem readBody_quoted (cs rest : List Char) :
    readBody (cs.flatMap (Text.quotedChar '"') ++ '"' :: rest) =
      if cs.IsChain NotOctal then some (cs.flatMap fun c => unitsOf c.toNat, rest) else none := by
  induction cs with
  | nil => exact readBody_quote rest
  | cons c cs ih =>
    rw [List.flatMap_cons, List.append_assoc]
    by_cases octal : c = '\x00' ∧ startsWithDigit cs = true
    · rw [if_neg fun chain => (isChain_cons_iff.mp chain).1 octal, octal.1]
      exact readBody_zero (by rw [startsWithDigit_quoted, octal.2])
    · rw [readBody_quotedChar (by rwa [startsWithDigit_quoted]), ih]
      by_cases chain : cs.IsChain NotOctal
      · rw [if_pos chain, if_pos (isChain_cons_iff.mpr ⟨octal, chain⟩)]
        rfl
      · rw [if_neg chain, if_neg fun whole => chain (isChain_cons_iff.mp whole).2]
        rfl

theorem toList_quoted_append (s : String) (rest : List Char) : (Text.quoted s).toList ++ rest =
    '"' :: (s.toList.flatMap (Text.quotedChar '"') ++ '"' :: rest) := by
  simp [Text.quoted, Text.quotedChars]

/-- A quoted text is a literal that ends at its own closing quote, with the text as its value,
unless it has a digit behind the character zero. -/
theorem readLiteral_quoted (s : String) (rest : List Char) :
    readLiteral ((Text.quoted s).toList ++ rest) =
      if Expressible s then some (codeUnits s, rest) else none := by
  rw [toList_quoted_append]
  exact readBody_quoted s.toList rest

end ContractSurface.TypeScript
