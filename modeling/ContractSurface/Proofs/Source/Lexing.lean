import ContractSurface.Source.Lexer
import ContractSurface.Proofs.Text.Fields
import Mathlib.Data.List.DropRight

/-! # Tokens and the texts they are read from

A token that a source can give is written down in one way, and lexing reads it back. Between two
tokens stands a blank, at which every reader stops. What lexing gives is always of this kind, so
nothing is lost when a source is replaced by the text of its tokens.
-/
namespace ContractSurface.Text

theorem trimEnd_isPrefix (cs : List Char) : trimEnd cs <+: cs := List.rdropWhile_prefix isBlank cs

theorem trimEnd_trimEnd (cs : List Char) : trimEnd (trimEnd cs) = trimEnd cs :=
  List.rdropWhile_idempotent isBlank cs

/-- A text that starts with no blank still does so without its end. -/
theorem trimStart_trimEnd {cs : List Char} (h : trimStart cs = cs) :
    trimStart (trimEnd cs) = trimEnd cs := by
  unfold trimStart at *
  rw [List.dropWhile_eq_self_iff] at *
  intro hl
  have inside : trimEnd cs <+: cs := trimEnd_isPrefix cs
  rw [inside.getElem hl]
  exact h (hl.trans_le inside.length_le)

theorem trim_trim (cs : List Char) : trim (trim cs) = trim cs := by
  have started : trimStart (trimStart cs) = trimStart cs := List.dropWhile_idempotent isBlank cs
  rw [trim, trim, trimStart_trimEnd started, trimEnd_trimEnd]

theorem trimStart_append_cons {c : Char} (h : isBlank c = false) (cs rest : List Char) :
    trimStart (cs ++ c :: rest) = trimStart cs ++ c :: rest := by
  have kept : (c :: rest).dropWhile isBlank = c :: rest := by simp [h]
  rw [trimStart, trimStart, List.dropWhile_append, kept]
  split
  · next blank => rw [List.isEmpty_iff.mp blank, List.nil_append]
  · rfl

/-- Nothing before a character that is not blank is trimmed at the end. -/
theorem trimEnd_append_cons {c : Char} (h : isBlank c = false) (cs rest : List Char) :
    trimEnd (cs ++ c :: rest) = cs ++ c :: trimEnd rest := by
  have reversed : (cs ++ c :: rest).reverse = rest.reverse ++ c :: cs.reverse := by simp
  have kept := trimStart_append_cons h rest.reverse cs.reverse
  rw [trimEnd, reversed]
  rw [trimStart, trimStart] at kept
  rw [kept, trimEnd]
  simp

theorem trim_subset (cs : List Char) : trim cs ⊆ cs := fun _ h =>
  (List.dropWhile_suffix isBlank).subset ((trimEnd_isPrefix (trimStart cs)).subset h)

end ContractSurface.Text

namespace ContractSurface.Source

def escaped (c : Char) : List Char := if c = '"' ∨ c = '\\' then ['\\', c] else [c]

namespace Token

def sourceText : Token → String
  | .ident name => name
  | .number digits => digits
  | .str content => String.ofList ('"' :: (content.toList.flatMap escaped ++ ['"']))
  | .comment line => "// " ++ line ++ "\n"
  | .range => ".."
  | .punct c => String.singleton c

def IsLexical : Token → Prop
  | .ident name =>
    match name.toList with
    | [] => False
    | c :: cs => isWordStart c = true ∧ ∀ d ∈ cs, isWordChar d = true
  | .number digits => digits.toList ≠ [] ∧ ∀ d ∈ digits.toList, d.isDigit = true
  | .str _ => True
  | .comment line => '\n' ∉ line.toList ∧ Text.trimmed line = line
  | .range => True
  | .punct c => Text.isBlank c = false ∧ c ≠ '"' ∧ isWordChar c = false

end Token

def sourceText (ts : List Token) : String := " ".intercalate (ts.map Token.sourceText)

def EndsRun (p : Char → Bool) (rest : List Char) : Prop := ∀ c ∈ rest.head?, p c = false

def isPoint (c : Char) : Bool := c == '.'

def Stops (rest : List Char) : Prop := ∀ c ∈ rest.head?, Text.isBlank c = true

theorem isUpper_iff {c : Char} : c.isUpper = true ↔ 65 ≤ c.toNat ∧ c.toNat ≤ 90 := by
  have bounds : c.isUpper = decide (65 ≤ c.toNat ∧ c.toNat ≤ 90) := rfl
  rw [bounds, decide_eq_true_eq]

theorem isLower_iff {c : Char} : c.isLower = true ↔ 97 ≤ c.toNat ∧ c.toNat ≤ 122 := by
  have bounds : c.isLower = (decide (97 ≤ c.toNat) && decide (c.toNat ≤ 122)) := rfl
  rw [bounds, Bool.and_eq_true, decide_eq_true_eq, decide_eq_true_eq]

theorem isWordStart_iff {c : Char} :
    isWordStart c = true ↔
      ((65 ≤ c.toNat ∧ c.toNat ≤ 90) ∨ (97 ≤ c.toNat ∧ c.toNat ≤ 122)) ∨ c = '_' := by
  have letter : isWordStart c = ((c.isUpper || c.isLower) || c == '_') := rfl
  rw [letter, Bool.or_eq_true, Bool.or_eq_true, isUpper_iff, isLower_iff, beq_iff_eq]

theorem isDigit_iff {c : Char} : c.isDigit = true ↔ 48 ≤ c.toNat ∧ c.toNat ≤ 57 := by
  have bounds : c.isDigit = (decide (48 ≤ c.toNat) && decide (c.toNat ≤ 57)) := rfl
  rw [bounds, Bool.and_eq_true, decide_eq_true_eq, decide_eq_true_eq]

theorem not_isDigit_of_isWordStart {c : Char} (h : isWordStart c = true) : ¬c.isDigit = true := by
  rw [isDigit_iff]
  rcases isWordStart_iff.mp h with (h | h) | rfl
  · omega
  · omega
  · decide

theorem isWordChar_eq (c : Char) : isWordChar c = (isWordStart c || c.isDigit) := by
  rw [isWordChar, isWordStart, Char.isAlphanum, Bool.or_assoc, Bool.or_assoc,
    Bool.or_comm c.isDigit]

theorem isWordChar_of_isDigit {c : Char} (h : c.isDigit = true) : isWordChar c = true := by
  rw [isWordChar_eq, h, Bool.or_true]

theorem isWordChar_of_isWordStart {c : Char} (h : isWordStart c = true) : isWordChar c = true := by
  rw [isWordChar_eq, h, Bool.true_or]

theorem Token.IsLexical.isWordChar {name : String} (h : (Token.ident name).IsLexical) :
    ∀ c ∈ name.toList, isWordChar c = true := by
  cases hn : name.toList with
  | nil => simp
  | cons c cs =>
    simp only [Token.IsLexical, hn] at h
    exact List.forall_mem_cons.mpr ⟨isWordChar_of_isWordStart h.1, h.2⟩

/-- Word characters are ASCII, so looking at each of these is enough. -/
theorem forall_isWordChar {P : Char → Prop}
    (ascii : ∀ n < 128, isWordChar (Char.ofNat n) = true → P (Char.ofNat n)) :
    ∀ c, isWordChar c = true → P c := by
  intro c h
  have small : c.toNat < 128 := by
    rw [isWordChar_eq, Bool.or_eq_true, isWordStart_iff, isDigit_iff] at h
    rcases h with ((h | h) | rfl) | h
    · omega
    · omega
    · decide
    · omega
  have found := ascii c.toNat small
  rw [Char.ofNat_toNat] at found
  exact found h

theorem isBlank_of_isWordChar {c : Char} (h : isWordChar c = true) : Text.isBlank c = false := by
  rw [isWordChar_eq, Bool.or_eq_true, isWordStart_iff, isDigit_iff] at h
  rcases h with ((h | h) | rfl) | h
  · simp [Text.isBlank]; omega
  · simp [Text.isBlank]; omega
  · rfl
  · simp [Text.isBlank]; omega

theorem isWordChar_of_isBlank {c : Char} (h : Text.isBlank c = true) : isWordChar c = false := by
  by_contra word
  rw [isBlank_of_isWordChar (by simpa using word)] at h
  cases h

theorem isDigit_of_isBlank {c : Char} (h : Text.isBlank c = true) : c.isDigit = false := by
  have word := isWordChar_of_isBlank h
  rw [isWordChar_eq, Bool.or_eq_false_iff] at word
  exact word.2

/-- A run ends where the text stops, if no blank belongs to the run. -/
theorem Stops.endsRun {p : Char → Bool} {rest : List Char} (hr : Stops rest)
    (hp : ∀ c, Text.isBlank c = true → p c = false) : EndsRun p rest := fun c hc => hp c (hr c hc)

theorem isPoint_of_ne {c : Char} (h : c ≠ '.') : isPoint c = false := beq_eq_false_iff_ne.mpr h

theorem EndsRun.span {p : Char → Bool} {run rest : List Char} (h : EndsRun p rest)
    (hr : ∀ c ∈ run, p c = true) :
    (run ++ rest).takeWhile p = run ∧ (run ++ rest).dropWhile p = rest := by
  rw [List.takeWhile_append_of_pos hr, List.dropWhile_append_of_pos hr]
  cases rest with
  | nil => simp
  | cons c rest => simp [h c rfl]

/-- An escaped string is read as its content. -/
theorem readString_written (content rest : List Char) :
    readString (content.flatMap escaped ++ '"' :: rest) = (content, rest) := by
  induction content with
  | nil => rfl
  | cons c content ih =>
    rw [List.flatMap_cons, List.append_assoc, escaped]
    split
    · rw [List.cons_append, List.cons_append, List.nil_append, readString, ih]
      rfl
    · next h =>
      obtain ⟨quote, slash⟩ := not_or.mp h
      rw [List.cons_append, List.nil_append, readString, if_neg slash, ih]
      · rfl
      · exact quote
      · exact fun _ _ h => absurd h slash

theorem lex_nil : lex [] = [] := by rw [lex.eq_def]

theorem lex_cons (c : Char) (cs : List Char) :
    lex (c :: cs) =
      if Text.isBlank c then lex cs else (readItem c cs).1.toList ++ lex (readItem c cs).2 := by
  rw [lex.eq_def]

theorem lex_cons_blank {c : Char} (cs : List Char) (h : Text.isBlank c = true) :
    lex (c :: cs) = lex cs := by
  rw [lex_cons, if_pos h]

theorem lex_cons_item {c : Char} {cs rest : List Char} {t : Token} (hb : Text.isBlank c = false)
    (h : readItem c cs = (some t, rest)) : lex (c :: cs) = t :: lex rest := by
  rw [lex_cons, if_neg (by simp [hb]), h]
  rfl

theorem ne_of_isWordChar {c d : Char} (h : isWordChar c = true) (hd : isWordChar d = false) :
    c ≠ d := by
  rintro rfl
  rw [h] at hd
  cases hd

theorem readItem_number {c : Char} (cs : List Char) (h : c.isDigit = true) :
    readItem c cs =
      (some (.number (String.ofList (c :: cs.takeWhile Char.isDigit))),
        cs.dropWhile Char.isDigit) := by
  have word := isWordChar_of_isDigit h
  unfold readItem
  rw [if_neg (ne_of_isWordChar word rfl), if_neg (ne_of_isWordChar word rfl),
    if_neg (ne_of_isWordChar word rfl), if_pos h]

theorem readItem_word {c : Char} (cs : List Char) (h : isWordStart c = true) :
    readItem c cs =
      (some (.ident (String.ofList (c :: cs.takeWhile isWordChar))), cs.dropWhile isWordChar) := by
  have word := isWordChar_of_isWordStart h
  unfold readItem
  rw [if_neg (ne_of_isWordChar word rfl), if_neg (ne_of_isWordChar word rfl),
    if_neg (ne_of_isWordChar word rfl), if_neg (not_isDigit_of_isWordStart h), if_pos h]

/-- A sign is read as itself when it stands alone: before a slash, a star or a point it may be the
start of something longer. -/
theorem readItem_sign {c : Char} (h : (Token.punct c).IsLexical) (hc : c ∉ ['/', '.'])
    (rest : List Char) : readItem c rest = (some (.punct c), rest) := by
  obtain ⟨_, quote, word⟩ := h
  rw [isWordChar_eq, Bool.or_eq_false_iff] at word
  simp only [List.mem_cons, List.not_mem_nil, or_false, not_or] at hc
  unfold readItem
  rw [if_neg hc.1, if_neg quote, if_neg hc.2, if_neg (by simp [word.2]), if_neg (by simp [word.1])]

theorem readItem_point {rest : List Char} (h : EndsRun isPoint rest) :
    readItem '.' rest = (some (.punct '.'), rest) := by
  unfold readItem
  rw [if_neg (by decide), if_neg (by decide), if_pos rfl]
  split
  · cases h '.' rfl
  · rfl

theorem readItem_slash {rest : List Char} (h : ∀ c ∈ rest.head?, c ≠ '/' ∧ c ≠ '*') :
    readItem '/' rest = (some (.punct '/'), rest) := by
  unfold readItem
  rw [if_pos rfl]
  split
  · exact absurd rfl (h '/' rfl).1
  · exact absurd rfl (h '*' rfl).2
  · rfl

theorem readItem_punct {c : Char} {rest : List Char} (h : (Token.punct c).IsLexical)
    (hr : Stops rest) : readItem c rest = (some (.punct c), rest) := by
  by_cases slash : c = '/'
  · rw [slash]
    refine readItem_slash fun d hd => ⟨?_, ?_⟩
    · rintro rfl
      cases hr '/' hd
    · rintro rfl
      cases hr '*' hd
  by_cases point : c = '.'
  · rw [point]
    have blank : ∀ d, Text.isBlank d = true → isPoint d = false := by
      intro d blank
      refine isPoint_of_ne ?_
      rintro rfl
      cases blank
    exact readItem_point (hr.endsRun blank)
  · exact readItem_sign h (by simp [slash, point]) rest

theorem readItem_comment (line rest : List Char) (hl : '\n' ∉ line) :
    readItem '/' ('/' :: ' ' :: (line ++ '\n' :: rest)) =
      (some (.comment (String.ofList (Text.trim line))), '\n' :: rest) := by
  have inLine : '\n' ∉ ' ' :: line := by simpa using hl
  have taken := Text.takeWhile_ne_append inLine rest
  have dropped := Text.dropWhile_ne_append inLine rest
  rw [List.cons_append] at taken dropped
  unfold readItem
  rw [if_pos rfl]
  simp only [taken, dropped]
  rfl

theorem readItem_string {cs content rest : List Char} (h : readString cs = (content, rest)) :
    readItem '"' cs = (some (.str (String.ofList content)), rest) := by
  unfold readItem
  rw [if_neg (by decide), if_pos rfl, h]

theorem lex_word {c : Char} {w rest : List Char} (hc : isWordStart c = true)
    (hw : ∀ d ∈ w, isWordChar d = true) (h : EndsRun isWordChar rest) :
    lex (c :: (w ++ rest)) = .ident (String.ofList (c :: w)) :: lex rest := by
  obtain ⟨taken, dropped⟩ := h.span hw
  refine lex_cons_item (isBlank_of_isWordChar (isWordChar_of_isWordStart hc)) ?_
  rw [readItem_word _ hc, taken, dropped]

theorem lex_number {c : Char} {w rest : List Char} (hc : c.isDigit = true)
    (hw : ∀ d ∈ w, d.isDigit = true) (h : EndsRun Char.isDigit rest) :
    lex (c :: (w ++ rest)) = .number (String.ofList (c :: w)) :: lex rest := by
  obtain ⟨taken, dropped⟩ := h.span hw
  refine lex_cons_item (isBlank_of_isWordChar (isWordChar_of_isDigit hc)) ?_
  rw [readItem_number _ hc, taken, dropped]

/-- A written token is read back, up to the blank behind it. -/
theorem lex_sourceText_append {t : Token} (ht : t.IsLexical) {rest : List Char}
    (hr : Stops rest) : lex (t.sourceText.toList ++ rest) = t :: lex rest := by
  cases t with
  | ident name =>
    cases hn : name.toList with
    | nil => simp [Token.IsLexical, hn] at ht
    | cons c cs =>
      simp only [Token.IsLexical, hn] at ht
      obtain ⟨start, word⟩ := ht
      have ends := hr.endsRun fun _ => isWordChar_of_isBlank
      rw [Token.sourceText, hn, List.cons_append, lex_word start word ends, ← hn,
        String.ofList_toList]
  | number digits =>
    obtain ⟨ne, all⟩ := ht
    obtain ⟨c, cs, hn⟩ := List.exists_cons_of_ne_nil ne
    rw [hn] at all
    obtain ⟨digit, digits'⟩ := List.forall_mem_cons.mp all
    have ends := hr.endsRun fun _ => isDigit_of_isBlank
    rw [Token.sourceText, hn, List.cons_append, lex_number digit digits' ends, ← hn,
      String.ofList_toList]
  | str content =>
    have written : (Token.str content).sourceText.toList ++ rest =
        '"' :: (content.toList.flatMap escaped ++ '"' :: rest) := by
      simp [Token.sourceText]
    rw [written, lex_cons_item rfl (readItem_string (readString_written content.toList rest)),
      String.ofList_toList]
  | comment line =>
    obtain ⟨oneLine, trimmed⟩ := ht
    have written : (Token.comment line).sourceText.toList ++ rest =
        '/' :: '/' :: ' ' :: (line.toList ++ '\n' :: rest) := by
      simp [Token.sourceText]
    have read := readItem_comment line.toList rest oneLine
    rw [show String.ofList (Text.trim line.toList) = line from trimmed] at read
    rw [written, lex_cons_item rfl read, lex_cons_blank rest rfl]
  | range => exact lex_cons_item rfl rfl
  | punct c =>
    have written : (Token.punct c).sourceText.toList ++ rest = c :: rest := by
      simp [Token.sourceText]
    rw [written]
    exact lex_cons_item ht.1 (readItem_punct ht hr)

theorem toList_sourceText_cons (t u : Token) (ts : List Token) :
    (sourceText (t :: u :: ts)).toList =
      t.sourceText.toList ++ ' ' :: (sourceText (u :: ts)).toList := by
  simp [sourceText, String.toList_intercalate]

/-- Tokens with blanks between them are read as they are. -/
theorem lex_sourceText {ts : List Token} (h : ∀ t ∈ ts, t.IsLexical) :
    lex (sourceText ts).toList = ts := by
  induction ts with
  | nil => exact lex_nil
  | cons t ts ih =>
    obtain ⟨ht, hts⟩ := List.forall_mem_cons.mp h
    cases ts with
    | nil =>
      have read : lex (t.sourceText.toList ++ []) = t :: lex [] :=
        lex_sourceText_append ht (by simp [Stops])
      simpa [sourceText, lex_nil] using read
    | cons u us =>
      have stop : Stops (' ' :: (sourceText (u :: us)).toList) := by
        intro c hc
        cases hc
        rfl
      rw [toList_sourceText_cons, lex_sourceText_append ht stop, lex_cons_blank _ rfl, ih hts]

theorem isLexical_comment {line : List Char} (h : '\n' ∉ line) :
    (Token.comment (commentText line)).IsLexical := by
  constructor
  · intro mem
    rw [commentText, String.toList_ofList] at mem
    exact h ((List.dropWhile_suffix _).subset (Text.trim_subset _ mem))
  · simp [Text.trimmed, commentText, Text.trim_trim]

theorem isLexical_readItem {c : Char} (hb : Text.isBlank c = false) (cs : List Char) :
    ∀ t ∈ (readItem c cs).1, t.IsLexical := by
  intro t ht
  unfold readItem at ht
  split at ht
  · split at ht
    · obtain rfl := Option.some.inj ht
      exact isLexical_comment fun mem => by simpa using List.mem_takeWhile_imp mem
    · cases ht
    · obtain rfl := Option.some.inj ht
      exact ⟨rfl, by decide, rfl⟩
  · split at ht
    · obtain rfl := Option.some.inj ht
      trivial
    · next quote =>
      split at ht
      · split at ht
        · obtain rfl := Option.some.inj ht
          trivial
        · obtain rfl := Option.some.inj ht
          exact ⟨rfl, by decide, rfl⟩
      · split at ht
        · next digit =>
          obtain rfl := Option.some.inj ht
          simp only [Token.IsLexical, String.toList_ofList]
          exact ⟨by simp, List.forall_mem_cons.mpr ⟨digit, fun _ => List.mem_takeWhile_imp⟩⟩
        · split at ht
          · next start =>
            obtain rfl := Option.some.inj ht
            simp only [Token.IsLexical, String.toList_ofList]
            exact ⟨start, fun _ => List.mem_takeWhile_imp⟩
          · next digit start =>
            obtain rfl := Option.some.inj ht
            have word : isWordChar c = false := by
              rw [isWordChar_eq, Bool.or_eq_false_iff]
              exact ⟨by simpa using start, by simpa using digit⟩
            exact ⟨hb, quote, word⟩

/-- A text has tokens that can be part of a source, and no others. -/
theorem isLexical_of_mem_lex {cs : List Char} : ∀ t ∈ lex cs, t.IsLexical := by
  induction cs using lex.induct with
  | case1 =>
    intro t ht
    rw [lex_nil] at ht
    cases ht
  | case2 c cs blank ih => rwa [lex_cons_blank cs blank]
  | case3 c cs blank ih =>
    intro t ht
    rw [lex_cons, if_neg blank] at ht
    rcases List.mem_append.mp ht with ht | ht
    · exact isLexical_readItem (by simpa using blank) cs t (Option.mem_toList.mp ht)
    · exact ih t ht

/-- Writing a token list down and lexing it gives the list back exactly if its tokens can be part
of a source, as those of every source are. -/
theorem tokens_sourceText_iff (ts : List Token) (source : String) :
    (tokens (sourceText ts) = ts ↔ ∀ t ∈ ts, t.IsLexical) ∧
      (∀ t ∈ tokens source, t.IsLexical) ∧
      tokens (sourceText (tokens source)) = tokens source := by
  have given : ∀ t ∈ tokens source, t.IsLexical := isLexical_of_mem_lex
  refine ⟨⟨fun same => ?_, lex_sourceText⟩, given, lex_sourceText given⟩
  rw [← same]
  exact isLexical_of_mem_lex

example :
    tokens (sourceText [.punct '/', .punct '/', .str "\"", .comment "a  /* b", .punct '.', .range]) =
      [.punct '/', .punct '/', .str "\"", .comment "a  /* b", .punct '.', .range] := by
  decide +kernel

end ContractSurface.Source
