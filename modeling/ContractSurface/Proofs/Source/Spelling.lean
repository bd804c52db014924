import ContractSurface.Proofs.Source.Brackets
import ContractSurface.Proofs.Source.Lexing
import Mathlib.Data.List.Chain

/-! # Reading rendered types

In a rendered type tokens stand directly one behind the other, so lexing may join them: words and
numerals join to longer words, points to ranges. Brackets and all other signs stay what they are,
and the tokens that are read have the same spelling again.
-/
namespace ContractSurface.Source

def piece (t : Token) : List Char :=
  t.spelling.toList ++ if t = .punct ',' then [' '] else []

def spelled (ts : List Token) : List Char := ts.flatMap piece

theorem toList_renderType (ts : List Token) :
    (renderType ts).toList = Text.trimEnd (spelled ts) := by
  have pieces : ∀ t : Token,
      (t.spelling ++ if t = .punct ',' then " " else "").toList = piece t := by
    intro t
    rw [String.toList_append, piece]
    split <;> rfl
  rw [renderType, Text.toList_endTrimmed, String.toList_join, List.flatMap_map]
  exact congrArg _ (List.flatMap_congr fun t _ => pieces t)

theorem EndsRun.append {p : Char → Bool} {cs rest : List Char} (h : EndsRun p cs)
    (hr : EndsRun p rest) : EndsRun p (cs ++ rest) := by
  cases cs with
  | nil => exact hr
  | cons c cs => exact h

def IsPlainContent (content : List Char) : Prop := ∀ c ∈ content, c ≠ '"' ∧ c ≠ '\\'

/-- Lexing cuts the text into these tokens, each as long as it can be. -/
inductive Reads : List Char → List Token → Prop
  | nil : Reads [] []
  | word {c : Char} {w cs : List Char} {ts : List Token} : isWordStart c = true →
      (∀ d ∈ w, isWordChar d = true) → EndsRun isWordChar cs → Reads cs ts →
      Reads (c :: (w ++ cs)) (.ident (String.ofList (c :: w)) :: ts)
  | number {c : Char} {w cs : List Char} {ts : List Token} : c.isDigit = true →
      (∀ d ∈ w, d.isDigit = true) → EndsRun Char.isDigit cs → Reads cs ts →
      Reads (c :: (w ++ cs)) (.number (String.ofList (c :: w)) :: ts)
  | range {cs : List Char} {ts : List Token} : Reads cs ts → Reads ('.' :: '.' :: cs) (.range :: ts)
  | point {cs : List Char} {ts : List Token} : EndsRun isPoint cs → Reads cs ts →
      Reads ('.' :: cs) (.punct '.' :: ts)
  | string {content cs : List Char} {ts : List Token} : IsPlainContent content → Reads cs ts →
      Reads ('"' :: (content ++ '"' :: cs)) (.str (String.ofList content) :: ts)
  | comma {cs : List Char} {ts : List Token} : Reads cs ts →
      Reads (',' :: ' ' :: cs) (.punct ',' :: ts)
  | sign {c : Char} {cs : List Char} {ts : List Token} : (Token.punct c).IsLexical →
      c ∉ ['/', '.'] → c ≠ ',' → Reads cs ts → Reads (c :: cs) (.punct c :: ts)

variable {cs rest : List Char} {ts us : List Token} {t : Token}

theorem readString_plain {content : List Char} (h : IsPlainContent content) (rest : List Char) :
    readString (content ++ '"' :: rest) = (content, rest) := by
  have unescaped : content.flatMap escaped = content := by
    have single : content.flatMap escaped = content.flatMap ([·]) :=
      List.flatMap_congr fun c hc => if_neg (not_or.mpr (h c hc))
    rw [single, List.flatMap_singleton']
  have written := readString_written content rest
  rwa [unescaped] at written

theorem EndsRun.isDigit {cs : List Char} (h : EndsRun isWordChar cs) : EndsRun Char.isDigit cs := by
  intro c hc
  have word := h c hc
  rw [isWordChar_eq, Bool.or_eq_false_iff] at word
  exact word.2

/-- The text behind may be anything that joins with no word and no point. -/
theorem Reads.lex_append (h : Reads cs ts) (word : EndsRun isWordChar rest)
    (point : EndsRun isPoint rest) : lex (cs ++ rest) = ts ++ lex rest := by
  induction h with
  | nil => rfl
  | word hc hw ends _ ih =>
    rw [List.cons_append, List.append_assoc, lex_word hc hw (ends.append word), ih,
      List.cons_append]
  | number hc hw ends _ ih =>
    rw [List.cons_append, List.append_assoc, lex_number hc hw (ends.append word.isDigit), ih,
      List.cons_append]
  | range _ ih =>
    rw [List.cons_append, List.cons_append, lex_cons_item rfl rfl, ih, List.cons_append]
  | point ends _ ih =>
    rw [List.cons_append, lex_cons_item rfl (readItem_point (ends.append point)), ih,
      List.cons_append]
  | @string content cs ts plain _ ih =>
    have read := readItem_string (readString_plain plain (cs ++ rest))
    rw [List.cons_append, List.append_assoc, List.cons_append, lex_cons_item rfl read, ih,
      List.cons_append]
  | comma _ ih =>
    have sign : (Token.punct ',').IsLexical := ⟨rfl, by decide, rfl⟩
    rw [List.cons_append, List.cons_append, lex_cons_item rfl (readItem_sign sign (by decide) _),
      lex_cons_blank _ rfl, ih, List.cons_append]
  | sign lexical apart _ _ ih =>
    rw [List.cons_append, lex_cons_item lexical.1 (readItem_sign lexical apart _), ih,
      List.cons_append]

theorem Reads.lex_eq (h : Reads cs ts) : lex cs = ts := by
  have ends : ∀ p, EndsRun p [] := fun _ _ none => nomatch none
  have whole := h.lex_append (ends isWordChar) (ends isPoint)
  rwa [List.append_nil, lex_nil, List.append_nil] at whole

theorem Reads.spelled_eq (h : Reads cs ts) : spelled ts = cs := by
  induction h with
  | nil => rfl
  | word _ _ _ _ ih => simp [spelled, piece, Token.spelling, ← ih]
  | number _ _ _ _ ih => simp [spelled, piece, Token.spelling, ← ih]
  | range _ ih => simp [spelled, piece, Token.spelling, ← ih]
  | point _ _ ih => simp [spelled, piece, Token.spelling, ← ih]
  | string _ _ ih => simp [spelled, piece, Token.spelling, ← ih]
  | comma _ ih => simp [spelled, piece, Token.spelling, ← ih]
  | sign _ _ comma _ ih => simp [spelled, piece, Token.spelling, comma, ← ih]

def Token.isSign : Token → Bool
  | .punct c => c != '.'
  | .str _ => true
  | _ => false

def signs (ts : List Token) : List Token := ts.filter Token.isSign

theorem signs_cons (t : Token) (ts : List Token) :
    signs (t :: ts) = if t.isSign then t :: signs ts else signs ts := List.filter_cons

/-- What may join with its neighbours has no part in the brackets. -/
theorem Token.countAfter?_of_not_isSign (n : Nat) (h : t.isSign = false) :
    t.countAfter? n = some n := by
  cases t with
  | punct c =>
    have point : c = '.' := by simpa [isSign] using h
    rw [point]
    rfl
  | str content => cases h
  | _ => rfl

theorem countAfter?_signs (n : Nat) (ts : List Token) :
    countAfter? n (signs ts) = countAfter? n ts := by
  induction ts generalizing n with
  | nil => rfl
  | cons t ts ih =>
    rw [signs_cons]
    split
    · simp only [countAfter?_cons, ih]
    · next joins =>
      rw [countAfter?_cons, Token.countAfter?_of_not_isSign n (by simpa using joins),
        Option.bind_some, ih]

theorem Token.depthAfter_of_not_isSign (n : Nat) (h : t.isSign = false) : t.depthAfter n = n :=
  depthAfter_of_count (countAfter?_of_not_isSign n h)

/-- The depth at which a sign stands is the same among the signs. -/
theorem mem_topTokens_signs (n : Nat) (ts : List Token) (hu : t.isSign = true) :
    t ∈ topTokens n (signs ts) ↔ t ∈ topTokens n ts := by
  induction ts generalizing n with
  | nil => rfl
  | cons u ts ih =>
    rw [signs_cons, mem_topTokens_cons_iff]
    split
    · rw [mem_topTokens_cons_iff, ih]
    · next joins =>
      have other : t ≠ u := by
        rintro rfl
        exact joins hu
      rw [Token.depthAfter_of_not_isSign n (by simpa using joins), ih]
      simp [other]

/-- The characters of the kind at the front of the text are a run of their own, and what is behind
them is read with the same signs. -/
def SplitsRun (p : Char → Bool) (cs : List Char) (ts : List Token) : Prop :=
  ∃ run after us, cs = run ++ after ∧ (∀ c ∈ run, p c = true) ∧ EndsRun p after ∧
    Reads after us ∧ signs us = signs ts

theorem Reads.splitsRun_of_ends {p : Char → Bool} (h : Reads cs ts) (ends : EndsRun p cs) :
    SplitsRun p cs ts :=
  ⟨[], cs, ts, rfl, fun _ none => (nomatch none), ends, h, rfl⟩

theorem endsRun_cons {p : Char → Bool} {c : Char} (h : p c = false) (cs : List Char) :
    EndsRun p (c :: cs) := by
  intro d hd
  rwa [← Option.some.inj hd]

theorem Reads.splitsDigits (h : Reads cs ts) : SplitsRun Char.isDigit cs ts := by
  cases h with
  | number hc hw ends h => exact ⟨_, _, _, rfl, List.forall_mem_cons.mpr ⟨hc, hw⟩, ends, h, rfl⟩
  | nil => exact splitsRun_of_ends .nil fun _ none => nomatch none
  | word hc hw ends h =>
    have letter := Bool.eq_false_iff.mpr (not_isDigit_of_isWordStart hc)
    exact splitsRun_of_ends (.word hc hw ends h) (endsRun_cons letter _)
  | range h => exact splitsRun_of_ends (.range h) (endsRun_cons rfl _)
  | point ends h => exact splitsRun_of_ends (.point ends h) (endsRun_cons rfl _)
  | string plain h => exact splitsRun_of_ends (.string plain h) (endsRun_cons rfl _)
  | comma h => exact splitsRun_of_ends (.comma h) (endsRun_cons rfl _)
  | sign lexical apart comma h =>
    have word := lexical.2.2
    rw [isWordChar_eq, Bool.or_eq_false_iff] at word
    exact splitsRun_of_ends (.sign lexical apart comma h) (endsRun_cons word.2 _)

/-- What stands behind a word is read alike without the word. -/
theorem Reads.splitsWords (h : Reads cs ts) : SplitsRun isWordChar cs ts := by
  induction h with
  | word hc hw ends h _ =>
    have word := isWordChar_of_isWordStart hc
    exact ⟨_, _, _, rfl, List.forall_mem_cons.mpr ⟨word, hw⟩, ends, h, rfl⟩
  | @number c w _ _ hc hw _ _ ih =>
    -- A word may stand directly behind a numeral, and then the run goes on through it.
    obtain ⟨run, after, us, rfl, words, ends, read, same⟩ := ih
    have digits : ∀ d ∈ c :: w, isWordChar d = true :=
      List.forall_mem_cons.mpr
        ⟨isWordChar_of_isDigit hc, fun d hd => isWordChar_of_isDigit (hw d hd)⟩
    have whole := List.forall_mem_append.mpr ⟨digits, words⟩
    refine ⟨c :: w ++ run, after, us, ?_, whole, ends, read, same⟩
    rw [List.append_assoc, List.cons_append]
  | nil => exact splitsRun_of_ends .nil fun _ none => nomatch none
  | range h _ => exact splitsRun_of_ends (.range h) (endsRun_cons rfl _)
  | point ends h _ => exact splitsRun_of_ends (.point ends h) (endsRun_cons rfl _)
  | string plain h _ => exact splitsRun_of_ends (.string plain h) (endsRun_cons rfl _)
  | comma h _ => exact splitsRun_of_ends (.comma h) (endsRun_cons rfl _)
  | sign lexical apart comma h _ =>
    exact splitsRun_of_ends (.sign lexical apart comma h) (endsRun_cons lexical.2.2 _)

theorem Reads.wordChar {c : Char} (hc : isWordChar c = true) (h : Reads cs ts) :
    ∃ us, Reads (c :: cs) us ∧ signs us = signs ts := by
  by_cases start : isWordStart c = true
  · obtain ⟨run, after, us, rfl, words, ends, read, same⟩ := h.splitsWords
    exact ⟨_, .word start words ends read, same⟩
  · have digit : c.isDigit = true := by
      rw [isWordChar_eq, Bool.or_eq_true] at hc
      exact hc.resolve_left start
    obtain ⟨run, after, us, rfl, digits, ends, read, same⟩ := h.splitsDigits
    exact ⟨_, .number digit digits ends read, same⟩

theorem Reads.wordChars {w : List Char} (hw : ∀ c ∈ w, isWordChar c = true) (h : Reads cs ts) :
    ∃ us, Reads (w ++ cs) us ∧ signs us = signs ts := by
  induction w with
  | nil => exact ⟨ts, h, rfl⟩
  | cons c w ih =>
    obtain ⟨hc, hw⟩ := List.forall_mem_cons.mp hw
    obtain ⟨us, read, same⟩ := ih hw
    obtain ⟨vs, read, same'⟩ := read.wordChar hc
    exact ⟨vs, read, same'.trans same⟩

theorem Reads.pointChar (h : Reads cs ts) : ∃ us, Reads ('.' :: cs) us ∧ signs us = signs ts := by
  have alone : ∀ {cs ts}, Reads cs ts → EndsRun isPoint cs →
      ∃ us, Reads ('.' :: cs) us ∧ signs us = signs ts :=
    fun h ends => ⟨_, .point ends h, rfl⟩
  -- In a row of points each two from the left are a range, so a point more moves all of them.
  induction h with
  | range _ ih =>
    obtain ⟨us, read, same⟩ := ih
    exact ⟨_, .range read, same⟩
  | point _ h _ => exact ⟨_, .range h, rfl⟩
  | nil => exact alone .nil fun _ none => nomatch none
  | word hc hw ends h _ =>
    have letter := ne_of_isWordChar (isWordChar_of_isWordStart hc) (d := '.') rfl
    exact alone (.word hc hw ends h) (endsRun_cons (isPoint_of_ne letter) _)
  | number hc hw ends h _ =>
    have digit := ne_of_isWordChar (isWordChar_of_isDigit hc) (d := '.') rfl
    exact alone (.number hc hw ends h) (endsRun_cons (isPoint_of_ne digit) _)
  | string plain h _ => exact alone (.string plain h) (endsRun_cons rfl _)
  | comma h _ => exact alone (.comma h) (endsRun_cons rfl _)
  | @sign c _ _ lexical apart comma h _ =>
    have other : c ≠ '.' := fun same => apart (by simp [same])
    exact alone (.sign lexical apart comma h) (endsRun_cons (isPoint_of_ne other) _)

/-- A token that is no comment, no slash and no string with a quote or a backslash in it. -/
def Token.IsPlain : Token → Prop
  | .str content => IsPlainContent content.toList
  | .punct c => c ≠ '/'
  | .comment _ => False
  | _ => True

theorem Token.IsPlain.isComment (h : t.IsPlain) : t.isComment = false := by
  cases t with
  | comment line => exact h.elim
  | _ => rfl

/-- A plain token in front of a text that is read is read as itself. -/
theorem Reads.piece (h : Reads cs ts) (ht : t.IsLexical) (plain : t.IsPlain) :
    ∃ us, Reads (piece t ++ cs) us ∧ signs us = signs (t :: ts) := by
  cases t with
  | ident name =>
    obtain ⟨us, read, same⟩ := h.wordChars ht.isWordChar
    exact ⟨us, by simpa [Source.piece, Token.spelling] using read, same⟩
  | number digits =>
    obtain ⟨us, read, same⟩ := h.wordChars fun c hc => isWordChar_of_isDigit (ht.2 c hc)
    exact ⟨us, by simpa [Source.piece, Token.spelling] using read, same⟩
  | str content =>
    have read := Reads.string plain h
    rw [String.ofList_toList] at read
    exact ⟨_, by simpa [Source.piece, Token.spelling] using read, rfl⟩
  | comment line => exact plain.elim
  | range => exact ⟨_, .range h, rfl⟩
  | punct c =>
    by_cases comma : c = ','
    · subst comma
      exact ⟨_, .comma h, rfl⟩
    have alone : Source.piece (.punct c) = [c] := by simp [Source.piece, Token.spelling, comma]
    rw [alone]
    by_cases point : c = '.'
    · subst point
      exact h.pointChar
    · have slash : c ≠ '/' := plain
      exact ⟨_, .sign ht (by simp [point, slash]) comma h, rfl⟩

theorem exists_reads (ht : ∀ t ∈ ts, t.IsLexical) (plain : ∀ t ∈ ts, t.IsPlain) :
    ∃ us, Reads (spelled ts) us ∧ signs us = signs ts := by
  induction ts with
  | nil => exact ⟨[], .nil, rfl⟩
  | cons t ts ih =>
    obtain ⟨lexical, ht⟩ := List.forall_mem_cons.mp ht
    obtain ⟨first, plain⟩ := List.forall_mem_cons.mp plain
    obtain ⟨us, read, same⟩ := ih ht plain
    obtain ⟨vs, read, same'⟩ := read.piece lexical first
    refine ⟨vs, read, same'.trans ?_⟩
    rw [signs_cons, signs_cons, same]

theorem Reads.isComment (h : Reads cs ts) : ∀ t ∈ ts, t.isComment = false := by
  have uncommented : ∀ {t : Token} {ts : List Token}, t.isComment = false →
      (∀ u ∈ ts, u.isComment = false) → ∀ u ∈ t :: ts, u.isComment = false :=
    fun first others => List.forall_mem_cons.mpr ⟨first, others⟩
  induction h with
  | nil => exact List.forall_mem_nil _
  | word _ _ _ _ ih => exact uncommented rfl ih
  | number _ _ _ _ ih => exact uncommented rfl ih
  | range _ ih => exact uncommented rfl ih
  | point _ _ ih => exact uncommented rfl ih
  | string _ _ ih => exact uncommented rfl ih
  | comma _ ih => exact uncommented rfl ih
  | sign _ _ _ _ ih => exact uncommented rfl ih

def Token.isName : Token → Bool
  | .ident _ => true
  | _ => false

def NotBothNames (t u : Token) : Prop := ¬(t.isName = true ∧ u.isName = true)

theorem Reads.isName_head? (h : Reads cs ts) (ends : EndsRun isWordChar cs) :
    ∀ t ∈ ts.head?, t.isName = false := by
  intro t ht
  cases h with
  | nil => cases ht
  | @word c _ _ _ hc _ _ _ =>
    have word := ends c rfl
    rw [isWordChar_of_isWordStart hc] at word
    cases word
  | _ => rw [← Option.some.inj ht]; rfl

/-- What is read has no identifier behind an identifier, since both would be one. -/
theorem Reads.isChain (h : Reads cs ts) : ts.IsChain NotBothNames := by
  have other : ∀ {t : Token} {ts : List Token}, t.isName = false → ts.IsChain NotBothNames →
      (t :: ts).IsChain NotBothNames := by
    intro t ts name chain
    refine chain.cons fun u _ both => ?_
    rw [name] at both
    cases both.1
  induction h with
  | nil => exact .nil
  | word _ _ ends h ih =>
    refine ih.cons fun u hu both => ?_
    rw [h.isName_head? ends u hu] at both
    cases both.2
  | number _ _ _ _ ih => exact other rfl ih
  | range _ ih => exact other rfl ih
  | point _ _ ih => exact other rfl ih
  | string _ _ ih => exact other rfl ih
  | comma _ ih => exact other rfl ih
  | sign _ _ _ _ ih => exact other rfl ih

theorem exists_spelling_eq_concat (ht : t.IsLexical) (hc : t.isComment = false) :
    ∃ cs c, t.spelling.toList = cs ++ [c] ∧ Text.isBlank c = false := by
  have ofWord : ∀ cs : List Char, cs ≠ [] → (∀ c ∈ cs, isWordChar c = true) →
      ∃ ds c, cs = ds ++ [c] ∧ Text.isBlank c = false := by
    intro cs ne word
    obtain ⟨ds, c, rfl⟩ := (List.eq_nil_or_concat cs).resolve_left ne
    rw [List.concat_eq_append] at word ⊢
    exact ⟨ds, c, rfl, isBlank_of_isWordChar (word c (by simp))⟩
  cases t with
  | ident name =>
    refine ofWord _ ?_ ht.isWordChar
    intro none
    have none' : name.toList = [] := none
    simp [Token.IsLexical, none'] at ht
  | number digits => exact ofWord _ ht.1 fun c hc => isWordChar_of_isDigit (ht.2 c hc)
  | str content => exact ⟨'"' :: content.toList, '"', by simp [Token.spelling], rfl⟩
  | comment line => cases hc
  | range => exact ⟨['.'], '.', rfl, rfl⟩
  | punct c => exact ⟨[], c, by simp [Token.spelling], ht.1⟩

theorem trimEnd_concat {c : Char} (cs : List Char) (h : Text.isBlank c = false) :
    Text.trimEnd (cs ++ [c]) = cs ++ [c] := List.rdropWhile_concat_neg _ _ _ (by simp [h])

theorem spelled_concat (ts : List Token) (t : Token) :
    spelled (ts ++ [t]) = spelled ts ++ piece t := by
  rw [spelled, List.flatMap_append, List.flatMap_singleton, spelled]

/-- Only a blank behind a comma is trimmed, and lexing passes over it. -/
theorem lex_trimEnd_spelled (ht : ∀ t ∈ ts, t.IsLexical) (plain : ∀ t ∈ ts, t.IsPlain)
    (rest : List Char) : lex (Text.trimEnd (spelled ts) ++ rest) = lex (spelled ts ++ rest) := by
  rcases List.eq_nil_or_concat ts with rfl | ⟨us, t, rfl⟩
  · rfl
  rw [List.concat_eq_append] at *
  rw [spelled_concat]
  by_cases comma : t = .punct ','
  · subst comma
    have trimmed : Text.trimEnd (spelled us ++ piece (.punct ',')) = spelled us ++ [','] := by
      have blank := List.rdropWhile_concat_pos Text.isBlank (spelled us ++ [',']) ' ' rfl
      have cut := trimEnd_concat (c := ',') (spelled us) rfl
      have whole : spelled us ++ piece (.punct ',') = spelled us ++ [','] ++ [' '] := by
        rw [List.append_assoc]
        rfl
      rw [whole]
      exact blank.trans cut
    obtain ⟨vs, read, -⟩ := exists_reads (fun u hu => ht u (List.mem_append_left _ hu))
      fun u hu => plain u (List.mem_append_left _ hu)
    have sign : (Token.punct ',').IsLexical := ⟨rfl, by decide, rfl⟩
    have apart : ∀ more, lex (spelled us ++ ',' :: more) = vs ++ .punct ',' :: lex more := by
      intro more
      rw [read.lex_append (endsRun_cons rfl _) (endsRun_cons rfl _),
        lex_cons_item rfl (readItem_sign sign (by decide) _)]
    have spaced : spelled us ++ piece (.punct ',') ++ rest = spelled us ++ ',' :: ' ' :: rest := by
      rw [List.append_assoc]
      rfl
    rw [trimmed, spaced, List.append_assoc, List.singleton_append, apart, apart,
      lex_cons_blank rest rfl]
  · have uncommented := (plain t (by simp)).isComment
    obtain ⟨cs, c, spelling, blank⟩ := exists_spelling_eq_concat (ht t (by simp)) uncommented
    have whole : spelled us ++ piece t = spelled us ++ cs ++ [c] := by
      rw [piece, if_neg comma, spelling, List.append_nil, List.append_assoc]
    rw [whole, trimEnd_concat _ blank]

end ContractSurface.Source
