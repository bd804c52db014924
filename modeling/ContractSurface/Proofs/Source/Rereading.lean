import ContractSurface.Proofs.Source.Sites
import ContractSurface.Proofs.Source.Spelling

/-! # Reading a field from its rendered type

A ledger field that is written down with its rendered type is read as the same field, although
lexing may join some of its tokens. It is lost only when words that stand side by side make an
`export` outside of brackets.
-/
namespace ContractSurface.Source

variable {name : String} {type ts : List Token}

/-- The tokens hold a field of this name and type: its type goes from the colon up to a semicolon or
an `export` outside of brackets, and comments do not belong to it. -/
inductive HoldsField (name : String) (type : List Token) : List Token → Prop
  | mk (front modifier written rest : List Token) :
      modifier = [] ∨ (∃ word, isModifier word = true ∧ modifier = [.ident word]) →
      RunsUpTo (· = .punct ';') written rest → withoutComments written = type → type ≠ [] →
      HoldsField name type (front ++ .exportWord :: (modifier ++
        .ident "ledger" :: .ident name :: .punct ':' :: (written ++ rest)))

theorem SpellsBody.holdsField {doc : List String} {keyword : String} {v : StateVariable}
    {body rest front modifier : List Token} (h : SpellsBody doc keyword (.ledger v) body rest)
    (hm : modifier = [] ∨ (∃ word, isModifier word = true ∧ modifier = [.ident word])) :
    ∃ type, v.declaredType = renderType type ∧ HoldsField v.name type
      (front ++ .exportWord :: (modifier ++ .ident keyword :: body ++ rest)) := by
  cases h with
  | @ledger name type _ _ reach close typed =>
    have holds : HoldsField name _ _ := .mk front modifier type _ hm reach rfl typed
    exact ⟨withoutComments type, rfl, by simpa using holds⟩

theorem Spells.holdsField {doc : List String} {v : StateVariable} {stretch rest : List Token}
    (h : Spells doc (.ledger v) stretch rest) (front : List Token) :
    ∃ type, v.declaredType = renderType type ∧
      HoldsField v.name type (front ++ (stretch ++ rest)) := by
  cases h with
  | plain body => exact body.holdsField (Or.inl rfl)
  | modified modifier body => exact body.holdsField (Or.inr ⟨_, modifier, rfl⟩)

/-- Every ledger field that is read stands in the source. -/
theorem exists_holdsField {source : String} {v : StateVariable}
    (hv : v ∈ (declarations source).ledgers) :
    ∃ type, v.declaredType = renderType type ∧ HoldsField v.name type (tokens source) := by
  obtain ⟨sites, read, _, stand⟩ := havePlaces_readDeclarations [] (tokens source)
  rw [declarations_of_read read.symm] at hv
  obtain ⟨d, hd, field⟩ := List.mem_filterMap.mp hv
  obtain ⟨s, hs, rfl⟩ := List.mem_map.mp hd
  obtain ⟨doc, stretch, rest, split, _, _, spells⟩ := stand s hs
  rw [Declaration.eq_of_ledger? field] at spells
  have holds := spells.holdsField ((tokens source).take s.note ++ doc.map .comment)
  rwa [List.append_assoc, ← split, List.map_nil, List.nil_append, List.take_append_drop] at holds

/-- The type of a field has no comment, and outside of brackets no semicolon and no `export`. -/
theorem HoldsField.type_spec (h : HoldsField name type ts) (balanced : Balanced type)
    (ht : ∀ t ∈ ts, t.IsLexical) :
    (Token.ident name).IsLexical ∧ type ≠ [] ∧ (∀ t ∈ type, t.IsLexical ∧ t.isComment = false) ∧
      .punct ';' ∉ topTokens 0 type := by
  obtain ⟨_, _, written, _, _, reach, rfl, typed⟩ := h
  refine ⟨ht _ (by simp), typed, ?_, ?_⟩
  · intro t mem
    obtain ⟨mem, plain⟩ := List.mem_filter.mp mem
    exact ⟨ht t (by simp [mem]), by simpa using plain⟩
  · intro semicolon
    rw [Balanced, countAfter?_withoutComments] at balanced
    rw [topTokens_withoutComments balanced] at semicolon
    have passed := (reach.inside _ (List.mem_of_mem_filter semicolon)).1
    simp at passed

def fieldText (v : StateVariable) : String :=
  "export ledger " ++ v.name ++ ": " ++ v.declaredType ++ ";"

theorem tokens_fieldText (v : StateVariable) (hn : (Token.ident v.name).IsLexical) :
    tokens (fieldText v) = .exportWord :: .ident "ledger" :: .ident v.name :: .punct ':' ::
      lex (v.declaredType.toList ++ [';']) := by
  have space : EndsRun isWordChar [' '] := endsRun_cons rfl []
  obtain ⟨c, w, spelling, start, word⟩ :
      ∃ c w, v.name.toList = c :: w ∧ isWordStart c = true ∧ ∀ d ∈ w, isWordChar d = true := by
    cases spelling : v.name.toList with
    | nil => simp [Token.IsLexical, spelling] at hn
    | cons c w =>
      simp only [Token.IsLexical, spelling] at hn
      exact ⟨c, w, rfl, hn⟩
  have text : (fieldText v).toList = 'e' :: ("xport".toList ++ ' ' :: 'l' :: ("edger".toList ++
      ' ' :: c :: (w ++ ':' :: ' ' :: (v.declaredType.toList ++ [';'])))) := by
    change ("export ledger " ++ v.name ++ ": " ++ v.declaredType ++ ";").toList = _
    simp only [String.toList_append, spelling, List.append_assoc]
    rfl
  have name : String.ofList (c :: w) = v.name := by rw [← spelling, String.ofList_toList]
  have colon : (Token.punct ':').IsLexical := ⟨rfl, by decide, rfl⟩
  have first : ∀ d ∈ "xport".toList, isWordChar d = true := List.all_eq_true.mp rfl
  have second : ∀ d ∈ "edger".toList, isWordChar d = true := List.all_eq_true.mp rfl
  rw [tokens, text, lex_word rfl first (endsRun_cons rfl _), lex_cons_blank _ rfl,
    lex_word rfl second (endsRun_cons rfl _), lex_cons_blank _ rfl,
    lex_word start word (endsRun_cons rfl _), name,
    lex_cons_item rfl (readItem_sign colon (by decide) _), lex_cons_blank _ rfl]
  rfl

/-- An `export` declares nothing without a word behind it. -/
theorem readDeclarations_of_isChain (doc : List String) (h : ts.IsChain NotBothNames) :
    readDeclarations doc ts = [] := by
  induction doc, ts using readDeclarations.induct with
  | case1 doc => rw [readDeclarations]
  | case2 doc ts line ih =>
    rw [readDeclarations]
    exact ih h.tail
  | case3 doc ts _ ih =>
    have bare : readExport doc ts = (none, ts) := by
      cases ts with
      | nil => rfl
      | cons t ts =>
        have apart := List.isChain_cons_cons.mp h |>.1
        cases t with
        | ident word => exact absurd ⟨rfl, rfl⟩ apart
        | _ => rfl
    rw [bare] at ih
    rw [readDeclarations_export, bare, ih h.tail]
    rfl
  | case4 doc t ts other plain ih =>
    rw [readDeclarations_plain doc ts other plain]
    exact ih h.tail

theorem lt_length_trimEnd {c : Char} (h : Text.isBlank c = false) (front rest : List Char) :
    front.length < (Text.trimEnd (front ++ c :: rest)).length := by
  rw [Text.trimEnd_append_cons h]
  simp

/-- One more token makes another type. -/
theorem renderType_ne_of_append {t : Token} {before after : List Token} (ht : t.IsLexical)
    (plain : t.isComment = false) : renderType before ≠ renderType (before ++ t :: after) := by
  intro same
  -- The part that is left starts with a character that is not trimmed, so the text is longer.
  obtain ⟨c, cs, spelling, blank⟩ := exists_spelling_eq_cons ht plain
  have longer : spelled (before ++ t :: after) = spelled before ++
      c :: (cs ++ (if t = .punct ',' then [' '] else []) ++ spelled after) := by
    simp [spelled, piece, spelling]
  have short := (Text.trimEnd_isPrefix (spelled before)).length_le
  have long := lt_length_trimEnd blank (spelled before)
    (cs ++ (if t = .punct ',' then [' '] else []) ++ spelled after)
  rw [← longer, ← toList_renderType, ← same, toList_renderType] at long
  omega

def rereadField (name : String) (ts : List Token) : List Declaration :=
  readDeclarations [] (.exportWord :: .ident "ledger" :: .ident name :: .punct ':' ::
    (ts ++ [.punct ';']))

theorem rereadField_of_not_mem (balanced : Balanced ts) (nonempty : withoutComments ts ≠ [])
    (semicolon : .punct ';' ∉ topTokens 0 ts) (word : .exportWord ∉ topTokens 0 ts) :
    rereadField name ts = [.ledger ⟨name, renderType (withoutComments ts)⟩] := by
  have closed : ∀ t ∈ topTokens 0 ts, t ≠ .punct ';' ∧ t ≠ .exportWord := by
    intro t ht
    exact ⟨fun same => semicolon (same ▸ ht), fun same => word (same ▸ ht)⟩
  have form : LedgerForm.WellFormed ⟨false, name, ts⟩ := ⟨balanced, closed, nonempty⟩
  have read := LedgerForm.readDeclarations_tokens form [] []
  rw [List.append_nil, readDeclarations] at read
  exact read

/-- An `export` ends the type where it stands, and nothing behind it is a declaration. -/
theorem rereadField_of_mem (name : String) (balanced : Balanced ts)
    (apart : ts.IsChain NotBothNames) (semicolon : .punct ';' ∉ topTokens 0 ts)
    (word : .exportWord ∈ topTokens 0 ts) :
    ∃ before after, ts = before ++ .exportWord :: after ∧
      rereadField name ts = if (withoutComments before).isEmpty then [] else
        [.ledger ⟨name, renderType (withoutComments before)⟩] := by
  obtain ⟨before, after, rfl, count, first⟩ := exists_split_of_mem_topTokens balanced word
  refine ⟨before, after, rfl, ?_⟩
  have closed : ∀ t ∈ topTokens 0 before,
      decide (t = .punct ';') = false ∧ t ≠ Token.exportWord := by
    intro t ht
    refine ⟨decide_eq_false ?_, fun same => first (same ▸ ht)⟩
    rintro rfl
    apply semicolon
    rw [topTokens_append _ count]
    exact List.mem_append_left _ ht
  have collected := collectUntil_append (.exportWord :: (after ++ [.punct ';'])) count closed
  rw [collectUntil_cons_stop _ (Or.inr rfl), List.append_nil] at collected
  have read : readLedger (.ident name :: .punct ':' ::
      (before ++ .exportWord :: (after ++ [.punct ';']))) =
      (if (withoutComments before).isEmpty then none else
        some (.ledger ⟨name, renderType (withoutComments before)⟩),
        .exportWord :: (after ++ [.punct ';'])) := by
    have other : (Token.exportWord :: (after ++ [.punct ';'])).head? ≠ some (.punct ';') := by
      simp [Token.exportWord]
    simp only [readLedger, collected, if_neg other]
  have left : readDeclarations [] (.exportWord :: (after ++ [.punct ';'])) = [] := by
    refine readDeclarations_of_isChain [] ?_
    rw [← List.cons_append]
    refine List.isChain_append.mpr ⟨apart.suffix (List.suffix_append before _), .singleton _, ?_⟩
    intro t _ u hu both
    rw [← Option.some.inj hu] at both
    cases both.2
  rw [rereadField, readDeclarations_export, readExport_of_keyword _ _ rfl, readStatement,
    if_pos rfl, List.append_assoc, List.cons_append, read, left, List.append_nil]
  split <;> rfl

/-- A field is read back unless an `export` stands in its type outside of brackets. -/
theorem rereadField_iff (balanced : Balanced ts) (apart : ts.IsChain NotBothNames)
    (nonempty : withoutComments ts ≠ []) (semicolon : .punct ';' ∉ topTokens 0 ts) :
    rereadField name ts = [.ledger ⟨name, renderType (withoutComments ts)⟩] ↔
      .exportWord ∉ topTokens 0 ts := by
  refine ⟨fun read word => ?_, rereadField_of_not_mem balanced nonempty semicolon⟩
  obtain ⟨before, after, rfl, cut⟩ := rereadField_of_mem name balanced apart semicolon word
  rw [cut] at read
  have shorter : renderType (withoutComments before) ≠
      renderType (withoutComments (before ++ .exportWord :: after)) := by
    have whole : withoutComments (before ++ .exportWord :: after) =
        withoutComments before ++ .exportWord :: withoutComments after := by
      simp [withoutComments, Token.exportWord, Token.isComment]
    rw [whole]
    exact renderType_ne_of_append (t := .exportWord) ⟨rfl, List.all_eq_true.mp rfl⟩ rfl
  split at read
  · cases read
  · have same := Declaration.ledger.inj (List.cons.inj read).1
    exact shorter (congrArg StateVariable.declaredType same)

theorem eq_singleton_ledger_iff {found : List Declaration} {v : StateVariable} :
    found = [.ledger v] ↔
      found.filterMap Declaration.circuit? = [] ∧ found.filterMap Declaration.ledger? = [v] := by
  constructor
  · rintro rfl
    exact ⟨rfl, rfl⟩
  · rintro ⟨circuits, ledgers⟩
    have length := length_filterMap_add found
    rw [circuits, ledgers] at length
    obtain ⟨d, rfl⟩ := List.length_eq_one_iff.mp length.symm
    cases d with
    | ledger w => cases ledgers; rfl
    | circuit c => cases ledgers

/-- The text of a field declares the field alone, under the same condition. -/
theorem declarations_fieldText_iff (hn : (Token.ident name).IsLexical) (nonempty : type ≠ [])
    (ht : ∀ t ∈ type, t.IsLexical) (plain : ∀ t ∈ type, t.IsPlain) (balanced : Balanced type)
    (semicolon : .punct ';' ∉ topTokens 0 type) :
    declarations (fieldText ⟨name, renderType type⟩) = ⟨[], [⟨name, renderType type⟩]⟩ ↔
      .exportWord ∉ topTokens 0 (tokens (renderType type)) := by
  obtain ⟨us, read, same⟩ := exists_reads ht plain
  have last : lex [';'] = [.punct ';'] := by
    have sign : (Token.punct ';').IsLexical := ⟨rfl, by decide, rfl⟩
    rw [lex_cons_item rfl (readItem_sign sign (by decide) []), lex_nil]
  have reread : tokens (renderType type) = us := by
    have trimmed := lex_trimEnd_spelled ht plain []
    rw [List.append_nil, List.append_nil, read.lex_eq, ← toList_renderType] at trimmed
    exact trimmed
  have written : tokens (fieldText ⟨name, renderType type⟩) = .exportWord :: .ident "ledger" ::
      .ident name :: .punct ':' :: (us ++ [.punct ';']) := by
    rw [tokens_fieldText _ hn, toList_renderType, lex_trimEnd_spelled ht plain,
      read.lex_append (endsRun_cons rfl _) (endsRun_cons rfl _), last]
  have uncommented : withoutComments us = us :=
    List.filter_eq_self.mpr fun t mem => by simp [read.isComment t mem]
  have text : renderType us = renderType type := by
    rw [← String.toList_inj, toList_renderType, toList_renderType, read.spelled_eq]
  have nonempty' : us ≠ [] := by
    rintro rfl
    obtain ⟨t, more, rfl⟩ := List.exists_cons_of_ne_nil nonempty
    obtain ⟨c, cs, spelling, _⟩ :=
      exists_spelling_eq_cons (ht t (by simp)) (plain t (by simp)).isComment
    have none := read.spelled_eq
    simp [spelled, piece, spelling] at none
  have balanced' : Balanced us := by
    rw [Balanced, ← countAfter?_signs, same, countAfter?_signs]
    exact balanced
  have semicolon' : .punct ';' ∉ topTokens 0 us := by
    rw [← mem_topTokens_signs 0 us rfl, same, mem_topTokens_signs 0 type rfl]
    exact semicolon
  have back : rereadField name us = _ ↔ _ :=
    rereadField_iff balanced' read.isChain (by rwa [uncommented]) semicolon'
  rw [uncommented, text, eq_singleton_ledger_iff, rereadField, ← written] at back
  rw [reread, ← back, declarations]
  simp

/-- A field with its rendered type is a text that is read as this field and nothing else, unless the
rendered type has an `export` outside of brackets. This holds for each field of each source if the
brackets of its type match, and the type has no slash and no string with a quote or a backslash. -/
theorem ledger_rereads_iff (source : String) :
    (∀ v ∈ (declarations source).ledgers,
      ∃ type, v.declaredType = renderType type ∧ HoldsField v.name type (tokens source)) ∧
    ∀ name type, HoldsField name type (tokens source) → Balanced type → .punct '/' ∉ type →
      (∀ content, .str content ∈ type → IsPlainContent content.toList) →
      (declarations (fieldText ⟨name, renderType type⟩) = ⟨[], [⟨name, renderType type⟩]⟩ ↔
        .exportWord ∉ topTokens 0 (tokens (renderType type))) := by
  refine ⟨fun v hv => exists_holdsField hv, ?_⟩
  intro name type holds balanced slash strings
  obtain ⟨hn, nonempty, ht, semicolon⟩ := holds.type_spec balanced isLexical_of_mem_lex
  have plain : ∀ t ∈ type, t.IsPlain := by
    intro t mem
    have uncommented := (ht t mem).2
    cases t with
    | str content => exact strings content mem
    | punct c =>
      rintro rfl
      exact slash mem
    | comment line => cases uncommented
    | _ => trivial
  exact declarations_fieldText_iff hn nonempty (fun t mem => (ht t mem).1) plain balanced semicolon

/-- Brackets, a comma and its blank are read back. -/
theorem map_field_rereads :
    declarations (fieldText ⟨"m", "Map<A, B>"⟩) = ⟨[], [⟨"m", "Map<A, B>"⟩]⟩ := by
  have written : tokens "export sealed ledger m :Map<A,B> ;" =
      [.exportWord, .ident "sealed", .ident "ledger", .ident "m", .punct ':', .ident "Map",
        .punct '<', .ident "A", .punct ',', .ident "B", .punct '>', .punct ';'] := by
    decide +kernel
  have reach : RunsUpTo (· = .punct ';')
      [.ident "Map", .punct '<', .ident "A", .punct ',', .ident "B", .punct '>'] [.punct ';'] :=
    ⟨by decide, by decide⟩
  have holds : HoldsField "m" _ _ :=
    .mk [] _ _ _ (Or.inr ⟨"sealed", rfl, rfl⟩) reach rfl (by decide)
  have back := (ledger_rereads_iff "export sealed ledger m :Map<A,B> ;").2 _ _ (written ▸ holds)
    (by decide) (by decide) (by simp [withoutComments, Token.isComment])
  have text : renderType (withoutComments [.ident "Map", .punct '<', .ident "A", .punct ',',
      .ident "B", .punct '>']) = "Map<A, B>" := by decide +kernel
  rw [text] at back
  exact back.mpr (by decide +kernel)

/-- Two words side by side are one word when they are read again, and a backslash in a string is
lost. -/
theorem joined_words_and_backslash_lost :
    ((declarations "export ledger x: ex port;").ledgers = [⟨"x", "export"⟩] ∧
      HoldsField "x" [.ident "ex", .ident "port"] (tokens "export ledger x: ex port;") ∧
      renderType [.ident "ex", .ident "port"] = "export" ∧
      Balanced [.ident "ex", .ident "port"] ∧
      Token.punct '/' ∉ [Token.ident "ex", Token.ident "port"] ∧
      declarations (fieldText ⟨"x", "export"⟩) = ⟨[], []⟩) ∧
    (declarations "export ledger x: Opaque<\"a\\\\b\">;").ledgers =
      [⟨"x", "Opaque<\"a\\b\">"⟩] ∧
    declarations (fieldText ⟨"x", "Opaque<\"a\\b\">"⟩) = ⟨[], [⟨"x", "Opaque<\"ab\">"⟩]⟩ := by
  have written : tokens "export ledger x: ex port;" = [.exportWord, .ident "ledger", .ident "x",
      .punct ':', .ident "ex", .ident "port", .punct ';'] := by decide +kernel
  have reach : RunsUpTo (· = .punct ';') [.ident "ex", .ident "port"] [.punct ';'] :=
    ⟨by decide, by decide⟩
  have holds : HoldsField "x" _ _ := .mk [] _ _ _ (Or.inl rfl) reach rfl (by decide)
  refine ⟨⟨by decide +kernel, ?_, by decide +kernel, by decide, by decide, by decide +kernel⟩,
    by decide +kernel, by decide +kernel⟩
  rw [written]
  exact holds

end ContractSurface.Source
