import ContractSurface.Proofs.Source.Grammar

/-! # Recovery after a statement that is no declaration

What stands between an `export` and the next one is read as if the source ended there: every
reader stops at an `export` outside of brackets. The exception is a header, which breaks off where
a word is expected. The next `export` is then taken for that word, and what it declares is lost.
-/
namespace ContractSurface.Source

/-- Read from this depth on, the list leaves no bracket open. -/
def Settles (depth : Nat) (ts : List Token) : Prop :=
  ∃ n, depth ≤ n ∧ countAfter? n ts = some 0

theorem Balanced.settles {ts : List Token} (h : Balanced ts) : Settles 0 ts := ⟨0, Nat.le_refl 0, h⟩

theorem Settles.tail {depth : Nat} {t : Token} {ts : List Token} (h : Settles depth (t :: ts)) :
    Settles (t.depthAfter depth) ts := by
  obtain ⟨n, hd, hn⟩ := h
  obtain ⟨k, hk, hts⟩ := exists_count_of_cons hn
  exact ⟨k, Token.depthAfter_le_of_count hd hk, hts⟩

/-- The rest of a settled list is settled. -/
theorem Settles.of_suffix {depth : Nat} {ts us : List Token} (h : Settles depth ts)
    (hs : us <:+ ts) : Settles 0 us := by
  induction ts generalizing depth with
  | nil =>
    obtain rfl := List.suffix_nil.mp hs
    exact ⟨0, Nat.le_refl 0, rfl⟩
  | cons t ts ih =>
    rcases List.suffix_cons_iff.mp hs with rfl | hs
    · obtain ⟨n, _, hn⟩ := h
      exact ⟨n, Nat.zero_le n, hn⟩
    · exact ih h.tail hs

variable {ts : List Token} (rest : List Token)

/-- A reader's result, with an `export` and what follows it behind the part left unread. -/
def beforeExport {α : Type} (rest : List Token) (r : α × List Token) : α × List Token :=
  (r.1, r.2 ++ .exportWord :: rest)

/-- Collecting does not go beyond an `export` once the brackets are settled. -/
theorem collectUntil_beforeExport (stop : Token → Bool) {depth : Nat} (hs : Settles depth ts)
    (hx : .exportWord ∉ ts) :
    collectUntil stop depth (ts ++ .exportWord :: rest) =
      beforeExport rest (collectUntil stop depth ts) := by
  induction ts generalizing depth with
  | nil =>
    obtain ⟨n, hd, hn⟩ := hs
    obtain rfl : n = 0 := by simpa using hn
    obtain rfl : depth = 0 := Nat.le_zero.mp hd
    exact collectUntil_cons_stop rest (Or.inr rfl)
  | cons t ts ih =>
    have later := ih hs.tail fun h => hx (List.mem_cons_of_mem t h)
    rw [List.cons_append, collectUntil, collectUntil]
    split
    · rfl
    · rw [later]
      rfl

theorem skipGroup_beforeExport {n : Nat} (hc : countAfter? (n + 1) ts = some 0) :
    skipGroup (n + 1) (ts ++ .exportWord :: rest) =
      skipGroup (n + 1) ts ++ .exportWord :: rest := by
  induction ts generalizing n with
  | nil => simp at hc
  | cons t ts ih =>
    obtain ⟨k, hk, hts⟩ := exists_count_of_cons hc
    have hd := Token.depthAfter_of_count hk
    rw [List.cons_append, skipGroup, skipGroup, hd]
    cases k with
    | zero =>
      have closes : t.closes = true := by
        rcases Token.count_cases hk with ⟨_, h⟩ | ⟨_, h, _⟩ | ⟨_, _, h⟩
        · omega
        · exact h
        · omega
      rw [if_pos ⟨closes, rfl⟩, if_pos ⟨closes, rfl⟩]
    | succ k =>
      rw [if_neg (by simp), if_neg (by simp)]
      exact ih hts

theorem readLedger_beforeExport (hne : ts ≠ []) (hs : Settles 0 ts) (hx : .exportWord ∉ ts) :
    readLedger (ts ++ .exportWord :: rest) = beforeExport rest (readLedger ts) := by
  have broken {name : String} {t : Token} (us : List Token) (ht : t ≠ .punct ':') :
      readLedger (.ident name :: t :: us) = (none, t :: us) := by
    simp [readLedger, ht]
  cases ts with
  | nil => exact absurd rfl hne
  | cons t ts =>
    cases t with
    | ident name =>
      cases ts with
      | nil => rfl
      | cons t ts =>
        by_cases ht : t = .punct ':'
        · subst ht
          have collected := collectUntil_beforeExport rest (· = .punct ';')
            (hs.of_suffix (List.suffix_append [_, _] ts)) fun h => hx (by simp [h])
          simp only [List.cons_append, readLedger, collected, beforeExport]
          cases (collectUntil (· = .punct ';') 0 ts).2 with
          | nil => rfl
          | cons u us =>
            by_cases hu : u = .punct ';'
            · simp [hu]
            · simp [hu]
        · rw [List.cons_append, List.cons_append, broken _ ht, broken _ ht]
          rfl
    | _ => rfl

theorem readReturnType_beforeExport (hs : Settles 0 ts) (hx : .exportWord ∉ ts) :
    readReturnType (ts ++ .exportWord :: rest) = beforeExport rest (readReturnType ts) := by
  have untyped {t : Token} (us : List Token) (ht : t ≠ .punct ':') :
      readReturnType (t :: us) = (voidType, t :: us) := by
    simp [readReturnType, ht]
  cases ts with
  | nil => rfl
  | cons t ts =>
    by_cases ht : t = .punct ':'
    · subst ht
      have collected := collectUntil_beforeExport rest
        (fun t => t = .punct '\x7b' || t = .punct ';')
        (hs.of_suffix (List.suffix_cons _ ts)) fun h => hx (by simp [h])
      simp only [List.cons_append, readReturnType, collected, beforeExport]
    · rw [List.cons_append, untyped _ ht, untyped _ ht]
      rfl

theorem afterGroup_beforeExport (hb : Balanced ts) :
    afterGroup (ts ++ .exportWord :: rest) = afterGroup ts ++ .exportWord :: rest := by
  cases ts with
  | nil => rfl
  | cons t ts =>
    by_cases ht : t = .punct '<'
    · subst ht
      have skipped : skipGroup 1 (ts ++ .exportWord :: rest) =
          skipGroup 1 ts ++ .exportWord :: rest := skipGroup_beforeExport rest hb
      exact skipped
    · simp [afterGroup, ht]

/-- A signature ends before the next `export`. -/
theorem readSignature_beforeExport (name : String) (doc : List String) (hs : Settles 0 ts)
    (hx : .exportWord ∉ ts) :
    readSignature name doc (ts ++ .exportWord :: rest) =
      beforeExport rest (readSignature name doc ts) := by
  have broken {t : Token} (us : List Token) (ht : t ≠ .punct '(') :
      readSignature name doc (t :: us) = (none, t :: us) := by
    simp [readSignature, ht]
  cases ts with
  | nil => rfl
  | cons t ts =>
    by_cases ht : t = .punct '('
    · subst ht
      have hs' : Settles 0 ts := hs.of_suffix (List.suffix_cons _ ts)
      have hx' : .exportWord ∉ ts := fun h => hx (by simp [h])
      have collected := collectUntil_beforeExport rest (· = .punct ')') hs' hx'
      have left := collectUntil_suffix (· = .punct ')') 0 ts
      simp only [List.cons_append, readSignature, collected, beforeExport]
      cases hr : (collectUntil (· = .punct ')') 0 ts).2 with
      | nil => rfl
      | cons u us =>
        by_cases hu : u = .punct ')'
        · subst hu
          rw [hr] at left
          have typed := readReturnType_beforeExport rest
            (hs'.of_suffix ((List.suffix_cons _ us).trans left))
            fun h => hx' (left.subset (List.mem_cons_of_mem _ h))
          simp only [List.cons_append, typed, beforeExport]
        · simp [hu]
    · rw [List.cons_append, broken _ ht, broken _ ht]
      rfl

/-- A whole circuit ends before the next `export`, too. -/
theorem readCircuit_beforeExport (doc : List String) (hne : ts ≠ []) (hb : Balanced ts)
    (hx : .exportWord ∉ ts) :
    readCircuit doc (ts ++ .exportWord :: rest) = beforeExport rest (readCircuit doc ts) := by
  cases ts with
  | nil => exact absurd rfl hne
  | cons t ts =>
    cases t with
    | ident name =>
      have hb' : Balanced ts := hb
      have left := afterGroup_suffix ts
      rw [List.cons_append, readCircuit, readCircuit, afterGroup_beforeExport rest hb']
      exact readSignature_beforeExport rest name doc (hb'.settles.of_suffix left)
        fun h => hx (List.mem_cons_of_mem _ (left.subset h))
    | _ => rfl

theorem readStatement_beforeExport (doc : List String) (keyword : String) (hne : ts ≠ [])
    (hb : Balanced ts) (hx : .exportWord ∉ ts) :
    readStatement doc keyword (ts ++ .exportWord :: rest) =
      beforeExport rest (readStatement doc keyword ts) := by
  unfold readStatement
  split
  · exact readLedger_beforeExport rest hne hb.settles hx
  · split
    · exact readCircuit_beforeExport rest doc hne hb hx
    · rfl

def headers : List (List String) :=
  [[], ["sealed"], ["pure"]].flatMap fun modifier =>
    [[], ["ledger"], ["circuit"]].map fun keyword => modifier ++ keyword

def IsHeader (ts : List Token) : Prop := ∃ words ∈ headers, ts = words.map .ident

instance (ts : List Token) : Decidable (IsHeader ts) :=
  inferInstanceAs (Decidable (∃ words ∈ headers, _))

theorem eq_of_isModifier {word : String} (h : isModifier word = true) :
    word = "sealed" ∨ word = "pure" := by
  simpa [isModifier] using h

theorem readStatement_keyword {keyword : String} (doc : List String) (modifier : List String)
    (hm : modifier = [] ∨ modifier = ["sealed"] ∨ modifier = ["pure"])
    (hh : ¬IsHeader ((modifier ++ [keyword]).map .ident)) :
    readStatement doc keyword (.exportWord :: rest) =
      beforeExport rest (readStatement doc keyword []) := by
  have ledger : keyword ≠ "ledger" := by
    rintro rfl
    apply hh
    rcases hm with rfl | rfl | rfl <;> exact ⟨_, by decide, rfl⟩
  have circuit : keyword ≠ "circuit" := by
    rintro rfl
    apply hh
    rcases hm with rfl | rfl | rfl <;> exact ⟨_, by decide, rfl⟩
  simp [readStatement, ledger, circuit, beforeExport]

/-- Unless it is a header, what follows an `export` is read as if nothing came after it. -/
theorem readExport_beforeExport (doc : List String) (hb : Balanced ts) (hx : .exportWord ∉ ts)
    (hh : ¬IsHeader ts) :
    readExport doc (ts ++ .exportWord :: rest) = beforeExport rest (readExport doc ts) := by
  cases ts with
  | nil => exact absurd ⟨[], by decide, rfl⟩ hh
  | cons t ts =>
    cases t with
    | ident word =>
      have hb' : Balanced ts := hb
      have hx' : .exportWord ∉ ts := fun h => hx (List.mem_cons_of_mem _ h)
      cases hw : isModifier word with
      | true =>
        have modifier := eq_of_isModifier hw
        cases ts with
        | nil =>
          refine absurd ⟨[word], ?_, rfl⟩ hh
          rcases modifier with rfl | rfl <;> decide
        | cons t ts =>
          cases t with
          | ident keyword =>
            simp only [List.cons_append, readExport_of_modifier doc keyword _ hw]
            cases ts with
            | nil =>
              refine readStatement_keyword rest doc [word] (Or.inr ?_) hh
              simpa using modifier
            | cons u us =>
              exact readStatement_beforeExport rest doc keyword (by simp) hb'
                fun h => hx' (List.mem_cons_of_mem _ h)
          | _ => simp [readExport, hw, beforeExport]
      | false =>
        simp only [List.cons_append, readExport_of_keyword doc _ hw]
        cases ts with
        | nil => exact readStatement_keyword rest doc [] (Or.inl rfl) hh
        | cons u us => exact readStatement_beforeExport rest doc word (by simp) hb' hx'
    | _ => rfl

/-- After a header the next `export` is taken for a word of the statement that breaks off. -/
theorem readExport_header {word : String} (doc : List String) (hh : IsHeader ts) :
    readExport doc (ts ++ .exportWord :: .ident word :: rest) = (none, .ident word :: rest) := by
  obtain ⟨words, hw, rfl⟩ := hh
  simp only [headers, List.flatMap_cons, List.flatMap_nil, List.map_cons, List.map_nil,
    List.nil_append, List.append_nil, List.cons_append, List.mem_cons, List.not_mem_nil,
    or_false] at hw
  rcases hw with rfl | rfl | rfl | rfl | rfl | rfl | rfl | rfl | rfl <;> rfl

inductive Statement where
  | ledger (f : LedgerForm)
  | circuit (f : CircuitForm)
  deriving DecidableEq, Repr

namespace Statement

def tokens : Statement → List Token
  | .ledger f => f.tokens
  | .circuit f => f.tokens

def WellFormed : Statement → Prop
  | .ledger f => f.WellFormed
  | .circuit f => f.WellFormed

instance (s : Statement) : Decidable s.WellFormed :=
  match s with
  | .ledger f => inferInstanceAs (Decidable f.WellFormed)
  | .circuit f => inferInstanceAs (Decidable f.WellFormed)

def declaration (s : Statement) (doc : List String) : Declaration :=
  match s with
  | .ledger f => .ledger f.field
  | .circuit f => .circuit (f.circuit doc)

def declarations (s : Statement) (doc : List String) : Declarations :=
  match s with
  | .ledger f => ⟨[], [f.field]⟩
  | .circuit f => ⟨[f.circuit doc], []⟩

theorem readDeclarations_append {s : Statement} (hs : s.WellFormed) (doc : List String)
    (rest : List Token) :
    readDeclarations doc (s.tokens ++ rest) = s.declaration doc :: readDeclarations [] rest := by
  cases s with
  | ledger f => exact LedgerForm.readDeclarations_tokens hs doc rest
  | circuit f => exact CircuitForm.readDeclarations_tokens hs doc rest

theorem readDeclarations_tokens {s : Statement} (hs : s.WellFormed) (doc : List String) :
    readDeclarations doc s.tokens = [s.declaration doc] := by
  have nothing : readDeclarations [] [] = [] := by rw [readDeclarations]
  have read := readDeclarations_append hs doc []
  rwa [List.append_nil, nothing] at read

theorem exists_tokens_eq (s : Statement) :
    ∃ word rest, s.tokens = .exportWord :: .ident word :: rest := by
  cases s with
  | ledger f =>
    cases hm : f.isSealed with
    | false => exact ⟨"ledger", _, by simp [tokens, LedgerForm.tokens, hm]; rfl⟩
    | true => exact ⟨"sealed", _, by simp [tokens, LedgerForm.tokens, hm]; rfl⟩
  | circuit f =>
    cases hm : f.isPure with
    | false => exact ⟨"circuit", _, by simp [tokens, CircuitForm.tokens, hm]; rfl⟩
    | true => exact ⟨"pure", _, by simp [tokens, CircuitForm.tokens, hm]; rfl⟩

end Statement

theorem mem_of_mem_foldl_noteAfter {line : String} {doc : List String}
    (h : line ∈ ts.foldl Token.noteAfter doc) : line ∈ doc ∨ .comment line ∈ ts := by
  induction ts generalizing doc with
  | nil => exact Or.inl h
  | cons t ts ih =>
    rcases ih h with hd | ht
    · cases t with
      | comment l =>
        rcases List.mem_append.mp hd with hd | hd
        · exact Or.inl hd
        · obtain rfl := List.mem_singleton.mp hd
          exact Or.inr List.mem_cons_self
      | _ => cases hd
    · exact Or.inr (List.mem_cons_of_mem t ht)

/-- A statement that declares nothing and is no header lets the next one be read. -/
theorem readDeclarations_after_malformed {s : Statement} (hb : Balanced ts)
    (hx : .exportWord ∉ ts) (hn : readDeclarations [] (.exportWord :: ts) = [])
    (hh : ¬IsHeader ts) (hs : s.WellFormed) :
    ∃ doc, (∀ line ∈ doc, .comment line ∈ ts) ∧
      readDeclarations [] (.exportWord :: (ts ++ s.tokens)) = [s.declaration doc] := by
  obtain ⟨word, rest, he⟩ := s.exists_tokens_eq
  have left := readExport_suffix [] ts
  have hx' : .exportWord ∉ (readExport [] ts).2 := fun h => hx (left.subset h)
  have none : (readExport [] ts).1.toList = [] := by
    rw [readDeclarations_export] at hn
    exact (List.append_eq_nil_iff.mp hn).1
  have read := readExport_beforeExport (.ident word :: rest) [] hb hx hh
  refine ⟨(readExport [] ts).2.foldl Token.noteAfter [], ?_, ?_⟩
  · intro line hl
    rcases mem_of_mem_foldl_noteAfter hl with h | h
    · cases h
    · exact left.subset h
  · rw [readDeclarations_export, he, read, beforeExport, none, List.nil_append,
      readDeclarations_append_noise _ _ hx', ← he, Statement.readDeclarations_tokens hs]

/-- After a header the next statement is lost, and only an `export` inside of it can be read. -/
theorem readDeclarations_after_header {s : Statement} (hh : IsHeader ts) :
    readDeclarations [] (.exportWord :: (ts ++ s.tokens)) = readDeclarations [] s.tokens.tail := by
  obtain ⟨word, rest, he⟩ := s.exists_tokens_eq
  rw [he, readDeclarations_export, readExport_header rest [] hh]
  rfl

def laterField : Statement := .ledger ⟨false, "x", [.ident "F"]⟩

def textAfter (words : List String) : String :=
  " ".intercalate ("export" :: words) ++ " export ledger x: F;"

theorem tokens_textAfter : ∀ words ∈ headers,
    tokens (textAfter words) = .exportWord :: (words.map .ident ++ laterField.tokens) := by
  decide +kernel

/-- A statement that declares nothing lets every declaration after it be read, and nothing more,
if and only if it is no header. -/
theorem declarations_after_malformed_iff {ts : List Token} (hb : Balanced ts)
    (hx : .exportWord ∉ ts) (hn : readDeclarations [] (.exportWord :: ts) = []) :
    (∀ s : Statement, s.WellFormed →
      ∀ source, tokens source = .exportWord :: (ts ++ s.tokens) →
        ∃ doc, (∀ line ∈ doc, .comment line ∈ ts) ∧
          declarations source = s.declarations doc) ↔ ¬IsHeader ts := by
  constructor
  · intro h hh
    obtain ⟨words, hw, rfl⟩ := hh
    obtain ⟨doc, _, found⟩ := h laterField (by decide) _ (tokens_textAfter words hw)
    have lost : readDeclarations [] (tokens (textAfter words)) = [] := by
      rw [tokens_textAfter words hw, readDeclarations_after_header ⟨words, hw, rfl⟩]
      exact readDeclarations_eq_nil [] (by decide)
    rw [declarations_of_read lost] at found
    cases found
  · intro hh s hs source ht
    obtain ⟨doc, hd, read⟩ := readDeclarations_after_malformed hb hx hn hh hs
    refine ⟨doc, hd, ?_⟩
    rw [← ht] at read
    rw [declarations_of_read read]
    cases s <;> rfl

theorem declarations_after_missing_colon :
    Balanced [.ident "ledger", .ident "y", .ident "G", .punct ';'] ∧
      .exportWord ∉ [Token.ident "ledger", .ident "y", .ident "G", .punct ';'] ∧
      readDeclarations [] (.exportWord :: [.ident "ledger", .ident "y", .ident "G", .punct ';']) =
        [] ∧
      ∃ doc, declarations "export ledger y G; export ledger x: F;" =
        laterField.declarations doc := by
  have hb : Balanced [.ident "ledger", .ident "y", .ident "G", .punct ';'] := by decide
  have hx : .exportWord ∉ [Token.ident "ledger", .ident "y", .ident "G", .punct ';'] := by decide
  have hn : readDeclarations []
      (.exportWord :: [.ident "ledger", .ident "y", .ident "G", .punct ';']) = [] := by
    decide +kernel
  have hh : ¬IsHeader [.ident "ledger", .ident "y", .ident "G", .punct ';'] := by decide
  obtain ⟨doc, _, found⟩ := (declarations_after_malformed_iff hb hx hn).mpr hh laterField
    (by decide) "export ledger y G; export ledger x: F;" (by decide +kernel)
  exact ⟨hb, hx, hn, doc, found⟩

/-- A keyword without a name hides the declaration after it. -/
theorem declarations_after_bare_keyword :
    Balanced [.ident "ledger"] ∧ .exportWord ∉ [Token.ident "ledger"] ∧
      readDeclarations [] [.exportWord, .ident "ledger"] = [] ∧ laterField.WellFormed ∧
      tokens "export ledger export ledger x: F;" =
        .exportWord :: ([.ident "ledger"] ++ laterField.tokens) ∧
      declarations "export ledger export ledger x: F;" = ⟨[], []⟩ ∧
      ∀ doc, declarations "export ledger export ledger x: F;" ≠ laterField.declarations doc := by
  have lost : declarations "export ledger export ledger x: F;" = ⟨[], []⟩ := by decide +kernel
  refine ⟨by decide, by decide, by decide +kernel, by decide, by decide +kernel, lost, ?_⟩
  intro doc h
  rw [lost] at h
  cases h

end ContractSurface.Source
