import ContractSurface.Proofs.Source.Brackets

/-! # The written forms of declarations

A form is what someone writes who declares a ledger field or a circuit. Reading the tokens of a
form gives back what the form declares, whatever follows it.
-/
namespace ContractSurface.Source

/-- The comment lines that stand directly before the next token, after the given one. -/
def Token.noteAfter (doc : List String) : Token → List String
  | .comment line => doc ++ [line]
  | _ => []

theorem readDeclarations_export (doc : List String) (ts : List Token) :
    readDeclarations doc (Token.exportWord :: ts) =
      (readExport doc ts).1.toList ++ readDeclarations [] (readExport doc ts).2 := by
  rw [Token.exportWord, readDeclarations]
  · exact if_pos rfl
  · intro line h
    cases h

/-- Any token but `export` is passed over, and a comment is kept for the next declaration. -/
theorem readDeclarations_noise {t : Token} (doc : List String) (ts : List Token)
    (h : t ≠ Token.exportWord) :
    readDeclarations doc (t :: ts) = readDeclarations (t.noteAfter doc) ts := by
  cases t with
  | comment line => rw [readDeclarations, Token.noteAfter]
  | _ =>
    rw [readDeclarations, if_neg h, Token.noteAfter]
    all_goals
      intro line hline
      cases hline

theorem readDeclarations_append_noise {ts : List Token} (doc : List String) (rest : List Token)
    (h : Token.exportWord ∉ ts) :
    readDeclarations doc (ts ++ rest) =
      readDeclarations (ts.foldl Token.noteAfter doc) rest := by
  induction ts generalizing doc with
  | nil => rfl
  | cons t ts ih =>
    obtain ⟨ht, hts⟩ := List.ne_and_not_mem_of_not_mem_cons h
    rw [List.cons_append, readDeclarations_noise _ _ ht.symm, ih _ hts, List.foldl_cons]

theorem readDeclarations_eq_nil {ts : List Token} (doc : List String)
    (h : Token.exportWord ∉ ts) : readDeclarations doc ts = [] := by
  have all := readDeclarations_append_noise doc [] h
  rw [List.append_nil] at all
  rw [all, readDeclarations]

theorem declarations_of_read {source : String} {found : List Declaration}
    (h : readDeclarations [] (tokens source) = found) :
    declarations source =
      ⟨found.filterMap Declaration.circuit?, found.filterMap Declaration.ledger?⟩ := by
  rw [declarations, h]

theorem length_filterMap_add (found : List Declaration) :
    (found.filterMap Declaration.circuit?).length + (found.filterMap Declaration.ledger?).length =
      found.length := by
  induction found with
  | nil => rfl
  | cons d found ih =>
    cases d with
    | ledger field =>
      simp only [List.filterMap_cons, Declaration.circuit?, Declaration.ledger?, List.length_cons]
      omega
    | circuit c =>
      simp only [List.filterMap_cons, Declaration.circuit?, Declaration.ledger?, List.length_cons]
      omega

theorem readExport_of_modifier {word : String} (doc : List String) (keyword : String)
    (ts : List Token) (hw : isModifier word = true) :
    readExport doc (.ident word :: .ident keyword :: ts) = readStatement doc keyword ts := by
  unfold readExport
  exact if_pos hw

theorem readExport_of_keyword {word : String} (doc : List String) (ts : List Token)
    (hw : isModifier word = false) :
    readExport doc (.ident word :: ts) = readStatement doc word ts := by
  unfold readExport
  exact if_neg (by simp [hw])

theorem readExport_modified {word keyword : String} (doc : List String) (isModified : Bool)
    (ts : List Token) (hw : isModifier word = true) (hk : isModifier keyword = false) :
    readExport doc ((if isModified then [.ident word] else []) ++ .ident keyword :: ts) =
      readStatement doc keyword ts := by
  cases isModified with
  | false => exact readExport_of_keyword doc ts hk
  | true => exact readExport_of_modifier doc keyword ts hw

/-- A ledger field: `export [sealed] ledger NAME : TYPE ;`. -/
structure LedgerForm where
  isSealed : Bool
  name : String
  type : List Token
  deriving DecidableEq, Repr

namespace LedgerForm

def tokens (f : LedgerForm) : List Token :=
  .exportWord :: ((if f.isSealed then [.ident "sealed"] else []) ++
    .ident "ledger" :: .ident f.name :: .punct ':' :: (f.type ++ [.punct ';']))

structure WellFormed (f : LedgerForm) : Prop where
  balanced : Balanced f.type
  closed : ∀ t ∈ topTokens 0 f.type, t ≠ .punct ';' ∧ t ≠ .exportWord
  nonempty : withoutComments f.type ≠ []

instance (f : LedgerForm) : Decidable f.WellFormed :=
  decidable_of_iff (Balanced f.type ∧ (∀ t ∈ topTokens 0 f.type, t ≠ .punct ';' ∧ t ≠ .exportWord) ∧
      withoutComments f.type ≠ [])
    ⟨fun h => ⟨h.1, h.2.1, h.2.2⟩, fun h => ⟨h.balanced, h.closed, h.nonempty⟩⟩

def field (f : LedgerForm) : StateVariable := ⟨f.name, renderType (withoutComments f.type)⟩

theorem readLedger_tokens {f : LedgerForm} (hf : f.WellFormed) (rest : List Token) :
    readLedger (.ident f.name :: .punct ':' :: (f.type ++ .punct ';' :: rest)) =
      (some (.ledger f.field), rest) := by
  have collected : collectUntil (· = .punct ';') 0 (f.type ++ .punct ';' :: rest) =
      (withoutComments f.type, .punct ';' :: rest) :=
    collectUntil_balanced rest hf.balanced (fun t ht => by simpa using hf.closed t ht) (by simp)
  simp [readLedger, collected, hf.nonempty, field]

/-- A written field is read as it is meant, whatever stands behind it. -/
theorem readDeclarations_tokens {f : LedgerForm} (hf : f.WellFormed) (doc : List String)
    (rest : List Token) :
    readDeclarations doc (f.tokens ++ rest) = .ledger f.field :: readDeclarations [] rest := by
  have read : readExport doc ((if f.isSealed then [.ident "sealed"] else []) ++
      .ident "ledger" :: .ident f.name :: .punct ':' :: (f.type ++ .punct ';' :: rest)) =
      (some (.ledger f.field), rest) := by
    rw [readExport_modified doc f.isSealed _ rfl rfl, readStatement, if_pos rfl]
    exact readLedger_tokens hf rest
  have tokens : f.tokens ++ rest = .exportWord :: ((if f.isSealed then [.ident "sealed"] else []) ++
      .ident "ledger" :: .ident f.name :: .punct ':' :: (f.type ++ .punct ';' :: rest)) := by
    simp [LedgerForm.tokens]
  rw [tokens, readDeclarations_export, read]
  rfl

end LedgerForm

/-- A circuit: `export [pure] circuit NAME [< GENERICS >] ( PARAMETERS ) [: RESULT]` and the brace
that opens its body. -/
structure CircuitForm where
  isPure : Bool
  name : String
  generics : Option (List Token)
  parameters : List Token
  result : Option (List Token)
  deriving DecidableEq, Repr

namespace CircuitForm

def genericTokens (f : CircuitForm) : List Token :=
  match f.generics with
  | some ts => .punct '<' :: (ts ++ [.punct '>'])
  | none => []

def resultTokens (f : CircuitForm) : List Token :=
  match f.result with
  | some ts => .punct ':' :: ts
  | none => []

def tokens (f : CircuitForm) : List Token :=
  .exportWord :: ((if f.isPure then [.ident "pure"] else []) ++
    .ident "circuit" :: .ident f.name :: (f.genericTokens ++
      .punct '(' :: (f.parameters ++ .punct ')' :: (f.resultTokens ++ [.punct '\x7b']))))

structure WellFramed (f : CircuitForm) : Prop where
  genericsBalanced : ∀ ts ∈ f.generics, Balanced ts
  resultBalanced : ∀ ts ∈ f.result, Balanced ts
  resultClosed : ∀ ts ∈ f.result, ∀ t ∈ topTokens 0 ts,
    t ≠ .punct '\x7b' ∧ t ≠ .punct ';' ∧ t ≠ .exportWord

instance (f : CircuitForm) : Decidable f.WellFramed :=
  decidable_of_iff ((∀ ts ∈ f.generics, Balanced ts) ∧ (∀ ts ∈ f.result, Balanced ts) ∧
      ∀ ts ∈ f.result, ∀ t ∈ topTokens 0 ts,
        t ≠ .punct '\x7b' ∧ t ≠ .punct ';' ∧ t ≠ .exportWord)
    ⟨fun h => ⟨h.1, h.2.1, h.2.2⟩, fun h => ⟨h.genericsBalanced, h.resultBalanced, h.resultClosed⟩⟩

structure WellFormed (f : CircuitForm) : Prop extends WellFramed f where
  parametersBalanced : Balanced f.parameters
  parametersClosed : .exportWord ∉ topTokens 0 f.parameters

instance (f : CircuitForm) : Decidable f.WellFormed :=
  decidable_of_iff
    (f.WellFramed ∧ Balanced f.parameters ∧ .exportWord ∉ topTokens 0 f.parameters)
    ⟨fun h => ⟨h.1, h.2.1, h.2.2⟩,
      fun h => ⟨h.toWellFramed, h.parametersBalanced, h.parametersClosed⟩⟩

def returnType (f : CircuitForm) : String :=
  match f.result with
  | some ts => renderType (withoutComments ts)
  | none => voidType

def circuit (f : CircuitForm) (doc : List String) : Circuit :=
  ⟨f.name, splitParameters (withoutComments f.parameters), f.returnType, doc⟩

/-- The result is read up to the brace of the body. -/
theorem readReturnType_tokens {f : CircuitForm} (hf : f.WellFramed) (rest : List Token) :
    readReturnType (f.resultTokens ++ .punct '\x7b' :: rest) =
      (f.returnType, .punct '\x7b' :: rest) := by
  unfold resultTokens returnType
  cases hr : f.result with
  | none => rfl
  | some ts =>
    have collected : collectUntil (fun t => t = .punct '\x7b' || t = .punct ';') 0
        (ts ++ .punct '\x7b' :: rest) = (withoutComments ts, .punct '\x7b' :: rest) := by
      refine collectUntil_balanced rest (hf.resultBalanced ts hr) ?_ (by simp)
      intro t ht
      obtain ⟨brace, semicolon, word⟩ := hf.resultClosed ts hr t ht
      simp [brace, semicolon, word]
    simp [readReturnType, collected]

theorem afterGroup_generics {f : CircuitForm} (hf : f.WellFramed) {ts : List Token}
    (hg : f.generics = some ts) (rest : List Token) :
    afterGroup (f.genericTokens ++ rest) = rest := by
  have skipped := skipGroup_angles rest (hf.genericsBalanced ts hg)
  simpa [genericTokens, hg, afterGroup] using skipped

theorem afterGroup_tokens {f : CircuitForm} (hf : f.WellFramed) (rest : List Token) :
    afterGroup (f.genericTokens ++ .punct '(' :: rest) = .punct '(' :: rest := by
  cases hg : f.generics with
  | none => simp [genericTokens, hg, afterGroup]
  | some ts => exact afterGroup_generics hf hg _

/-- A circuit is read up to its parameter list, whatever follows that. -/
theorem readCircuit_signature {f : CircuitForm} (hf : f.WellFormed) (doc : List String)
    (rest : List Token) :
    readCircuit doc (.ident f.name :: (f.genericTokens ++
      .punct '(' :: (f.parameters ++ .punct ')' :: rest))) =
      (some (.circuit ⟨f.name, splitParameters (withoutComments f.parameters),
        (readReturnType rest).1, doc⟩), (readReturnType rest).2) := by
  have collected : collectUntil (· = .punct ')') 0 (f.parameters ++ .punct ')' :: rest) =
      (withoutComments f.parameters, .punct ')' :: rest) := by
    refine collectUntil_balanced _ hf.parametersBalanced ?_ (by simp)
    intro t ht
    have closes := closes_of_mem_topTokens hf.parametersBalanced ht
    refine ⟨decide_eq_false ?_, ?_⟩
    · rintro rfl
      cases closes
    · rintro rfl
      exact hf.parametersClosed ht
  rw [readCircuit, afterGroup_tokens hf.toWellFramed]
  simp [readSignature, collected]

theorem readCircuit_tokens {f : CircuitForm} (hf : f.WellFormed) (doc : List String)
    (rest : List Token) :
    readCircuit doc (.ident f.name :: (f.genericTokens ++
      .punct '(' :: (f.parameters ++ .punct ')' :: (f.resultTokens ++ .punct '\x7b' :: rest)))) =
      (some (.circuit (f.circuit doc)), .punct '\x7b' :: rest) := by
  rw [readCircuit_signature hf, readReturnType_tokens hf.toWellFramed]
  rfl

/-- A written circuit is read as it is meant, too. -/
theorem readDeclarations_tokens {f : CircuitForm} (hf : f.WellFormed) (doc : List String)
    (rest : List Token) :
    readDeclarations doc (f.tokens ++ rest) =
      .circuit (f.circuit doc) :: readDeclarations [] rest := by
  have read := readCircuit_tokens hf doc rest
  have tokens : f.tokens ++ rest = .exportWord :: ((if f.isPure then [.ident "pure"] else []) ++
      .ident "circuit" :: .ident f.name :: (f.genericTokens ++ .punct '(' :: (f.parameters ++
        .punct ')' :: (f.resultTokens ++ .punct '\x7b' :: rest)))) := by
    simp [CircuitForm.tokens]
  have keyword : ("circuit" : String) ≠ "ledger" := by decide
  rw [tokens, readDeclarations_export, readExport_modified doc f.isPure _ rfl rfl, readStatement,
    if_neg keyword, if_pos rfl, read]
  exact congrArg _ (readDeclarations_noise [] rest (by decide))

end CircuitForm

end ContractSurface.Source
