import ContractSurface.Proofs.Source.Grammar

/-! # Every well-formed declaration is read

A source that is made of well-formed declarations and of tokens between them is read as exactly
these declarations. A parameter list is made of parameters with commas between them; comments may
stand anywhere in it.
-/
namespace ContractSurface.Source

/-- A parameter: words, the last of which is its name, and maybe a colon with a type. -/
structure ParameterForm where
  words : List String
  name : String
  type : Option (List Token)
  deriving DecidableEq, Repr

namespace ParameterForm

def typeTokens (p : ParameterForm) : List Token :=
  match p.type with
  | some ts => .punct ':' :: ts
  | none => []

def tokens (p : ParameterForm) : List Token :=
  (p.words ++ [p.name]).map .ident ++ p.typeTokens

structure WellFormed (p : ParameterForm) : Prop where
  words_ne : "export" ∉ p.words ++ [p.name]
  typeBalanced : ∀ ts ∈ p.type, Balanced ts
  typeClosed : ∀ ts ∈ p.type, ∀ t ∈ topTokens 0 ts, t ≠ .punct ',' ∧ t ≠ .exportWord

instance (p : ParameterForm) : Decidable p.WellFormed :=
  decidable_of_iff ("export" ∉ p.words ++ [p.name] ∧ (∀ ts ∈ p.type, Balanced ts) ∧
      ∀ ts ∈ p.type, ∀ t ∈ topTokens 0 ts, t ≠ .punct ',' ∧ t ≠ .exportWord)
    ⟨fun h => ⟨h.1, h.2.1, h.2.2⟩, fun h => ⟨h.words_ne, h.typeBalanced, h.typeClosed⟩⟩

def parameter (p : ParameterForm) : Parameter := ⟨p.name, renderType (p.type.getD [])⟩

theorem countAfter?_words (n : Nat) (words : List String) :
    countAfter? n (words.map .ident) = some n := by
  induction words with
  | nil => rfl
  | cons w words ih => exact ih

theorem topTokens_words (words : List String) :
    topTokens 0 (words.map .ident) = words.map .ident := by
  induction words with
  | nil => rfl
  | cons w words ih =>
    rw [List.map_cons, topTokens, if_pos rfl]
    exact congrArg _ ih

theorem balanced_typeTokens {p : ParameterForm} (hp : p.WellFormed) : Balanced p.typeTokens := by
  unfold typeTokens
  cases ht : p.type with
  | none => rfl
  | some ts => exact hp.typeBalanced ts ht

theorem balanced_tokens {p : ParameterForm} (hp : p.WellFormed) : Balanced p.tokens :=
  Balanced.append (countAfter?_words 0 _) (balanced_typeTokens hp)

/-- A written parameter has no comma and no `export` outside of brackets. -/
theorem closed_tokens {p : ParameterForm} (hp : p.WellFormed) :
    ∀ t ∈ topTokens 0 p.tokens, t ≠ .punct ',' ∧ t ≠ .exportWord := by
  intro t ht
  rw [tokens, topTokens_append _ (countAfter?_words 0 _), topTokens_words] at ht
  rcases List.mem_append.mp ht with ht | ht
  · obtain ⟨w, hw, rfl⟩ := List.mem_map.mp ht
    refine ⟨by simp, ?_⟩
    intro he
    cases he
    exact hp.words_ne hw
  · unfold typeTokens at ht
    cases hty : p.type with
    | none => simp [hty, topTokens] at ht
    | some ts =>
      rw [hty] at ht
      rcases mem_topTokens_cons_iff.mp ht with ⟨_, rfl⟩ | ht
      · exact ⟨by decide, by decide⟩
      · exact hp.typeClosed ts hty t ht

/-- A written parameter is read as it is meant. -/
theorem parameter?_tokens (p : ParameterForm) : parameter? p.tokens = some p.parameter := by
  have named : ∀ t ∈ (p.words ++ [p.name]).map Token.ident, (t != Token.punct ':') = true := by
    intro t ht
    obtain ⟨w, _, rfl⟩ := List.mem_map.mp ht
    rfl
  unfold parameter? tokens parameter typeTokens
  dsimp only
  rw [List.takeWhile_append_of_pos named, List.dropWhile_append_of_pos named]
  cases p.type with
  | none => simp [lastWord?]
  | some ts => simp [lastWord?]

end ParameterForm

def parameterTokens (ps : List ParameterForm) : List Token :=
  [.punct ','].intercalate (ps.map ParameterForm.tokens)

/-- A written list of parameters is read as it is meant. -/
theorem splitParameters_parameterTokens {ps : List ParameterForm}
    (hp : ∀ p ∈ ps, p.WellFormed) :
    splitParameters (parameterTokens ps) = ps.map ParameterForm.parameter := by
  by_cases hps : ps = []
  · subst hps
    rfl
  · have cut : commaSegments 0 (parameterTokens ps) = ps.map ParameterForm.tokens := by
      apply commaSegments_intercalate
      · simpa using hps
      · intro s hs
        obtain ⟨p, hm, rfl⟩ := List.mem_map.mp hs
        have closed := ParameterForm.closed_tokens (hp p hm)
        exact ⟨ParameterForm.balanced_tokens (hp p hm), fun t ht => (closed t ht).1⟩
    have read : parameter? ∘ ParameterForm.tokens = some ∘ ParameterForm.parameter :=
      funext ParameterForm.parameter?_tokens
    rw [splitParameters, cut, List.filterMap_map, read, List.filterMap_eq_map]

theorem balanced_parameterTokens {ps : List ParameterForm} (hp : ∀ p ∈ ps, p.WellFormed) :
    Balanced (parameterTokens ps) ∧ Token.exportWord ∉ topTokens 0 (parameterTokens ps) := by
  induction ps with
  | nil => exact ⟨rfl, List.not_mem_nil⟩
  | cons p rest ih =>
    have hb := ParameterForm.balanced_tokens (hp p List.mem_cons_self)
    have hx : Token.exportWord ∉ topTokens 0 p.tokens := fun h =>
      (ParameterForm.closed_tokens (hp p List.mem_cons_self) _ h).2 rfl
    cases rest with
    | nil =>
      have single : parameterTokens [p] = p.tokens := by simp [parameterTokens]
      rw [single]
      exact ⟨hb, hx⟩
    | cons q qs =>
      obtain ⟨hbr, hxr⟩ := ih fun r hr => hp r (List.mem_cons_of_mem p hr)
      have split : parameterTokens (p :: q :: qs) =
          p.tokens ++ .punct ',' :: parameterTokens (q :: qs) := by
        simp [parameterTokens, List.intercalate_cons_cons]
      rw [split]
      refine ⟨hb.append hbr, ?_⟩
      rw [topTokens_append _ hb]
      intro h
      rcases List.mem_append.mp h with h | h
      · exact hx h
      · rcases mem_topTokens_cons_iff.mp h with ⟨_, h⟩ | h
        · cases h
        · exact hxr h

structure CircuitForm.Lists (f : CircuitForm) (ps : List ParameterForm) : Prop where
  wellFormed : ∀ p ∈ ps, p.WellFormed
  joined : withoutComments f.parameters = parameterTokens ps

instance (f : CircuitForm) (ps : List ParameterForm) : Decidable (f.Lists ps) :=
  decidable_of_iff ((∀ p ∈ ps, p.WellFormed) ∧ withoutComments f.parameters = parameterTokens ps)
    ⟨fun h => ⟨h.1, h.2⟩, fun h => ⟨h.wellFormed, h.joined⟩⟩

theorem CircuitForm.Lists.wellFormed_circuit {f : CircuitForm} {ps : List ParameterForm}
    (hl : f.Lists ps) (hf : f.WellFramed) : f.WellFormed := by
  obtain ⟨hb, hx⟩ := balanced_parameterTokens hl.wellFormed
  rw [← hl.joined] at hb hx
  have balanced : Balanced f.parameters :=
    (countAfter?_withoutComments 0 f.parameters).symm.trans hb
  refine ⟨hf, balanced, ?_⟩
  intro h
  rw [topTokens_withoutComments balanced] at hx
  exact hx (List.mem_filter.mpr ⟨h, rfl⟩)

inductive Item where
  | noise (t : Token)
  | ledger (f : LedgerForm)
  | circuit (f : CircuitForm) (parameters : List ParameterForm)
  deriving DecidableEq, Repr

namespace Item

def tokens : Item → List Token
  | .noise t => [t]
  | .ledger f => f.tokens
  | .circuit f _ => f.tokens

def WellFormed : Item → Prop
  | .noise t => t ≠ .exportWord
  | .ledger f => f.WellFormed
  | .circuit f ps => f.WellFramed ∧ f.Lists ps

instance (i : Item) : Decidable i.WellFormed :=
  match i with
  | .noise t => inferInstanceAs (Decidable (t ≠ .exportWord))
  | .ledger f => inferInstanceAs (Decidable f.WellFormed)
  | .circuit f ps => inferInstanceAs (Decidable (f.WellFramed ∧ f.Lists ps))

def field? : Item → Option StateVariable
  | .ledger f => some f.field
  | _ => none

/-- The circuits of a list of parts, each with the comment lines directly before it. -/
def circuits : List String → List Item → List Circuit
  | _, [] => []
  | doc, .noise t :: items => circuits (t.noteAfter doc) items
  | _, .ledger _ :: items => circuits [] items
  | doc, .circuit f ps :: items =>
    ⟨f.name, ps.map ParameterForm.parameter, f.returnType, doc⟩ :: circuits [] items

/-- The declarations among the parts are read one by one, and nothing else is. -/
theorem readDeclarations_items {items : List Item} (doc : List String)
    (hi : ∀ i ∈ items, i.WellFormed) :
    (readDeclarations doc (items.flatMap tokens)).filterMap Declaration.circuit? =
        circuits doc items ∧
      (readDeclarations doc (items.flatMap tokens)).filterMap Declaration.ledger? =
        items.filterMap field? := by
  induction items generalizing doc with
  | nil => simp [readDeclarations, circuits]
  | cons i items ih =>
    have rest := fun doc => ih doc fun j hj => hi j (List.mem_cons_of_mem i hj)
    have hw := hi i List.mem_cons_self
    rw [List.flatMap_cons]
    cases i with
    | noise t =>
      have passed : readDeclarations doc ((noise t).tokens ++ items.flatMap tokens) = _ :=
        readDeclarations_noise doc _ hw
      rw [passed]
      exact rest _
    | ledger f =>
      obtain ⟨hc, hl⟩ := rest []
      rw [tokens, LedgerForm.readDeclarations_tokens hw, List.filterMap_cons, List.filterMap_cons]
      exact ⟨hc, congrArg _ hl⟩
    | circuit f ps =>
      obtain ⟨hc, hl⟩ := rest []
      obtain ⟨hf, hps⟩ := hw
      have parameters : f.circuit doc =
          ⟨f.name, ps.map ParameterForm.parameter, f.returnType, doc⟩ := by
        rw [CircuitForm.circuit, hps.joined, splitParameters_parameterTokens hps.wellFormed]
      rw [tokens, CircuitForm.readDeclarations_tokens (hps.wellFormed_circuit hf),
        List.filterMap_cons, List.filterMap_cons, parameters]
      exact ⟨congrArg _ hc, hl⟩

end Item

/-- A source made of well-formed declarations and other tokens is read as exactly these
declarations, each kind in the order in which it is written. -/
theorem declarations_complete {source : String} {items : List Item}
    (hi : ∀ i ∈ items, i.WellFormed) (hs : tokens source = items.flatMap Item.tokens) :
    declarations source = ⟨Item.circuits [] items, items.filterMap Item.field?⟩ := by
  obtain ⟨hc, hl⟩ := Item.readDeclarations_items [] hi
  rw [declarations, hs]
  exact congr (congrArg _ hc) hl

def mixedItems : List Item :=
  [.noise (.comment "Adds"),
    .circuit ⟨true, "add", some [.ident "T"],
      [.ident "const", .ident "a", .punct ':', .ident "Map", .punct '<', .ident "A", .punct ',',
        .ident "B", .punct '>', .punct ',', .comment "last", .ident "b"],
      some [.ident "Field", .comment "result"]⟩
      [⟨["const"], "a",
        some [.ident "Map", .punct '<', .ident "A", .punct ',', .ident "B", .punct '>']⟩,
        ⟨[], "b", none⟩],
    .noise (.punct '\x7d'),
    .ledger ⟨true, "x", [.ident "Bytes", .punct '<', .number "32", .punct '>']⟩,
    .noise (.ident "import"), .noise (.ident "y"), .noise (.punct ';'),
    .circuit ⟨false, "tick", none, [], none⟩ []]

def mixedSource : String :=
  "// Adds\nexport pure circuit add<T>(const a: Map<A,B>, // last\n b): Field // result\n\x7b\x7d" ++
    "\nexport sealed ledger x: Bytes<32>; import y;\nexport circuit tick() \x7b"

theorem declarations_mixedSource :
    (∀ i ∈ mixedItems, i.WellFormed) ∧ tokens mixedSource = mixedItems.flatMap Item.tokens ∧
      declarations mixedSource =
        ⟨[⟨"add", [⟨"a", "Map<A, B>"⟩, ⟨"b", ""⟩], "Field", ["Adds"]⟩, ⟨"tick", [], "[]", []⟩],
          [⟨"x", "Bytes<32>"⟩]⟩ := by
  have hi : ∀ i ∈ mixedItems, i.WellFormed := by decide +kernel
  have hs : tokens mixedSource = mixedItems.flatMap Item.tokens := by decide +kernel
  refine ⟨hi, hs, (declarations_complete hi hs).trans ?_⟩
  decide +kernel

end ContractSurface.Source
