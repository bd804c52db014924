import ContractSurface.Interface.Analyze
import ContractSurface.Proofs.Source.Recovery

/-! # Comments inside declarations

A comment is passed over in brackets and in types. In front of a word or a sign that the reader
asks for at once it breaks the declaration off: the declaration is lost or, in front of the colon of
a result, the circuit is read as one that returns nothing.
-/
namespace ContractSurface.Source

variable {ts us : List Token} {line : String}

theorem comment_ne_export : Token.comment line ≠ .exportWord := by simp [Token.exportWord]

theorem withoutComments_append_comment :
    withoutComments (ts ++ .comment line :: us) = withoutComments (ts ++ us) := by
  simp [withoutComments, Token.isComment]

theorem countAfter?_append_comment (n : Nat) :
    countAfter? n (ts ++ .comment line :: us) = countAfter? n (ts ++ us) := by
  rw [← countAfter?_withoutComments, withoutComments_append_comment, countAfter?_withoutComments]

theorem mem_topTokens_append_comment {n : Nat} {t : Token}
    (h : t ∈ topTokens n (ts ++ .comment line :: us)) :
    t = .comment line ∨ t ∈ topTokens n (ts ++ us) := by
  induction ts generalizing n with
  | nil =>
    rcases mem_topTokens_cons_iff.mp h with ⟨_, rfl⟩ | h
    · exact Or.inl rfl
    · exact Or.inr h
  | cons u ts ih =>
    rcases mem_topTokens_cons_iff.mp h with h | h
    · exact Or.inr (mem_topTokens_cons_iff.mpr (Or.inl h))
    · rcases ih h with h | h
      · exact Or.inl h
      · exact Or.inr (mem_topTokens_cons_iff.mpr (Or.inr h))

/-- A list that is cut anywhere is cut before a given element or after it. -/
theorem append_cons_eq_append {α : Type} {xs ys left right : List α} {a : α}
    (h : xs ++ a :: ys = left ++ right) :
    (∃ zs, xs = left ++ zs ∧ right = zs ++ a :: ys) ∨
      ∃ zs, left = xs ++ a :: zs ∧ ys = zs ++ right := by
  rcases List.append_eq_append_iff.mp h with ⟨zs, rfl, hr⟩ | ⟨zs, rfl, rfl⟩
  · cases zs with
    | nil => exact Or.inl ⟨[], by simp, by simpa using hr.symm⟩
    | cons b zs =>
      obtain ⟨rfl, rfl⟩ := List.cons.inj hr
      exact Or.inr ⟨zs, rfl, rfl⟩
  · exact Or.inl ⟨zs, rfl, rfl⟩

theorem foldl_noteAfter_concat (doc : List String) {t : Token} (ht : t.isComment = false) :
    (ts ++ [t]).foldl Token.noteAfter doc = [] := by
  rw [List.foldl_append]
  cases t <;> first | rfl | cases ht

theorem readStatement_of_name {keyword name : String} {words : List Token} (doc : List String)
    (rest : List Token) (hk : keyword = "ledger" ∨ keyword = "circuit")
    (hw : words <+: [.ident name]) :
    readStatement doc keyword (words ++ .comment line :: rest) = (none, .comment line :: rest) := by
  rcases List.prefix_cons_iff.mp hw with rfl | ⟨more, rfl, hm⟩
  · rcases hk with rfl | rfl <;> rfl
  · obtain rfl := List.prefix_nil.mp hm
    rcases hk with rfl | rfl <;> rfl

/-- A comment among the words in front of a name, or behind the name, breaks the statement off. -/
theorem readExport_of_header {modifier keyword name : String} {words : List Token}
    (isModified : Bool) (doc : List String) (rest : List Token) (hm : isModifier modifier = true)
    (hk : keyword = "ledger" ∨ keyword = "circuit")
    (hw : words <+: (if isModified then [.ident modifier] else []) ++
      [.ident keyword, .ident name]) :
    readExport doc (words ++ .comment line :: rest) = (none, .comment line :: rest) := by
  have plain : isModifier keyword = false := by rcases hk with rfl | rfl <;> rfl
  cases isModified with
  | false =>
    rcases List.prefix_cons_iff.mp hw with rfl | ⟨named, rfl, hn⟩
    · rfl
    · exact (readExport_of_keyword doc _ plain).trans (readStatement_of_name doc rest hk hn)
  | true =>
    rcases List.prefix_cons_iff.mp hw with rfl | ⟨inner, rfl, hi⟩
    · rfl
    · rcases List.prefix_cons_iff.mp hi with rfl | ⟨named, rfl, hn⟩
      · simp [readExport, hm]
      · exact (readExport_of_modifier doc keyword _ hm).trans (readStatement_of_name doc rest hk hn)

/-- Nothing is declared up to the comment, and what follows it is read on its own. -/
def Loses (line : String) (before after : List Token) : Prop :=
  ∀ doc rest, readDeclarations doc (before ++ .comment line :: (after ++ rest)) =
    readDeclarations [line] (after ++ rest)

theorem loses_of_readExport {before after : List Token}
    (h : ∀ doc rest, readExport doc (before ++ .comment line :: rest) =
      (none, .comment line :: rest)) :
    Loses line (.exportWord :: before) after := by
  intro doc rest
  rw [List.cons_append, readDeclarations_export, h]
  exact readDeclarations_noise [] _ comment_ne_export

namespace LedgerForm

variable {f : LedgerForm}

def head (f : LedgerForm) : List Token :=
  (if f.isSealed then [.ident "sealed"] else []) ++ [.ident "ledger", .ident f.name]

theorem tokens_eq (f : LedgerForm) :
    f.tokens = .exportWord :: (f.head ++ .punct ':' :: (f.type ++ [.punct ';'])) := by
  simp [tokens, head]

/-- The positions between the colon and the semicolon. -/
inductive Shields (f : LedgerForm) : List Token → List Token → Prop where
  | type {ts us : List Token} : f.type = ts ++ us →
      Shields f (.exportWord :: (f.head ++ .punct ':' :: ts)) (us ++ [.punct ';'])

theorem readDeclarations_of_shields {before after : List Token} (hf : f.WellFormed)
    (hs : f.Shields before after) (doc : List String) (rest : List Token) :
    readDeclarations doc (before ++ .comment line :: (after ++ rest)) =
      .ledger f.field :: readDeclarations [] rest := by
  obtain ⟨ht⟩ := hs
  rename_i ts us
  let g : LedgerForm := { f with type := ts ++ .comment line :: us }
  have hg : g.WellFormed := by
    refine ⟨?_, ?_, ?_⟩
    · have balanced := hf.balanced
      rw [ht] at balanced
      exact (countAfter?_append_comment 0).trans balanced
    · intro t h
      rcases mem_topTokens_append_comment h with rfl | h
      · exact ⟨by simp, comment_ne_export⟩
      · exact hf.closed t (ht ▸ h)
    · have nonempty := hf.nonempty
      rw [ht] at nonempty
      rwa [show g.type = ts ++ .comment line :: us from rfl, withoutComments_append_comment]
  have same : g.field = f.field := by
    simp only [field, g, withoutComments_append_comment, ht]
  have read := readDeclarations_tokens hg doc rest
  rw [same, g.tokens_eq] at read
  simpa [g, head] using read

/-- A comment is passed over, or the declaration is lost. -/
theorem shields_or_loses (line : String) {before after : List Token}
    (ht : f.tokens = before ++ after) (hb : before ≠ []) (ha : after ≠ []) :
    f.Shields before after ∨ Loses line before after := by
  cases before with
  | nil => exact absurd rfl hb
  | cons t before =>
    rw [f.tokens_eq] at ht
    obtain ⟨rfl, cut⟩ := List.cons.inj ht
    rcases append_cons_eq_append cut with ⟨zs, hz, _⟩ | ⟨zs, rfl, hz⟩
    · refine Or.inr (loses_of_readExport fun doc rest => ?_)
      exact readExport_of_header f.isSealed doc rest rfl (Or.inl rfl) ⟨zs, hz.symm⟩
    · rcases append_cons_eq_append hz with ⟨us, hu, rfl⟩ | ⟨us, _, hu⟩
      · exact Or.inl (.type hu)
      · exact absurd (List.append_eq_nil_iff.mp hu.symm).2 ha

end LedgerForm

namespace CircuitForm

variable {f : CircuitForm}

def head (f : CircuitForm) : List Token :=
  (if f.isPure then [.ident "pure"] else []) ++ [.ident "circuit", .ident f.name]

def front (f : CircuitForm) : List Token := .exportWord :: (f.head ++ f.genericTokens)

def signature (f : CircuitForm) : List Token :=
  f.front ++ .punct '(' :: (f.parameters ++ [.punct ')'])

def tail (f : CircuitForm) : List Token := f.resultTokens ++ [.punct '\x7b']

theorem tokens_eq (f : CircuitForm) : f.tokens = f.signature ++ f.tail := by
  simp [tokens, signature, front, head, tail]

/-- The positions in brackets and in the result, and the one behind the parameter list when no
result is given that could be lost. -/
inductive Shields (f : CircuitForm) : List Token → List Token → Prop where
  | generics {ts us : List Token} : f.generics = some (ts ++ us) →
      Shields f (.exportWord :: (f.head ++ .punct '<' :: ts))
        (us ++ .punct '>' :: .punct '(' :: (f.parameters ++ .punct ')' :: f.tail))
  | parameters {ts us : List Token} : f.parameters = ts ++ us →
      Shields f (f.front ++ .punct '(' :: ts) (us ++ .punct ')' :: f.tail)
  | result {ts us : List Token} : f.result = some (ts ++ us) →
      Shields f (f.signature ++ .punct ':' :: ts) (us ++ [.punct '\x7b'])
  | noResult : f.returnType = voidType → .exportWord ∉ f.tail → Shields f f.signature f.tail

theorem readDeclarations_signature (hf : f.WellFormed) (doc : List String) (rest : List Token) :
    readDeclarations doc (f.signature ++ rest) =
      .circuit ⟨f.name, splitParameters (withoutComments f.parameters), (readReturnType rest).1,
          doc⟩ ::
        readDeclarations [] (readReturnType rest).2 := by
  have tokens : f.signature ++ rest = .exportWord :: ((if f.isPure then [.ident "pure"] else []) ++
      .ident "circuit" :: .ident f.name :: (f.genericTokens ++
        .punct '(' :: (f.parameters ++ .punct ')' :: rest))) := by
    simp [signature, front, head]
  have keyword : ("circuit" : String) ≠ "ledger" := by decide
  rw [tokens, readDeclarations_export, readExport_modified doc f.isPure _ rfl rfl, readStatement,
    if_neg keyword, if_pos rfl, readCircuit_signature hf]
  rfl

/-- With a comment behind its parameter list a circuit is read as one that returns nothing. -/
theorem readDeclarations_comment_signature (hf : f.WellFormed) (doc : List String)
    (rest : List Token) :
    readDeclarations doc (f.signature ++ .comment line :: rest) =
      .circuit { f.circuit doc with returnType := voidType } :: readDeclarations [line] rest := by
  have result : readReturnType (.comment line :: rest) = (voidType, .comment line :: rest) := rfl
  rw [readDeclarations_signature hf, result]
  exact congrArg _ (readDeclarations_noise [] rest comment_ne_export)

section Commented

variable {ts us : List Token} (hf : f.WellFormed)
include hf

theorem wellFormed_generics (line : String) (hg : f.generics = some (ts ++ us)) :
    CircuitForm.WellFormed { f with generics := some (ts ++ .comment line :: us) } := by
  refine ⟨⟨?_, hf.resultBalanced, hf.resultClosed⟩, hf.parametersBalanced, hf.parametersClosed⟩
  intro vs hv
  cases hv
  exact (countAfter?_append_comment 0).trans (hf.genericsBalanced _ hg)

theorem wellFormed_parameters (line : String) (hp : f.parameters = ts ++ us) :
    CircuitForm.WellFormed { f with parameters := ts ++ .comment line :: us } := by
  have balanced := hf.parametersBalanced
  rw [hp] at balanced
  refine ⟨⟨hf.genericsBalanced, hf.resultBalanced, hf.resultClosed⟩,
    (countAfter?_append_comment 0).trans balanced, ?_⟩
  intro h
  rcases mem_topTokens_append_comment h with h | h
  · exact comment_ne_export h.symm
  · exact hf.parametersClosed (hp ▸ h)

theorem wellFormed_result (line : String) (hr : f.result = some (ts ++ us)) :
    CircuitForm.WellFormed { f with result := some (ts ++ .comment line :: us) } := by
  refine ⟨⟨hf.genericsBalanced, ?_, ?_⟩, hf.parametersBalanced, hf.parametersClosed⟩
  · intro vs hv
    cases hv
    exact (countAfter?_append_comment 0).trans (hf.resultBalanced _ hr)
  · intro vs hv t h
    cases hv
    rcases mem_topTokens_append_comment h with rfl | h
    · exact ⟨by simp, by simp, comment_ne_export⟩
    · exact hf.resultClosed _ hr t h

end Commented

theorem readDeclarations_of_shields {before after : List Token} (hf : f.WellFormed)
    (hs : f.Shields before after) (doc : List String) (rest : List Token) :
    readDeclarations doc (before ++ .comment line :: (after ++ rest)) =
      .circuit (f.circuit doc) :: readDeclarations [] rest := by
  -- In three of the positions the comment makes another form of the same circuit.
  have again {g : CircuitForm} (hg : g.WellFormed) (same : g.circuit doc = f.circuit doc)
      (written : g.tokens = before ++ .comment line :: after) :
      readDeclarations doc (before ++ .comment line :: (after ++ rest)) =
        .circuit (f.circuit doc) :: readDeclarations [] rest := by
    have read := readDeclarations_tokens hg doc rest
    rw [same, written] at read
    simpa using read
  cases hs with
  | generics hg =>
    refine again (wellFormed_generics hf line hg) rfl ?_
    simp [tokens_eq, signature, front, head, genericTokens]
    rfl
  | parameters hp =>
    refine again (wellFormed_parameters hf line hp) ?_ ?_
    · simp only [circuit, withoutComments_append_comment, hp]
      rfl
    · simp [tokens_eq, signature, front, head]
      rfl
  | result hr =>
    refine again (wellFormed_result hf line hr) ?_ ?_
    · simp only [circuit, returnType, withoutComments_append_comment, hr]
    · simp [tokens_eq, signature, front, head, tail, resultTokens]
      rfl
  | noResult hv hx =>
    have closed : f.tail = f.resultTokens ++ [.punct '\x7b'] := rfl
    rw [readDeclarations_comment_signature hf, readDeclarations_append_noise _ _ hx, closed,
      foldl_noteAfter_concat _ rfl, ← hv]
    rfl

theorem loses_head (line : String) {before after more : List Token}
    (hb : before ++ more = f.head) : Loses line (.exportWord :: before) after := by
  refine loses_of_readExport fun doc rest => ?_
  exact readExport_of_header f.isPure doc rest rfl (Or.inr rfl) ⟨more, hb⟩

/-- A comment before the parameter list hides the circuit, except between generics. -/
theorem loses_front (line : String) {ts after : List Token} (hf : f.WellFormed)
    (hg : f.generics = some ts) : Loses line f.front after := by
  refine loses_of_readExport fun doc rest => ?_
  have skipped := afterGroup_generics hf.toWellFramed hg (.comment line :: rest)
  have keyword : ("circuit" : String) ≠ "ledger" := by decide
  have words : f.head ++ f.genericTokens ++ .comment line :: rest =
      (if f.isPure then [.ident "pure"] else []) ++
        .ident "circuit" :: .ident f.name :: (f.genericTokens ++ .comment line :: rest) := by
    simp [head]
  rw [words, readExport_modified doc f.isPure _ rfl rfl, readStatement, if_neg keyword, if_pos rfl,
    readCircuit, skipped]
  rfl

/-- A comment in the front of a circuit is passed over or hides it. -/
theorem front_cases (line : String) {before between : List Token} (hf : f.WellFormed)
    (ht : f.front = before ++ between) (hb : before ≠ []) :
    f.Shields before (between ++ .punct '(' :: (f.parameters ++ .punct ')' :: f.tail)) ∨
      Loses line before (between ++ .punct '(' :: (f.parameters ++ .punct ')' :: f.tail)) := by
  cases before with
  | nil => exact absurd rfl hb
  | cons t before =>
    obtain ⟨rfl, words⟩ : .exportWord = t ∧ f.head ++ f.genericTokens = before ++ between :=
      List.cons.inj ht
    cases hg : f.generics with
    | none =>
      simp only [genericTokens, hg, List.append_nil] at words
      exact Or.inr (loses_head line words.symm)
    | some ts =>
      have group : f.genericTokens = .punct '<' :: (ts ++ [.punct '>']) := by
        simp only [genericTokens, hg]
      rw [group] at words
      rcases append_cons_eq_append words with ⟨us, named, rfl⟩ | ⟨us, rfl, inside⟩
      · exact Or.inr (loses_head line named.symm)
      · rcases append_cons_eq_append inside with ⟨vs, rfl, rfl⟩ | ⟨vs, rfl, behind⟩
        · left
          simpa using Shields.generics hg
        · obtain ⟨rfl, rfl⟩ := List.append_eq_nil_iff.mp behind.symm
          right
          rw [← group]
          exact loses_front line hf hg

/-- A comment behind the parameter list is passed over unless it stands right there. -/
theorem tail_cases {between after : List Token} (ht : f.tail = between ++ after) (ha : after ≠ []) :
    between = [] ∨ f.Shields (f.signature ++ between) after := by
  cases between with
  | nil => exact Or.inl rfl
  | cons t between =>
    right
    cases hr : f.result with
    | none =>
      simp only [tail, resultTokens, hr, List.nil_append] at ht
      have none := (List.append_eq_nil_iff.mp (List.cons.inj ht).2.symm).2
      exact absurd none ha
    | some ts =>
      simp only [tail, resultTokens, hr, List.cons_append] at ht
      obtain ⟨rfl, inside⟩ := List.cons.inj ht
      rcases append_cons_eq_append inside with ⟨vs, rfl, rfl⟩ | ⟨vs, _, behind⟩
      · exact .result hr
      · exact absurd (List.append_eq_nil_iff.mp behind.symm).2 ha

/-- A comment is passed over, or the declaration is lost, or its result may be. -/
theorem comment_cases (line : String) {before after : List Token} (hf : f.WellFormed)
    (ht : f.tokens = before ++ after) (hb : before ≠ []) (ha : after ≠ []) :
    f.Shields before after ∨ Loses line before after ∨ (before = f.signature ∧ after = f.tail) := by
  have written : f.tokens = f.front ++ .punct '(' :: (f.parameters ++ .punct ')' :: f.tail) := by
    simp [tokens_eq, signature]
  rw [written] at ht
  rcases append_cons_eq_append ht with ⟨between, first, rfl⟩ | ⟨inside, rfl, second⟩
  · rcases front_cases line hf first hb with shields | loses
    · exact Or.inl shields
    · exact Or.inr (Or.inl loses)
  · rcases append_cons_eq_append second with ⟨us, listed, rfl⟩ | ⟨between, rfl, third⟩
    · exact Or.inl (.parameters listed)
    · have signed : f.front ++ .punct '(' :: (f.parameters ++ .punct ')' :: between) =
          f.signature ++ between := by simp [signature]
      rw [signed]
      rcases tail_cases third ha with rfl | shields
      · exact Or.inr (Or.inr ⟨List.append_nil _, third.symm⟩)
      · exact Or.inl shields

end CircuitForm

namespace Statement

/-- The positions at which a comment is passed over. -/
def Shields : Statement → List Token → List Token → Prop
  | .ledger f => f.Shields
  | .circuit f => f.Shields

variable {s : Statement} {before after : List Token}

theorem readDeclarations_of_shields (hs : s.WellFormed) (shields : s.Shields before after)
    (doc : List String) (rest : List Token) :
    readDeclarations doc (before ++ .comment line :: (after ++ rest)) =
      s.declaration doc :: readDeclarations [] rest := by
  cases s with
  | ledger f => exact LedgerForm.readDeclarations_of_shields hs shields doc rest
  | circuit f => exact CircuitForm.readDeclarations_of_shields hs shields doc rest

theorem comment_cases (line : String) (hs : s.WellFormed) (ht : s.tokens = before ++ after)
    (hb : before ≠ []) (ha : after ≠ []) :
    s.Shields before after ∨ Loses line before after ∨
      ∃ f, s = .circuit f ∧ before = f.signature ∧ after = f.tail := by
  cases s with
  | ledger f =>
    rcases LedgerForm.shields_or_loses line ht hb ha with shields | loses
    · exact Or.inl shields
    · exact Or.inr (Or.inl loses)
  | circuit f =>
    rcases CircuitForm.comment_cases line hs ht hb ha with shields | loses | cut
    · exact Or.inl shields
    · exact Or.inr (Or.inl loses)
    · exact Or.inr (Or.inr ⟨f, rfl, cut⟩)

/-- The sign that ends a statement is no comment. -/
theorem exists_after_eq_concat (ht : s.tokens = before ++ after) (ha : after ≠ []) :
    ∃ us t, after = us ++ [t] ∧ t.isComment = false := by
  have closed : ∃ init t, s.tokens = init ++ t :: [] ∧ t.isComment = false := by
    cases s with
    | ledger f => exact ⟨.exportWord :: (f.head ++ .punct ':' :: f.type), .punct ';',
        by simp [tokens, LedgerForm.tokens_eq], rfl⟩
    | circuit f => exact ⟨f.signature ++ f.resultTokens, .punct '\x7b',
        by simp [tokens, CircuitForm.tokens_eq, CircuitForm.tail], rfl⟩
  obtain ⟨init, t, written, plain⟩ := closed
  rcases append_cons_eq_append (written.symm.trans ht) with ⟨us, _, hu⟩ | ⟨us, _, hu⟩
  · exact ⟨us, t, hu, plain⟩
  · exact absurd (List.append_eq_nil_iff.mp hu.symm).2 ha

/-- The rest of a statement that holds no `export` is passed over, with the comments in it. -/
theorem readDeclarations_after (ht : s.tokens = before ++ after) (hb : before ≠ [])
    (ha : after ≠ []) (hx : .exportWord ∉ s.tokens.tail) (doc : List String) (rest : List Token) :
    readDeclarations doc (after ++ rest) = readDeclarations [] rest := by
  obtain ⟨us, t, rfl, plain⟩ := exists_after_eq_concat ht ha
  have none : .exportWord ∉ us ++ [t] := by
    rw [ht, List.tail_append_of_ne_nil hb] at hx
    exact fun h => hx (List.mem_append_right _ h)
  rw [readDeclarations_append_noise _ _ none, foldl_noteAfter_concat _ plain]

end Statement

inductive Piece where
  | token (t : Token)
  | statement (s : Statement)
  deriving DecidableEq, Repr

namespace Piece

def tokens : Piece → List Token
  | .token t => [t]
  | .statement s => s.tokens

def WellFormed : Piece → Prop
  | .token t => t ≠ .exportWord
  | .statement s => s.WellFormed

instance (p : Piece) : Decidable p.WellFormed :=
  match p with
  | .token t => inferInstanceAs (Decidable (t ≠ .exportWord))
  | .statement s => inferInstanceAs (Decidable s.WellFormed)

/-- What pieces declare does not depend on what follows them. -/
theorem exists_readDeclarations {pieces : List Piece} (hp : ∀ p ∈ pieces, p.WellFormed)
    (doc : List String) :
    ∃ found note, ∀ rest, readDeclarations doc (pieces.flatMap tokens ++ rest) =
      found ++ readDeclarations note rest := by
  induction pieces generalizing doc with
  | nil => exact ⟨[], doc, fun rest => rfl⟩
  | cons p pieces ih =>
    have hw := hp p List.mem_cons_self
    have later := ih fun q hq => hp q (List.mem_cons_of_mem p hq)
    cases p with
    | token t =>
      obtain ⟨found, note, read⟩ := later (t.noteAfter doc)
      refine ⟨found, note, fun rest => ?_⟩
      rw [← read]
      exact readDeclarations_noise doc _ hw
    | statement s =>
      obtain ⟨found, note, read⟩ := later []
      refine ⟨s.declaration doc :: found, note, fun rest => ?_⟩
      rw [List.flatMap_cons, List.append_assoc, tokens, Statement.readDeclarations_append hw, read]
      rfl

end Piece

def Circuit.undocumented (c : Circuit) : Circuit := { c with doc := [] }

def Declarations.undocumented (d : Declarations) : Declarations :=
  ⟨d.circuits.map Circuit.undocumented, d.ledgers⟩

/-- Declarations that are alike but for their comment lines are equal in number. -/
theorem length_eq_of_undocumented {found found' : List Declaration} {source source' : String}
    (read : readDeclarations [] (tokens source) = found)
    (read' : readDeclarations [] (tokens source') = found')
    (same : (declarations source).undocumented = (declarations source').undocumented) :
    found.length = found'.length := by
  rw [declarations_of_read read, declarations_of_read read'] at same
  have circuits := congrArg (·.circuits.length) same
  have ledgers := congrArg (·.ledgers.length) same
  simp only [Declarations.undocumented, List.length_map] at circuits ledgers
  have count := length_filterMap_add found
  have count' := length_filterMap_add found'
  omega

/-- Where two lists of declarations first differ in a circuit, these circuits are alike. -/
theorem undocumented_eq_of_append {found later later' : List Declaration} {c c' : Circuit}
    {source source' : String}
    (read : readDeclarations [] (tokens source) = found ++ .circuit c :: later)
    (read' : readDeclarations [] (tokens source') = found ++ .circuit c' :: later')
    (same : (declarations source).undocumented = (declarations source').undocumented) :
    c.undocumented = c'.undocumented := by
  rw [declarations_of_read read, declarations_of_read read'] at same
  have circuits := congrArg Declarations.circuits same
  simp only [Declarations.undocumented, List.filterMap_append, List.map_append, List.filterMap_cons,
    Declaration.circuit?, List.map_cons] at circuits
  exact (List.cons.inj (List.append_cancel_left circuits)).1

section Commented

variable {earlier : List Piece} {s : Statement} {before after later : List Token}
  {source commented : String}

/-- A comment inside a declaration changes nothing at a position that shields it. At any other
position it changes what is declared, unless an `export` inside of the declaration is read in its
place. -/
theorem declarations_comment_within (he : ∀ p ∈ earlier, p.WellFormed) (hs : s.WellFormed)
    (ht : s.tokens = before ++ after) (hb : before ≠ []) (ha : after ≠ [])
    (plain : tokens source = earlier.flatMap Piece.tokens ++ (s.tokens ++ later))
    (noted : tokens commented =
      earlier.flatMap Piece.tokens ++ (before ++ .comment line :: (after ++ later))) :
    (s.Shields before after →
      declarations commented = declarations source ∧
        ∀ file, analyze commented file = analyze source file) ∧
    (.exportWord ∉ s.tokens.tail →
      ((declarations commented).undocumented = (declarations source).undocumented ↔
        s.Shields before after)) := by
  obtain ⟨found, note, reads⟩ := Piece.exists_readDeclarations he []
  have read : readDeclarations [] (tokens source) =
      found ++ s.declaration note :: readDeclarations [] later := by
    rw [plain, reads, Statement.readDeclarations_append hs]
  have unchanged (shields : s.Shields before after) :
      declarations commented = declarations source := by
    have read' : readDeclarations [] (tokens commented) =
        found ++ s.declaration note :: readDeclarations [] later := by
      rw [noted, reads, Statement.readDeclarations_of_shields hs shields]
    rw [declarations_of_read read, declarations_of_read read']
  refine ⟨fun shields => ⟨unchanged shields, fun file => ?_⟩, fun hx => ⟨fun same => ?_, ?_⟩⟩
  · rw [analyze, unchanged shields, analyze]
  · have rest := Statement.readDeclarations_after ht hb ha hx [line] later
    rcases Statement.comment_cases line hs ht hb ha with shields | loses | ⟨f, rfl, rfl, rfl⟩
    · exact shields
    · have read' : readDeclarations [] (tokens commented) =
          found ++ readDeclarations [] later := by
        rw [noted, reads, loses, rest]
      have count := length_eq_of_undocumented read' read same
      simp at count
    · have read' : readDeclarations [] (tokens commented) =
          found ++ .circuit { f.circuit note with returnType := voidType } ::
            readDeclarations [line] (f.tail ++ later) := by
        rw [noted, reads, CircuitForm.readDeclarations_comment_signature hs]
      have alike := undocumented_eq_of_append read' read same
      have void : f.returnType = voidType := (congrArg Circuit.returnType alike).symm
      refine .noResult void fun h => hx ?_
      rw [ht, List.tail_append_of_ne_nil hb]
      exact List.mem_append_right _ h
  · intro shields
    rw [unchanged shields]

end Commented

def total : Statement := .circuit ⟨false, "total", none, [], some [.ident "Field"]⟩

/-- A comment behind a parameter list takes the result from a circuit, and makes it a mutation. -/
theorem declarations_comment_before_colon :
    total.WellFormed ∧
      tokens "export circuit total(): Field \x7b" = total.tokens ∧
      tokens "export circuit total() // of all votes\n: Field \x7b" =
        total.tokens.take 5 ++ .comment "of all votes" :: total.tokens.drop 5 ∧
      (declarations "export circuit total() // of all votes\n: Field \x7b").undocumented ≠
        (declarations "export circuit total(): Field \x7b").undocumented ∧
      (analyze "export circuit total(): Field \x7b" "sum").operations.map (·.mutates) = [false] ∧
      (analyze "export circuit total() // of all votes\n: Field \x7b" "sum").operations.map
        (·.mutates) = [true] := by
  refine ⟨by decide, by decide +kernel, by decide +kernel, by decide +kernel, by decide +kernel,
    by decide +kernel⟩

def putForm : CircuitForm :=
  ⟨false, "put", none,
    [.ident "m", .punct ':', .ident "Map", .punct '<', .ident "A", .punct ',', .ident "B",
      .punct '>'], none⟩

def put : Statement := .circuit putForm

/-- The comment stands inside of the type of the parameter. -/
theorem declarations_comment_in_type :
    (∀ p ∈ [Piece.token (.ident "import"), .statement laterField], p.WellFormed) ∧
      put.WellFormed ∧ put.Shields (put.tokens.take 9) (put.tokens.drop 9) ∧
      .exportWord ∉ put.tokens.tail ∧
      declarations "import export ledger x: F; export circuit put(m: Map<A // key\n, B>) \x7b \x7d" =
        declarations "import export ledger x: F; export circuit put(m: Map<A, B>) \x7b \x7d" := by
  have he : ∀ p ∈ [Piece.token (.ident "import"), .statement laterField], p.WellFormed := by decide
  have hs : put.WellFormed := by decide
  have ht : put.tokens = put.tokens.take 9 ++ put.tokens.drop 9 := by decide
  have split : putForm.parameters =
      [.ident "m", .punct ':', .ident "Map", .punct '<', .ident "A"] ++
        [.punct ',', .ident "B", .punct '>'] := rfl
  have shields : put.Shields (put.tokens.take 9) (put.tokens.drop 9) :=
    CircuitForm.Shields.parameters split
  have plain : tokens "import export ledger x: F; export circuit put(m: Map<A, B>) \x7b \x7d" =
      [Piece.token (.ident "import"), .statement laterField].flatMap Piece.tokens ++
        (put.tokens ++ [.punct '\x7d']) := by decide +kernel
  have noted :
      tokens "import export ledger x: F; export circuit put(m: Map<A // key\n, B>) \x7b \x7d" =
        [Piece.token (.ident "import"), .statement laterField].flatMap Piece.tokens ++
          (put.tokens.take 9 ++ .comment "key" :: (put.tokens.drop 9 ++ [.punct '\x7d'])) := by
    decide +kernel
  have within := declarations_comment_within he hs ht (by decide) (by decide) plain noted
  exact ⟨he, hs, shields, by decide, (within.1 shields).1⟩

end ContractSurface.Source
