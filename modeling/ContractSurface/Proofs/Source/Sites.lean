import ContractSurface.Proofs.Source.Grammar
import ContractSurface.Proofs.Source.Lexing

/-! # Where the declarations of a source stand

Whatever a source is made of, every declaration that is read from it has a stretch of tokens of its
own that spells it: its `export`, its words and its types, up to where each of them ends. Stretches
do not meet, and they follow each other as the declarations do.
-/
namespace ContractSurface.Source

def depthAfter (depth : Nat) (ts : List Token) : Nat := ts.foldl Token.depthAfter depth

/-- The list goes up to the first token at depth zero that satisfies `stop` or is an `export`, and
`rest` is what follows. Without such a token it goes to the end of the source. -/
structure RunsUpTo (stop : Token → Bool) (ts rest : List Token) : Prop where
  inside : ∀ t ∈ topTokens 0 ts, stop t = false ∧ t ≠ .exportWord
  ended : ∀ t ∈ rest.head?, depthAfter 0 ts = 0 ∧ (stop t = true ∨ t = .exportWord)

structure CutAtCommas (ts : List Token) (segments : List (List Token)) : Prop where
  joined : [.punct ','].intercalate segments = ts
  uncut : ∀ s ∈ segments, .punct ',' ∉ topTokens 0 s
  level : ∀ s ∈ segments.dropLast, depthAfter 0 s = 0

inductive IsGroup : List Token → Prop
  | absent : IsGroup []
  | brackets {inside : List Token} {t : Token} : Balanced inside → t.closes = true →
      IsGroup (.punct '<' :: (inside ++ [t]))

inductive SpellsResult : String → List Token → List Token → Prop
  | void {rest : List Token} : rest.head? ≠ some (.punct ':') → SpellsResult voidType [] rest
  | typed {type rest : List Token} :
      RunsUpTo (fun t => t = .punct '\x7b' || t = .punct ';') type rest →
      SpellsResult (renderType (withoutComments type)) (.punct ':' :: type) rest

inductive SpellsBody (doc : List String) : String → Declaration → List Token → List Token → Prop
  | ledger {name : String} {type close rest : List Token} :
      RunsUpTo (· = .punct ';') type (close ++ rest) →
      close = [.punct ';'] ∨ close = [] ∧ rest.head? ≠ some (.punct ';') →
      withoutComments type ≠ [] →
      SpellsBody doc "ledger" (.ledger ⟨name, renderType (withoutComments type)⟩)
        (.ident name :: .punct ':' :: (type ++ close)) rest
  | circuit {name result : String} {group list type rest : List Token}
      {segments : List (List Token)} :
      IsGroup group →
      RunsUpTo (· = .punct ')') list (.punct ')' :: (type ++ rest)) →
      CutAtCommas (withoutComments list) segments →
      SpellsResult result type rest →
      SpellsBody doc "circuit" (.circuit ⟨name, segments.filterMap parameter?, result, doc⟩)
        (.ident name :: (group ++ .punct '(' :: (list ++ .punct ')' :: type))) rest

/-- The declaration that a list spells from its `export` on, if it is followed by `rest`. -/
inductive Spells (doc : List String) (d : Declaration) : List Token → List Token → Prop
  | plain {keyword : String} {body rest : List Token} : SpellsBody doc keyword d body rest →
      Spells doc d (.exportWord :: .ident keyword :: body) rest
  | modified {word keyword : String} {body rest : List Token} : isModifier word = true →
      SpellsBody doc keyword d body rest →
      Spells doc d (.exportWord :: .ident word :: .ident keyword :: body) rest

/-- A declaration with its place: it is described from `note` on, starts at `start` and ends before
`stop`. -/
structure Site where
  declaration : Declaration
  note : Nat
  start : Nat
  stop : Nat
  deriving DecidableEq, Repr

namespace Site

/-- The tokens of the place are comments that describe the declaration, and then spell it. -/
def StandsIn (s : Site) (ts : List Token) : Prop :=
  ∃ doc stretch rest, ts.drop s.note = doc.map .comment ++ (stretch ++ rest) ∧
    s.start = s.note + doc.length ∧ s.stop = s.start + stretch.length ∧
    Spells doc s.declaration stretch rest

def shift (k : Nat) (s : Site) : Site :=
  { s with note := k + s.note, start := k + s.start, stop := k + s.stop }

theorem StandsIn.shift {s : Site} {ts : List Token} (h : s.StandsIn ts) (front : List Token) :
    (s.shift front.length).StandsIn (front ++ ts) := by
  obtain ⟨doc, stretch, rest, tokens, start, stop, spells⟩ := h
  refine ⟨doc, stretch, rest, ?_, ?_, ?_, spells⟩
  · rw [Site.shift, List.drop_length_add_append, tokens]
  · simp only [Site.shift]
    omega
  · simp only [Site.shift]
    omega

end Site

/-- The declarations have places in the list, each of which ends before the next one begins. -/
def HavePlaces (ts : List Token) (found : List Declaration) : Prop :=
  ∃ sites : List Site, sites.map Site.declaration = found ∧
    sites.Pairwise (fun s t => s.stop ≤ t.note) ∧ ∀ s ∈ sites, s.StandsIn ts

theorem HavePlaces.behind {ts : List Token} {found : List Declaration} (h : HavePlaces ts found)
    (front : List Token) :
    ∃ sites : List Site, sites.map Site.declaration = found ∧
      sites.Pairwise (fun s t => s.stop ≤ t.note) ∧
      (∀ s ∈ sites, s.StandsIn (front ++ ts)) ∧ ∀ s ∈ sites, front.length ≤ s.note := by
  obtain ⟨sites, found, apart, stand⟩ := h
  refine ⟨sites.map (Site.shift front.length), ?_, ?_, ?_, ?_⟩
  · rw [← found, List.map_map]
    rfl
  · refine apart.map _ fun s t le => ?_
    simp only [Site.shift]
    omega
  · intro t ht
    obtain ⟨s, hs, rfl⟩ := List.mem_map.mp ht
    exact (stand s hs).shift front
  · intro t ht
    obtain ⟨s, _, rfl⟩ := List.mem_map.mp ht
    exact Nat.le_add_right _ _

theorem HavePlaces.append {ts : List Token} {found : List Declaration} (h : HavePlaces ts found)
    (front : List Token) : HavePlaces (front ++ ts) found := by
  obtain ⟨sites, found, apart, stand, _⟩ := h.behind front
  exact ⟨sites, found, apart, stand⟩

/-- A declaration in front takes its place before all others. -/
theorem HavePlaces.cons {ts stretch : List Token} {found : List Declaration}
    (h : HavePlaces ts found) {doc : List String} {d : Declaration}
    (spells : Spells doc d stretch ts) :
    HavePlaces (doc.map .comment ++ (stretch ++ ts)) (d :: found) := by
  obtain ⟨sites, found, apart, stand, behind⟩ := h.behind (doc.map .comment ++ stretch)
  rw [List.append_assoc] at stand
  have here : Site.StandsIn ⟨d, 0, doc.length, doc.length + stretch.length⟩
      (doc.map .comment ++ (stretch ++ ts)) :=
    ⟨doc, stretch, ts, List.drop_zero, (Nat.zero_add _).symm, rfl, spells⟩
  refine ⟨⟨d, 0, doc.length, doc.length + stretch.length⟩ :: sites, congrArg _ found,
    List.pairwise_cons.mpr ⟨?_, apart⟩, List.forall_mem_cons.mpr ⟨here, stand⟩⟩
  intro s hs
  simpa using behind s hs

/-- What is collected runs up to where the collection stops. -/
theorem exists_collectUntil (stop : Token → Bool) (depth : Nat) (ts : List Token) :
    ∃ part, ts = part ++ (collectUntil stop depth ts).2 ∧
      (collectUntil stop depth ts).1 = withoutComments part ∧
      (∀ t ∈ topTokens depth part, stop t = false ∧ t ≠ .exportWord) ∧
      ∀ t ∈ (collectUntil stop depth ts).2.head?,
        depthAfter depth part = 0 ∧ (stop t = true ∨ t = .exportWord) := by
  induction ts generalizing depth with
  | nil => exact ⟨[], rfl, rfl, by simp [topTokens], by simp [collectUntil]⟩
  | cons t ts ih =>
    unfold collectUntil
    split
    · next h =>
      refine ⟨[], rfl, rfl, by simp [topTokens], ?_⟩
      intro u hu
      obtain rfl := Option.some.inj hu
      exact h
    · next h =>
      obtain ⟨part, split, collected, inside, ended⟩ := ih (t.depthAfter depth)
      refine ⟨t :: part, congrArg _ split, ?_, ?_, ended⟩
      · rw [withoutComments_cons, ← collected]
      · intro u hu
        rcases mem_topTokens_cons_iff.mp hu with ⟨zero, rfl⟩ | hu
        · have passed := not_and.mp h zero
          simpa [not_or] using passed
        · exact inside u hu

theorem exists_runsUpTo (stop : Token → Bool) (ts : List Token) :
    ∃ part, ts = part ++ (collectUntil stop 0 ts).2 ∧
      (collectUntil stop 0 ts).1 = withoutComments part ∧
      RunsUpTo stop part (collectUntil stop 0 ts).2 := by
  obtain ⟨part, split, collected, inside, ended⟩ := exists_collectUntil stop 0 ts
  exact ⟨part, split, collected, inside, ended⟩

theorem Token.depthAfter_eq_zero_iff {t : Token} {n : Nat} :
    t.depthAfter (n + 1) = 0 ↔ t.closes = true ∧ n = 0 := by
  unfold depthAfter
  cases ho : t.opens with
  | true =>
    have plain := closes_of_opens ho
    simp [plain]
  | false => cases t.closes <;> simp

theorem Token.countAfter?_of_depthAfter {t : Token} {n k : Nat}
    (h : t.depthAfter (n + 1) = k + 1) : t.countAfter? n = some k := by
  unfold depthAfter at h
  unfold countAfter?
  cases ho : t.opens with
  | true =>
    simp only [ho, if_true] at h ⊢
    rw [Nat.succ.inj h]
  | false =>
    cases hc : t.closes with
    | true =>
      simp only [ho, hc, Bool.false_eq_true, if_false, if_true] at h ⊢
      have nonzero : n ≠ 0 := by omega
      rw [if_neg nonzero]
      exact congrArg some (by omega)
    | false =>
      simp only [ho, hc, Bool.false_eq_true, if_false] at h ⊢
      exact congrArg some (Nat.succ.inj h)

/-- A group behind which something is left ends with the bracket that closes it. -/
theorem exists_skipGroup {n : Nat} {ts : List Token} (h : skipGroup (n + 1) ts ≠ []) :
    ∃ inside t, ts = inside ++ t :: skipGroup (n + 1) ts ∧ countAfter? n inside = some 0 ∧
      t.closes = true := by
  induction ts generalizing n with
  | nil => exact absurd rfl h
  | cons t ts ih =>
    unfold skipGroup at h ⊢
    cases hd : t.depthAfter (n + 1) with
    | zero =>
      obtain ⟨closes, rfl⟩ := Token.depthAfter_eq_zero_iff.mp hd
      rw [if_pos ⟨closes, rfl⟩]
      exact ⟨[], t, rfl, rfl, closes⟩
    | succ k =>
      have counted := Token.countAfter?_of_depthAfter hd
      rw [hd, if_neg (by simp)] at h
      rw [if_neg (by simp)]
      obtain ⟨inside, u, split, count, closes⟩ := ih h
      refine ⟨t :: inside, u, congrArg _ split, ?_, closes⟩
      rw [countAfter?_cons, counted, Option.bind_some, count]

theorem exists_afterGroup {ts : List Token} (h : afterGroup ts ≠ []) :
    ∃ group, ts = group ++ afterGroup ts ∧ IsGroup group := by
  unfold afterGroup at h ⊢
  split
  · next hs =>
    obtain ⟨ts, rfl⟩ : ∃ us, ts = .punct '<' :: us := by
      cases ts with
      | nil => cases hs
      | cons t us => exact ⟨us, congrArg (· :: us) (Option.some.inj hs)⟩
    have opened : skipGroup 0 (.punct '<' :: ts) = skipGroup 1 ts := rfl
    rw [if_pos hs, opened] at h
    rw [opened]
    obtain ⟨inside, t, split, balanced, closes⟩ := exists_skipGroup h
    refine ⟨.punct '<' :: (inside ++ [t]), ?_, .brackets balanced closes⟩
    rw [List.cons_append, List.append_assoc, List.singleton_append, ← split]
  · exact ⟨[], rfl, .absent⟩

theorem forall_mem_dropLast_cons {p : List Token → Prop} {s : List Token}
    {segments : List (List Token)} (first : segments ≠ [] → p s)
    (others : ∀ u ∈ segments.dropLast, p u) : ∀ u ∈ (s :: segments).dropLast, p u := by
  cases segments with
  | nil => simp
  | cons u segments =>
    rw [List.dropLast_cons_cons]
    exact List.forall_mem_cons.mpr ⟨first (by simp), others⟩

/-- What is cut off up to the first comma starts at the depth that is given, and all else at depth
zero. -/
theorem exists_commaSegments (depth : Nat) (ts : List Token) :
    ∃ s segments, commaSegments depth ts = s :: segments ∧
      [.punct ','].intercalate (s :: segments) = ts ∧
      .punct ',' ∉ topTokens depth s ∧ (∀ u ∈ segments, .punct ',' ∉ topTokens 0 u) ∧
      (segments ≠ [] → depthAfter depth s = 0) ∧
      ∀ u ∈ segments.dropLast, depthAfter 0 u = 0 := by
  induction ts generalizing depth with
  | nil => exact ⟨[], [], rfl, rfl, List.not_mem_nil, by simp, by simp, by simp⟩
  | cons t ts ih =>
    by_cases cut : t = .punct ',' ∧ depth = 0
    · obtain ⟨rfl, rfl⟩ := cut
      obtain ⟨s, segments, read, joined, first, others, level, levels⟩ := ih 0
      refine ⟨[], s :: segments, ?_, ?_, List.not_mem_nil, ?_, fun _ => rfl, ?_⟩
      · rw [commaSegments_cons_comma, read]
      · rw [List.intercalate_cons_cons, joined]
        rfl
      · exact List.forall_mem_cons.mpr ⟨first, others⟩
      · exact forall_mem_dropLast_cons level levels
    · obtain ⟨s, segments, read, joined, first, others, level, levels⟩ :=
        ih (t.depthAfter depth)
      refine ⟨t :: s, segments, ?_, ?_, ?_, others, level, levels⟩
      · rw [commaSegments_cons _ cut, read]
        rfl
      · rw [← joined]
        cases segments with
        | nil => simp
        | cons u segments => simp [List.intercalate_cons_cons]
      · intro mem
        rcases mem_topTokens_cons_iff.mp mem with ⟨zero, comma⟩ | mem
        · exact cut ⟨comma.symm, zero⟩
        · exact first mem

theorem cutAtCommas_commaSegments (ts : List Token) : CutAtCommas ts (commaSegments 0 ts) := by
  obtain ⟨s, segments, read, joined, first, others, level, levels⟩ := exists_commaSegments 0 ts
  rw [read]
  exact ⟨joined, List.forall_mem_cons.mpr ⟨first, others⟩, forall_mem_dropLast_cons level levels⟩

theorem exists_readReturnType (ts : List Token) :
    ∃ type, ts = type ++ (readReturnType ts).2 ∧
      SpellsResult (readReturnType ts).1 type (readReturnType ts).2 := by
  cases ts with
  | nil => exact ⟨[], rfl, .void (by simp [readReturnType])⟩
  | cons t ts =>
    by_cases colon : t = .punct ':'
    · subst colon
      obtain ⟨part, split, collected, reach⟩ :=
        exists_runsUpTo (fun t => t = .punct '{' || t = .punct ';') ts
      refine ⟨.punct ':' :: part, congrArg _ split, ?_⟩
      simp only [readReturnType, collected]
      exact .typed reach
    · have untyped : readReturnType (t :: ts) = (voidType, t :: ts) := by
        simp [readReturnType, colon]
      rw [untyped]
      exact ⟨[], rfl, .void (by simpa using colon)⟩

variable {doc : List String} {ts rest : List Token} {d : Declaration}

/-- A field ends with its semicolon if there is one. -/
theorem exists_close (ts : List Token) :
    ∃ close, ts = close ++ (if ts.head? = some (.punct ';') then ts.drop 1 else ts) ∧
      (close = [.punct ';'] ∨ close = [] ∧
        (if ts.head? = some (.punct ';') then ts.drop 1 else ts).head? ≠ some (.punct ';')) := by
  cases ts with
  | nil => exact ⟨[], rfl, Or.inr ⟨rfl, by simp⟩⟩
  | cons t ts =>
    by_cases semicolon : t = .punct ';'
    · subst semicolon
      exact ⟨[.punct ';'], rfl, Or.inl rfl⟩
    · have other : (t :: ts).head? ≠ some (.punct ';') := by simpa using semicolon
      rw [if_neg other]
      exact ⟨[], rfl, Or.inr ⟨rfl, other⟩⟩

theorem spellsBody_ledger (h : readLedger ts = (some d, rest)) :
    ∃ body, ts = body ++ rest ∧ SpellsBody doc "ledger" d body rest := by
  unfold readLedger at h
  split at h
  · next name ts =>
    obtain ⟨type, split, collected, reach⟩ := exists_runsUpTo (· = .punct ';') ts
    obtain ⟨close, closed, closes⟩ := exists_close (collectUntil (· = .punct ';') 0 ts).2
    simp only [collected] at h
    obtain ⟨read, rfl⟩ := Prod.mk.inj h
    rw [closed] at split reach
    have typed : withoutComments type ≠ [] := by
      intro empty
      simp [empty] at read
    rw [if_neg (by simpa using typed)] at read
    obtain rfl := Option.some.inj read
    refine ⟨.ident name :: .punct ':' :: (type ++ close), ?_, .ledger reach closes typed⟩
    rw [List.cons_append, List.cons_append, List.append_assoc, ← split]
  · cases h
  · cases h

theorem spellsBody_circuit (h : readCircuit doc ts = (some d, rest)) :
    ∃ body, ts = body ++ rest ∧ SpellsBody doc "circuit" d body rest := by
  unfold readCircuit at h
  split at h
  · next name ts =>
    unfold readSignature at h
    split at h
    · next inside opened =>
      have goesOn : afterGroup ts ≠ [] := by simp [opened]
      obtain ⟨group, before, grouped⟩ := exists_afterGroup goesOn
      obtain ⟨list, split, collected, reach⟩ := exists_runsUpTo (· = .punct ')') inside
      simp only [collected] at h
      split at h
      · next after closed =>
        obtain ⟨type, typed, spelled⟩ := exists_readReturnType after
        obtain ⟨read, rfl⟩ := Prod.mk.inj h
        obtain rfl := Option.some.inj read
        rw [closed, typed] at reach split
        refine ⟨.ident name :: (group ++ .punct '(' :: (list ++ .punct ')' :: type)), ?_,
          .circuit grouped reach (cutAtCommas_commaSegments _) spelled⟩
        rw [before, opened, split]
        simp
      · cases h
    · cases h
  · cases h

theorem spellsBody_statement {keyword : String}
    (h : readStatement doc keyword ts = (some d, rest)) :
    ∃ body, ts = body ++ rest ∧ SpellsBody doc keyword d body rest := by
  unfold readStatement at h
  split at h
  · next ledger =>
    rw [ledger]
    exact spellsBody_ledger h
  · split at h
    · next circuit =>
      rw [circuit]
      exact spellsBody_circuit h
    · cases h

/-- What is read behind an `export` is spelled there. -/
theorem spells_export (h : readExport doc ts = (some d, rest)) :
    ∃ stretch, .exportWord :: ts = stretch ++ rest ∧ Spells doc d stretch rest := by
  unfold readExport at h
  split at h
  · next word ts =>
    split at h
    · next modifier =>
      split at h
      · next keyword ts =>
        obtain ⟨body, split, spelled⟩ := spellsBody_statement h
        exact ⟨.exportWord :: .ident word :: .ident keyword :: body, by rw [split]; rfl,
          .modified modifier spelled⟩
      · cases h
    · obtain ⟨body, split, spelled⟩ := spellsBody_statement h
      exact ⟨.exportWord :: .ident word :: body, by rw [split]; rfl, .plain spelled⟩
  · cases h

theorem readDeclarations_plain {t : Token} (doc : List String) (ts : List Token)
    (ht : t ≠ .exportWord) (plain : ∀ line, t ≠ .comment line) :
    readDeclarations doc (t :: ts) = readDeclarations [] ts := by
  have forgets : t.noteAfter doc = [] := by
    cases t with
    | comment line => exact absurd rfl (plain line)
    | _ => rfl
  rw [readDeclarations_noise doc ts ht, forgets]

/-- The comments in front of the list are those that wait for a declaration to describe. -/
theorem havePlaces_readDeclarations (doc : List String) (ts : List Token) :
    HavePlaces (doc.map .comment ++ ts) (readDeclarations doc ts) := by
  induction doc, ts using readDeclarations.induct with
  | case1 doc =>
    rw [readDeclarations]
    exact ⟨[], rfl, .nil, by simp⟩
  | case2 doc ts line ih =>
    rw [readDeclarations]
    simpa using ih
  | case3 doc ts _ ih =>
    rw [readDeclarations_export]
    cases found : (readExport doc ts).1 with
    | none =>
      obtain ⟨used, left⟩ := readExport_suffix doc ts
      have whole : doc.map Token.comment ++ .exportWord :: ts =
          (doc.map Token.comment ++ .exportWord :: used) ++ (readExport doc ts).2 := by
        simp [left]
      rw [whole]
      exact ih.append _
    | some d =>
      obtain ⟨stretch, split, spells⟩ := spells_export (Prod.ext found rfl)
      rw [split]
      exact ih.cons spells
  | case4 doc t ts other plain ih =>
    have whole : doc.map Token.comment ++ t :: ts = (doc.map Token.comment ++ [t]) ++ ts := by simp
    rw [readDeclarations_plain doc ts other plain, whole]
    exact ih.append _

/-- There are no more declarations than there are `export`s. -/
theorem length_readDeclarations_le (doc : List String) (ts : List Token) :
    (readDeclarations doc ts).length ≤ ts.count .exportWord := by
  induction doc, ts using readDeclarations.induct with
  | case1 doc => simp [readDeclarations]
  | case2 doc ts line ih =>
    rw [readDeclarations]
    exact ih.trans List.count_le_count_cons
  | case3 doc ts _ ih =>
    have later := (readExport_suffix doc ts).sublist.count_le .exportWord
    have one : (readExport doc ts).1.toList.length ≤ 1 := by
      cases (readExport doc ts).1 <;> simp
    rw [readDeclarations_export, List.length_append, List.count_cons_self]
    omega
  | case4 doc t ts other plain ih =>
    rw [readDeclarations_plain doc ts other plain, List.count_cons_of_ne other]
    exact ih

theorem exists_spelling_eq_cons {t : Token} (ht : t.IsLexical) (hc : t.isComment = false) :
    ∃ c cs, t.spelling.toList = c :: cs ∧ Text.isBlank c = false := by
  cases t with
  | ident name =>
    cases hn : name.toList with
    | nil => simp [Token.IsLexical, hn] at ht
    | cons c cs =>
      simp only [Token.IsLexical, hn] at ht
      exact ⟨c, cs, hn, isBlank_of_isWordChar (isWordChar_of_isWordStart ht.1)⟩
  | number digits =>
    obtain ⟨ne, all⟩ := ht
    obtain ⟨c, cs, hn⟩ := List.exists_cons_of_ne_nil ne
    have digit : c.isDigit = true := all c (by simp [hn])
    exact ⟨c, cs, hn, isBlank_of_isWordChar (isWordChar_of_isDigit digit)⟩
  | str content => exact ⟨'"', _, by simp [Token.spelling]; rfl, rfl⟩
  | comment line => cases hc
  | range => exact ⟨'.', ['.'], rfl, rfl⟩
  | punct c => exact ⟨c, [], by simp [Token.spelling], ht.1⟩

/-- A type that has a token is spelled from a character on that is not blank. -/
theorem exists_toList_renderType {ts : List Token} (ht : ∀ t ∈ ts, t.IsLexical)
    (hne : withoutComments ts ≠ []) :
    ∃ c cs, (renderType (withoutComments ts)).toList = Text.trimEnd (c :: cs) ∧
      Text.isBlank c = false := by
  obtain ⟨t, us, written⟩ := List.exists_cons_of_ne_nil hne
  have mem : t ∈ withoutComments ts := by simp [written]
  obtain ⟨inside, plain⟩ := List.mem_filter.mp mem
  obtain ⟨c, cs, spelled, blank⟩ := exists_spelling_eq_cons (ht t inside) (by simpa using plain)
  rw [written, renderType, Text.toList_endTrimmed]
  generalize hw : String.join _ = whole
  obtain ⟨rest, start⟩ : ∃ rest, whole.toList = c :: rest := by
    rw [← hw]
    simp [spelled]
  exact ⟨c, rest, congrArg _ start, blank⟩

theorem renderType_ne_empty {ts : List Token} (ht : ∀ t ∈ ts, t.IsLexical)
    (hne : withoutComments ts ≠ []) : renderType (withoutComments ts) ≠ "" := by
  obtain ⟨c, cs, rendered, blank⟩ := exists_toList_renderType ht hne
  intro empty
  rw [empty] at rendered
  have blanks := List.rdropWhile_eq_nil_iff.mp rendered.symm c List.mem_cons_self
  rw [blank] at blanks
  cases blanks

theorem Declaration.eq_of_ledger? {d : Declaration} {v : StateVariable} (h : d.ledger? = some v) :
    d = .ledger v := by
  cases d with
  | ledger w => rw [Option.some.inj h]
  | circuit c => cases h

/-- A field that is spelled has a type. -/
theorem declaredType_ne_empty {doc : List String} {v : StateVariable} {stretch rest : List Token}
    (spelled : Spells doc (.ledger v) stretch rest) (ht : ∀ t ∈ stretch, t.IsLexical) :
    v.declaredType ≠ "" := by
  have body {keyword : String} {body : List Token}
      (written : SpellsBody doc keyword (.ledger v) body rest) (hb : ∀ t ∈ body, t.IsLexical) :
      v.declaredType ≠ "" := by
    cases written with
    | ledger reach close typed => exact renderType_ne_empty (fun t h => hb t (by simp [h])) typed
  cases spelled with
  | plain written => exact body written fun t h => ht t (by simp [h])
  | modified _ written => exact body written fun t h => ht t (by simp [h])

/-- Each declaration of a source, whether the source is well-formed or not, is spelled by a stretch
of tokens of its own. The stretches follow each other as the declarations do, and no token has part
in two of them. -/
theorem declarations_stand_apart (source : String) :
    ∃ sites : List Site,
      declarations source =
        ⟨sites.filterMap (·.declaration.circuit?), sites.filterMap (·.declaration.ledger?)⟩ ∧
      (∀ s ∈ sites, s.StandsIn (tokens source)) ∧
      sites.Pairwise (fun s t => s.stop ≤ t.note) ∧
      (∀ v ∈ (declarations source).ledgers, v.declaredType ≠ "") ∧
      (declarations source).circuits.length + (declarations source).ledgers.length ≤
        (tokens source).count .exportWord := by
  obtain ⟨sites, read, apart, stand⟩ := havePlaces_readDeclarations [] (tokens source)
  have found := declarations_of_read read.symm
  rw [List.filterMap_map, List.filterMap_map] at found
  refine ⟨sites, found, stand, apart, ?_, ?_⟩
  · intro v hv
    rw [found] at hv
    obtain ⟨s, hs, field⟩ := List.mem_filterMap.mp hv
    obtain ⟨doc, stretch, rest, split, _, _, spells⟩ := stand s hs
    rw [Declaration.eq_of_ledger? field] at spells
    have lexical : ∀ t ∈ tokens source, t.IsLexical := isLexical_of_mem_lex
    refine declaredType_ne_empty spells fun t ht => lexical t (List.mem_of_mem_drop (i := s.note) ?_)
    rw [List.map_nil, List.nil_append] at split
    simp [split, ht]
  · have bound := length_readDeclarations_le [] (tokens source)
    rw [← length_filterMap_add, read.symm] at bound
    rw [found]
    simpa [List.filterMap_map] using bound

end ContractSurface.Source
