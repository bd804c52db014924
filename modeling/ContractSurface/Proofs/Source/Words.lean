import ContractSurface.Proofs.Source.Sites
import ContractSurface.Proofs.Text.Numerals

/-! # What declarations can be named

Names come from single tokens, so nothing but a word can be one, however the source is written. A
type is rendered without blanks at its ends, and a line of a description has no line end.
-/
namespace ContractSurface.Source

/-- All names of the declaration are words, and its texts fit where they are shown. -/
def Declaration.WellFormed : Declaration → Prop
  | .ledger v =>
    (Token.ident v.name).IsLexical ∧ v.declaredType ≠ "" ∧
      Text.trimmed v.declaredType = v.declaredType
  | .circuit c =>
    (Token.ident c.name).IsLexical ∧ (∀ p ∈ c.parameters, (Token.ident p.name).IsLexical) ∧
      ∀ line ∈ c.doc, '\n' ∉ line.toList

variable {ts : List Token}

theorem trimmed_renderType (ht : ∀ t ∈ ts, t.IsLexical) (hne : withoutComments ts ≠ []) :
    Text.trimmed (renderType (withoutComments ts)) = renderType (withoutComments ts) := by
  obtain ⟨c, cs, rendered, blank⟩ := exists_toList_renderType ht hne
  have started : Text.trimStart (c :: cs) = c :: cs := by simp [Text.trimStart, blank]
  rw [← String.toList_inj, Text.toList_trimmed, rendered, Text.trim, Text.trimStart_trimEnd started,
    Text.trimEnd_trimEnd]

theorem mem_of_lastWord? {name : String} (h : lastWord? ts = some name) : .ident name ∈ ts := by
  obtain ⟨t, mem, found⟩ := List.exists_of_findSome?_eq_some h
  rw [List.mem_reverse] at mem
  split at found
  · rwa [← Option.some.inj found]
  · cases found

theorem mem_of_parameter? {p : Parameter} (h : parameter? ts = some p) : .ident p.name ∈ ts := by
  obtain ⟨name, found, rfl⟩ := Option.map_eq_some_iff.mp h
  exact (List.takeWhile_prefix _).subset (mem_of_lastWord? found)

/-- The separators hide no token of a segment. -/
theorem mem_intercalate {t : Token} {separator segment : List Token} {segments : List (List Token)}
    (hs : segment ∈ segments) (ht : t ∈ segment) : t ∈ separator.intercalate segments := by
  induction segments with
  | nil => cases hs
  | cons first rest ih =>
    cases rest with
    | nil =>
      obtain rfl := List.mem_singleton.mp hs
      simpa using ht
    | cons next rest =>
      rw [List.intercalate_cons_cons]
      rcases List.mem_cons.mp hs with rfl | later
      · simp [ht]
      · simp [ih later]

theorem isLexical_of_mem_segments {segments : List (List Token)} (cut : CutAtCommas ts segments)
    (ht : ∀ t ∈ ts, t.IsLexical) {p : Parameter} (hp : p ∈ segments.filterMap parameter?) :
    (Token.ident p.name).IsLexical := by
  obtain ⟨segment, mem, read⟩ := List.mem_filterMap.mp hp
  apply ht
  rw [← cut.joined]
  exact mem_intercalate mem (mem_of_parameter? read)

variable {doc : List String} {d : Declaration} {keyword : String} {body stretch rest : List Token}

theorem SpellsBody.wellFormed (h : SpellsBody doc keyword d body rest)
    (hb : ∀ t ∈ body, t.IsLexical) (hd : ∀ line ∈ doc, '\n' ∉ line.toList) : d.WellFormed := by
  cases h with
  | @ledger name type close _ reach ends typed =>
    have inside : ∀ t ∈ type, t.IsLexical := fun t h => hb t (by simp [h])
    exact ⟨hb _ (by simp), renderType_ne_empty inside typed, trimmed_renderType inside typed⟩
  | circuit group reach cut result =>
    refine ⟨hb _ (by simp), fun p hp => isLexical_of_mem_segments cut ?_ hp, hd⟩
    intro t ht
    exact hb t (by simp [(List.mem_filter.mp ht).1])

theorem Spells.wellFormed (h : Spells doc d stretch rest) (hs : ∀ t ∈ stretch, t.IsLexical)
    (hd : ∀ line ∈ doc, '\n' ∉ line.toList) : d.WellFormed := by
  cases h with
  | plain body => exact body.wellFormed (fun t ht => hs t (by simp [ht])) hd
  | modified _ body => exact body.wellFormed (fun t ht => hs t (by simp [ht])) hd

theorem Site.StandsIn.wellFormed {s : Site} (h : s.StandsIn ts) (ht : ∀ t ∈ ts, t.IsLexical) :
    s.declaration.WellFormed := by
  obtain ⟨doc, stretch, rest, split, -, -, spells⟩ := h
  have inside : ∀ t ∈ doc.map Token.comment ++ (stretch ++ rest), t.IsLexical := by
    intro t mem
    exact ht t (List.mem_of_mem_drop (split ▸ mem))
  refine spells.wellFormed (fun t mem => inside t (by simp [mem])) ?_
  intro line mem
  have comment : (Token.comment line).IsLexical := inside _ (by simp [mem])
  exact comment.1

theorem wellFormed_readDeclarations (source : String) :
    ∀ d ∈ readDeclarations [] (tokens source), d.WellFormed := by
  obtain ⟨sites, found, -, stand⟩ := havePlaces_readDeclarations [] (tokens source)
  have lexical : ∀ t ∈ tokens source, t.IsLexical := isLexical_of_mem_lex
  rw [← found]
  intro d hd
  obtain ⟨s, hs, rfl⟩ := List.mem_map.mp hd
  exact (stand s hs).wellFormed lexical

theorem wellFormed_ledger {source : String} {v : StateVariable}
    (h : v ∈ (declarations source).ledgers) : (Declaration.ledger v).WellFormed := by
  obtain ⟨d, mem, field⟩ := List.mem_filterMap.mp h
  rw [← Declaration.eq_of_ledger? field]
  exact wellFormed_readDeclarations source d mem

theorem wellFormed_circuit {source : String} {c : Circuit}
    (h : c ∈ (declarations source).circuits) : (Declaration.circuit c).WellFormed := by
  obtain ⟨d, mem, circuit⟩ := List.mem_filterMap.mp h
  have whole := wellFormed_readDeclarations source d mem
  cases d with
  | ledger v => cases circuit
  | circuit d => rwa [← Option.some.inj circuit]

end ContractSurface.Source
