import ContractSurface.Proofs.Source.Sites
import ContractSurface.Proofs.Source.Spelling

/-! # What parameter lists declare

A parameter list is cut at its commas at bracket depth zero, and each segment at its first colon at
depth zero. The last word before that colon is the name of a parameter, and what follows is its
type. Parameters are read by the first colon of a segment at any depth, so they are what the
segments declare unless a colon in brackets stands before the type of one that has a name.
-/
namespace ContractSurface.Source

/-- A segment is made of a head and a type, with its first colon at depth zero between them. All of
it is head if there is no such colon. -/
inductive HeadAndType (head : List Token) : List Token → List Token → Prop
  | typed {type : List Token} : Balanced head → .punct ':' ∉ topTokens 0 head →
      HeadAndType head type (head ++ .punct ':' :: type)
  | untyped : .punct ':' ∉ topTokens 0 head → HeadAndType head [] head

def IsLastWord (name : String) (ts : List Token) : Prop :=
  ∃ before after, ts = before ++ .ident name :: after ∧ ∀ word, .ident word ∉ after

/-- A parameter has the last word of its head for a name, and its type in canonical spelling. -/
def Declares (segment : List Token) (p : Parameter) : Prop :=
  ∃ head type, HeadAndType head type segment ∧ IsLastWord p.name head ∧
    p.declaredType = renderType type

/-- The parameters are those of the segments in order. A segment whose head has no word in it has
none. -/
inductive DeclareAll : List (List Token) → List Parameter → Prop
  | nil : DeclareAll [] []
  | named {segment : List Token} {p : Parameter} {segments : List (List Token)}
      {ps : List Parameter} : Declares segment p → DeclareAll segments ps →
      DeclareAll (segment :: segments) (p :: ps)
  | nameless {head type segment : List Token} {segments : List (List Token)}
      {ps : List Parameter} : HeadAndType head type segment → (∀ word, .ident word ∉ head) →
      DeclareAll segments ps → DeclareAll (segment :: segments) ps

/-- A colon in the head of the segment, which can only stand in brackets, precedes the type of a
parameter. -/
def HidesType (segment : List Token) : Prop :=
  ∃ head type word, HeadAndType head type segment ∧ .punct ':' ∈ head ∧ .ident word ∈ head

variable {ts segment head type : List Token} {segments : List (List Token)} {p : Parameter}

theorem depthAfter_of_count {n m : Nat} (h : countAfter? n ts = some m) : depthAfter n ts = m := by
  induction ts generalizing n with
  | nil => exact Option.some.inj h
  | cons t ts ih =>
    obtain ⟨k, counted, later⟩ := exists_count_of_cons h
    rw [depthAfter, List.foldl_cons, Token.depthAfter_of_count counted]
    exact ih later

theorem CutAtCommas.forall_mem {P : List Token → Prop} (parts : PassesToParts P)
    (cut : CutAtCommas ts segments) (hb : Balanced ts) (h : P ts) : ∀ s ∈ segments, P s := by
  obtain ⟨joined, -, level⟩ := cut
  induction segments generalizing ts with
  | nil => simp
  | cons s rest ih =>
    cases rest with
    | nil =>
      rw [List.intercalate_singleton] at joined
      rw [joined]
      simpa using h
    | cons u us =>
      rw [List.dropLast_cons_cons] at level
      obtain ⟨first, levels⟩ := List.forall_mem_cons.mp level
      rw [List.intercalate_cons_cons, List.append_assoc, List.singleton_append] at joined
      subst joined
      rw [Balanced, countAfter?_append] at hb
      obtain ⟨k, counted, later⟩ := Option.bind_eq_some_iff.mp hb
      obtain rfl : k = 0 := (depthAfter_of_count counted).symm.trans first
      have matched : Balanced ([.punct ','].intercalate (u :: us)) := later
      obtain ⟨here, rest⟩ := parts s _ counted h
      obtain ⟨-, behind⟩ := parts [.punct ','] _ rfl rest
      exact List.forall_mem_cons.mpr ⟨here, ih matched behind rfl levels⟩

/-- There is one way to cut a list whose brackets match. -/
theorem cutAtCommas_iff (hb : Balanced ts) :
    CutAtCommas ts segments ∧ segments ≠ [] ↔ segments = commaSegments 0 ts := by
  constructor
  · rintro ⟨cut, ne⟩
    have whole := commaSegments_intercalate ne fun s hs =>
      ⟨cut.forall_mem balanced_passes hb hb s hs, fun t ht same => cut.uncut s hs (same ▸ ht)⟩
    rw [← whole, cut.joined]
  · rintro rfl
    exact ⟨cutAtCommas_commaSegments ts, commaSegments_ne_nil 0 ts⟩

def cutAtColon : Nat → List Token → List Token × List Token
  | _, [] => ([], [])
  | depth, t :: ts =>
    if t = .punct ':' ∧ depth = 0 then ([], ts)
    else
      let parts := cutAtColon (t.depthAfter depth) ts
      (t :: parts.1, parts.2)

theorem cutAtColon_append {n m : Nat} (rest : List Token) (hc : countAfter? n ts = some m)
    (ht : .punct ':' ∉ topTokens n ts) :
    cutAtColon n (ts ++ rest) = (ts ++ (cutAtColon m rest).1, (cutAtColon m rest).2) := by
  induction ts generalizing n with
  | nil =>
    cases hc
    rfl
  | cons t ts ih =>
    obtain ⟨k, counted, later⟩ := exists_count_of_cons hc
    rw [mem_topTokens_cons_iff, Token.depthAfter_of_count counted, not_or] at ht
    have go : ¬(t = .punct ':' ∧ n = 0) := fun h => ht.1 ⟨h.2, h.1.symm⟩
    rw [List.cons_append, cutAtColon, if_neg go, Token.depthAfter_of_count counted,
      ih later ht.2]
    rfl

theorem exists_headAndType (hb : Balanced segment) :
    ∃ head type, HeadAndType head type segment := by
  by_cases colon : .punct ':' ∈ topTokens 0 segment
  · obtain ⟨head, type, rfl, balanced, first⟩ := exists_split_of_mem_topTokens hb colon
    exact ⟨head, type, .typed balanced first⟩
  · exact ⟨segment, [], .untyped colon⟩

/-- The split of a balanced segment is the cut at its first outer colon. -/
theorem headAndType_iff (hb : Balanced segment) :
    HeadAndType head type segment ↔ cutAtColon 0 segment = (head, type) := by
  have forward {head type : List Token} (h : HeadAndType head type segment) :
      cutAtColon 0 segment = (head, type) := by
    cases h with
    | typed balanced first =>
      rw [cutAtColon_append _ balanced first, cutAtColon, if_pos ⟨rfl, rfl⟩, List.append_nil]
    | untyped none =>
      have whole := cutAtColon_append [] hb none
      rwa [List.append_nil, cutAtColon, List.append_nil] at whole
  refine ⟨forward, fun same => ?_⟩
  obtain ⟨before, after, parts⟩ := exists_headAndType hb
  obtain ⟨rfl, rfl⟩ := Prod.mk.inj ((forward parts).symm.trans same)
  exact parts

theorem HeadAndType.type_of_passes {P : List Token → Prop} (parts : PassesToParts P) (nil : P [])
    (h : HeadAndType head type segment) (hs : P segment) : P type := by
  cases h with
  | typed balanced first =>
    obtain ⟨-, rest⟩ := parts head _ balanced hs
    exact (parts [.punct ':'] type rfl rest).2
  | untyped none => exact nil

/-- A name is the last word of its head. -/
theorem lastWord?_eq_some_iff {name : String} : lastWord? ts = some name ↔ IsLastWord name ts := by
  rw [lastWord?, List.findSome?_eq_some_iff]
  constructor
  · rintro ⟨after, t, before, reversed, read, none⟩
    refine ⟨before.reverse, after.reverse, ?_, ?_⟩
    · have whole := congrArg List.reverse reversed
      split at read
      · cases read
        simpa using whole
      · cases read
    · intro word mem
      have read := none _ (List.mem_reverse.mp mem)
      cases read
  · rintro ⟨before, after, rfl, none⟩
    refine ⟨after.reverse, .ident name, before.reverse, by simp, rfl, ?_⟩
    intro t mem
    split
    · next word => exact absurd (List.mem_reverse.mp mem) (none word)
    · rfl

theorem lastWord?_eq_none_iff : lastWord? ts = none ↔ ∀ word, .ident word ∉ ts := by
  rw [lastWord?, List.findSome?_eq_none_iff]
  constructor
  · intro none word mem
    have read := none _ (List.mem_reverse.mpr mem)
    cases read
  · intro none t mem
    split
    · next word => exact absurd (List.mem_reverse.mp mem) (none word)
    · rfl

def parameterOf (head type : List Token) : Option Parameter :=
  (lastWord? head).map fun name => ⟨name, renderType type⟩

def declared? (segment : List Token) : Option Parameter :=
  parameterOf (cutAtColon 0 segment).1 (cutAtColon 0 segment).2

theorem declared?_eq (hb : Balanced segment) (h : HeadAndType head type segment) :
    declared? segment = parameterOf head type := by
  rw [declared?, (headAndType_iff hb).mp h]

theorem parameterOf_eq_none_iff : parameterOf head type = none ↔ ∀ word, .ident word ∉ head := by
  rw [parameterOf, Option.map_eq_none_iff, lastWord?_eq_none_iff]

theorem declares_iff (hb : Balanced segment) : Declares segment p ↔ declared? segment = some p := by
  constructor
  · rintro ⟨head, type, parts, named, typed⟩
    rw [declared?_eq hb parts, parameterOf, lastWord?_eq_some_iff.mpr named, Option.map_some,
      ← typed]
  · intro read
    obtain ⟨name, named, rfl⟩ := Option.map_eq_some_iff.mp read
    exact ⟨_, _, (headAndType_iff hb).mpr rfl, lastWord?_eq_some_iff.mp named, rfl⟩

/-- The declared parameters are those of the segments that declare one. -/
theorem declareAll_iff {ps : List Parameter} (hb : ∀ s ∈ segments, Balanced s) :
    DeclareAll segments ps ↔ segments.filterMap declared? = ps := by
  constructor
  · intro all
    induction all with
    | nil => rfl
    | named declares _ ih =>
      obtain ⟨first, others⟩ := List.forall_mem_cons.mp hb
      rw [List.filterMap_cons_some ((declares_iff first).mp declares), ih others]
    | nameless parts wordless _ ih =>
      obtain ⟨first, others⟩ := List.forall_mem_cons.mp hb
      have none := (declared?_eq first parts).trans (parameterOf_eq_none_iff.mpr wordless)
      rw [List.filterMap_cons_none none, ih others]
  · rintro rfl
    induction segments with
    | nil => exact .nil
    | cons s segments ih =>
      obtain ⟨first, others⟩ := List.forall_mem_cons.mp hb
      cases read : declared? s with
      | some p =>
        rw [List.filterMap_cons_some read]
        exact .named ((declares_iff first).mpr read) (ih others)
      | none =>
        rw [List.filterMap_cons_none read]
        exact .nameless ((headAndType_iff first).mpr rfl) (parameterOf_eq_none_iff.mp read)
          (ih others)

theorem parameter?_of_not_mem (h : .punct ':' ∉ ts) : parameter? ts = parameterOf ts [] := by
  have names := Text.forall_ne_of_not_mem h
  unfold parameter?
  dsimp only
  rw [List.takeWhile_eq_self_iff.mpr names, List.dropWhile_eq_nil_iff.mpr names]
  rfl

theorem parameter?_append {before : List Token} (h : .punct ':' ∉ before) (rest : List Token) :
    parameter? (before ++ .punct ':' :: rest) = parameterOf before rest := by
  unfold parameter?
  dsimp only
  rw [Text.takeWhile_ne_append h, Text.dropWhile_ne_append h]
  rfl

theorem toList_renderType_sign {c : Char} (blank : Text.isBlank c = false) (comma : c ≠ ',')
    (front rest : List Token) :
    (renderType (front ++ .punct c :: rest)).toList =
      spelled front ++ c :: (renderType rest).toList := by
  have sign : piece (.punct c) = [c] := by simp [piece, Token.spelling, comma]
  have whole : spelled (front ++ .punct c :: rest) = spelled front ++ c :: spelled rest := by
    rw [spelled, List.flatMap_append, List.flatMap_cons, sign]
    rfl
  rw [toList_renderType, toList_renderType, whole, Text.trimEnd_append_cons blank]

/-- A sign makes a rendered type longer than what follows it. -/
theorem renderType_sign_ne {c : Char} (blank : Text.isBlank c = false) (comma : c ≠ ',')
    (front rest : List Token) : renderType (front ++ .punct c :: rest) ≠ renderType rest := by
  intro same
  have lengths := congrArg (fun s => s.toList.length) same
  simp only [toList_renderType_sign blank comma, List.length_append, List.length_cons] at lengths
  omega

theorem le_of_not_closes {n m : Nat} (hc : countAfter? n ts = some m)
    (h : ∀ t ∈ ts, t.closes = false) : n ≤ m := by
  induction ts generalizing n with
  | nil => exact (Option.some.inj hc).le
  | cons t ts ih =>
    obtain ⟨k, counted, later⟩ := exists_count_of_cons hc
    obtain ⟨first, others⟩ := List.forall_mem_cons.mp h
    have rest := ih later others
    rcases Token.count_cases counted with ⟨_, same⟩ | ⟨_, closes, _⟩ | ⟨_, _, same⟩
    · omega
    · rw [first] at closes
      cases closes
    · omega

theorem Token.exists_of_closes {t : Token} (h : t.closes = true) :
    ∃ c, t = .punct c ∧ Text.isBlank c = false ∧ c ≠ ',' := by
  cases t with
  | punct c =>
    simp only [closes, Bool.or_eq_true, beq_iff_eq] at h
    rcases h with (rfl | rfl) | rfl <;> exact ⟨_, rfl, rfl, by decide⟩
  | _ => cases h

/-- Behind a colon in brackets stands the bracket that closes them. -/
theorem renderType_ne_of_nested {before after : List Token}
    (hb : Balanced (before ++ .punct ':' :: after))
    (nested : .punct ':' ∉ topTokens 0 (before ++ .punct ':' :: after)) :
    renderType after ≠ renderType [] := by
  rw [Balanced, countAfter?_append] at hb
  obtain ⟨k, counted, later⟩ := Option.bind_eq_some_iff.mp hb
  rw [topTokens_append _ counted, List.mem_append, mem_topTokens_cons_iff] at nested
  have inside : k ≠ 0 := fun zero => nested (.inr (.inl ⟨zero, rfl⟩))
  have closes : ∃ t ∈ after, t.closes = true := by
    by_contra none
    have behind : countAfter? k after = some 0 := later
    have le := le_of_not_closes behind (by simpa using none)
    omega
  obtain ⟨t, mem, closes⟩ := closes
  obtain ⟨c, rfl, blank, comma⟩ := Token.exists_of_closes closes
  obtain ⟨front, rest, rfl⟩ := List.append_of_mem mem
  intro same
  have empty := congrArg String.toList same
  rw [toList_renderType_sign blank comma, toList_renderType []] at empty
  exact List.append_ne_nil_of_right_ne_nil _ (List.cons_ne_nil _ _) empty

/-- The reader takes the head and the type of a segment, or it takes a shorter head and another
type if there is a colon in the head. -/
theorem parameter?_cases (hb : Balanced segment) (h : HeadAndType head type segment) :
    (.punct ':' ∉ head ∧ parameter? segment = parameterOf head type) ∨
      ∃ before after rest, head = before ++ .punct ':' :: after ∧
        parameter? segment = parameterOf before rest ∧ renderType rest ≠ renderType type := by
  by_cases colon : .punct ':' ∈ head
  · right
    obtain ⟨before, after, rfl, first⟩ := List.eq_append_cons_of_mem colon
    cases h with
    | typed balanced top =>
      refine ⟨before, after, after ++ .punct ':' :: type, rfl, ?_, ?_⟩
      · rw [List.append_assoc, List.cons_append, parameter?_append first]
      · exact renderType_sign_ne rfl (by decide) after type
    | untyped top =>
      exact ⟨before, after, after, rfl, parameter?_append first after,
        renderType_ne_of_nested hb top⟩
  · left
    refine ⟨colon, ?_⟩
    cases h with
    | typed balanced top => exact parameter?_append colon type
    | untyped top => exact parameter?_of_not_mem colon

/-- A segment that is read as a parameter declares one. -/
theorem isSome_declared? (hb : Balanced segment) (h : (parameter? segment).isSome) :
    (declared? segment).isSome := by
  obtain ⟨head, type, parts⟩ := exists_headAndType hb
  rw [declared?_eq hb parts]
  rcases parameter?_cases hb parts with ⟨-, read⟩ | ⟨before, after, rest, whole, read, -⟩
  · rwa [read] at h
  · rw [← Option.ne_none_iff_isSome, Ne, parameterOf_eq_none_iff]
    intro wordless
    have none : parameter? segment = none := by
      rw [read, parameterOf_eq_none_iff]
      intro word mem
      exact wordless word (by simp [whole, mem])
    rw [none] at h
    cases h

theorem hidesType_iff (hb : Balanced segment) (h : HeadAndType head type segment) :
    HidesType segment ↔ .punct ':' ∈ head ∧ ∃ word, .ident word ∈ head := by
  constructor
  · rintro ⟨other, _, word, parts, colon, mem⟩
    have same := ((headAndType_iff hb).mp parts).symm.trans ((headAndType_iff hb).mp h)
    rw [← (Prod.mk.inj same).1]
    exact ⟨colon, word, mem⟩
  · rintro ⟨colon, word, mem⟩
    exact ⟨head, type, word, h, colon, mem⟩

/-- A segment is read as it declares unless a colon hides its type. -/
theorem parameter?_eq_declared?_iff (hb : Balanced segment) :
    parameter? segment = declared? segment ↔ ¬HidesType segment := by
  obtain ⟨head, type, parts⟩ := exists_headAndType hb
  rw [hidesType_iff hb parts, declared?_eq hb parts]
  rcases parameter?_cases hb parts with ⟨colon, read⟩ | ⟨before, after, rest, whole, read, other⟩
  · exact iff_of_true read fun h => colon h.1
  · have colon : .punct ':' ∈ head := by simp [whole]
    rw [read, not_and, not_exists]
    constructor
    · intro same _ word mem
      have some : (parameterOf head type).isSome := by
        rw [← Option.ne_none_iff_isSome, Ne, parameterOf_eq_none_iff]
        exact fun wordless => wordless word mem
      obtain ⟨p, found⟩ := Option.isSome_iff_exists.mp some
      obtain ⟨_, _, rfl⟩ := Option.map_eq_some_iff.mp found
      obtain ⟨_, _, typed⟩ := Option.map_eq_some_iff.mp (same.trans found)
      exact other (Parameter.mk.inj typed).2
    · intro wordless
      have none := wordless colon
      rw [parameterOf_eq_none_iff.mpr none, parameterOf_eq_none_iff]
      intro word mem
      exact none word (by simp [whole, mem])

/-- If one function finds no more than another, they find the same only element by element. -/
theorem filterMap_eq_filterMap_iff {α β : Type} {f g : α → Option β} {xs : List α}
    (h : ∀ x ∈ xs, (f x).isSome → (g x).isSome) :
    xs.filterMap f = xs.filterMap g ↔ ∀ x ∈ xs, f x = g x := by
  refine ⟨?_, List.filterMap_congr⟩
  induction xs with
  | nil => simp
  | cons x xs ih =>
    obtain ⟨first, others⟩ := List.forall_mem_cons.mp h
    intro same
    rw [List.forall_mem_cons]
    cases found : f x with
    | some y =>
      obtain ⟨z, also⟩ := Option.isSome_iff_exists.mp (first (by simp [found]))
      rw [List.filterMap_cons_some found, List.filterMap_cons_some also] at same
      obtain ⟨rfl, rest⟩ := List.cons.inj same
      exact ⟨also.symm, ih others rest⟩
    | none =>
      rw [List.filterMap_cons_none found] at same
      cases also : g x with
      | none =>
        rw [List.filterMap_cons_none also] at same
        exact ⟨rfl, ih others same⟩
      | some z =>
        have fewer : (xs.filterMap f).length ≤ (xs.filterMap g).length := by
          rw [List.length_filterMap_eq_countP, List.length_filterMap_eq_countP]
          exact List.countP_mono_left others
        rw [same, List.filterMap_cons_some also, List.length_cons] at fewer
        omega

/-- A list whose brackets match is cut in one way, each segment has one head and one type, and the
brackets of the type match again, by kind if they do so in the list. The parameters that are read
are those of the segments, in order, exactly if no segment hides the type of its parameter behind a
colon in brackets. -/
theorem splitParameters_declared_iff (hb : Balanced ts) :
    ∃ segments, (∀ cut, CutAtCommas ts cut ∧ cut ≠ [] ↔ cut = segments) ∧
      (∀ s ∈ segments, ∃ head type, Balanced type ∧ (Matched ts → Matched type) ∧
        ∀ front rest, HeadAndType front rest s ↔ front = head ∧ rest = type) ∧
      (DeclareAll segments (splitParameters ts) ↔ ∀ s ∈ segments, ¬HidesType s) := by
  have cut := cutAtCommas_commaSegments ts
  have balanced := cut.forall_mem balanced_passes hb hb
  refine ⟨commaSegments 0 ts, fun cut => cutAtCommas_iff hb, ?_, ?_⟩
  · intro s hs
    obtain ⟨head, type, parts⟩ := exists_headAndType (balanced s hs)
    refine ⟨head, type, parts.type_of_passes balanced_passes rfl (balanced s hs), ?_, ?_⟩
    · intro matched
      exact parts.type_of_passes matched_passes rfl (cut.forall_mem matched_passes hb matched s hs)
    · intro front rest
      rw [headAndType_iff (balanced s hs), (headAndType_iff (balanced s hs)).mp parts,
        Prod.mk.injEq]
      exact and_congr eq_comm eq_comm
  · rw [declareAll_iff balanced, splitParameters, eq_comm,
      filterMap_eq_filterMap_iff fun s hs => isSome_declared? (balanced s hs)]
    exact forall₂_congr fun s hs => parameter?_eq_declared?_iff (balanced s hs)

theorem map_parameter_declared :
    let m : List Token := [.ident "m", .punct ':', .ident "Map", .punct '<', .ident "K",
      .punct ',', .ident "V", .punct '>']
    let n : List Token := [.ident "mut", .ident "n"]
    Balanced (m ++ .punct ',' :: n) ∧ CutAtCommas (m ++ .punct ',' :: n) [m, n] ∧
      DeclareAll [m, n] (splitParameters (m ++ .punct ',' :: n)) ∧
      splitParameters (m ++ .punct ',' :: n) = [⟨"m", "Map<K, V>"⟩, ⟨"n", ""⟩] := by
  intro m n
  have hb : Balanced (m ++ .punct ',' :: n) := by decide
  obtain ⟨segments, unique, _, declare⟩ := splitParameters_declared_iff hb
  have cut : CutAtCommas (m ++ .punct ',' :: n) [m, n] := ⟨rfl, by decide, by decide⟩
  obtain rfl : [m, n] = segments := (unique _).mp ⟨cut, List.cons_ne_nil _ _⟩
  refine ⟨hb, cut, declare.mpr ?_, by decide +kernel⟩
  rintro s hs ⟨head, type, word, parts, colon, _⟩
  have matched : ∀ s ∈ [m, n], Balanced s := by decide
  have heads : ∀ s ∈ [m, n], .punct ':' ∉ (cutAtColon 0 s).1 := by decide
  apply heads s hs
  rwa [(headAndType_iff (matched s hs)).mp parts]

/-- A colon in brackets in front of the name hides the name, and a bracket of the parameter stands
in its type without a partner. -/
theorem bracketed_colon_hides_name :
    let ts : List Token := [.punct '[', .ident "key", .punct ':', .ident "Id", .punct ']',
      .ident "entry", .punct ':', .ident "Field"]
    Balanced ts ∧ Matched ts ∧ (∀ t ∈ ts, t.isComment = false) ∧ CutAtCommas ts [ts] ∧
      Declares ts ⟨"entry", "Field"⟩ ∧ splitParameters ts = [⟨"key", "Id]entry:Field"⟩] ∧
      ¬DeclareAll [ts] (splitParameters ts) ∧
      ¬Balanced (tokens "Id]entry:Field") ∧
      (declarations "export circuit put([key: Id] entry: Field): [] {}").circuits =
        [⟨"put", [⟨"key", "Id]entry:Field"⟩], "[]", []⟩] := by
  intro ts
  have hb : Balanced ts := by decide
  have read : splitParameters ts = [⟨"key", "Id]entry:Field"⟩] := by decide +kernel
  have found : declared? ts = some ⟨"entry", "Field"⟩ := by decide +kernel
  have single : ∀ s ∈ [ts], Balanced s := by simpa using hb
  refine ⟨hb, by decide, by decide, ⟨by simp, by decide, by decide⟩, (declares_iff hb).mpr found,
    read, ?_, by decide +kernel, by decide +kernel⟩
  rw [declareAll_iff single, read, List.filterMap_cons_some found]
  simp

end ContractSurface.Source
