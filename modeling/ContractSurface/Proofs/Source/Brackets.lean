import ContractSurface.Source.Declaration

/-! # Brackets in token lists

The readers of a source keep a bracket depth that stops at zero. On a list whose brackets match
this depth is the plain count of open brackets, so the readers pass over such a list as a whole.
Matching, by kind or not, passes on to the parts of a list that is cut outside of brackets.
-/
namespace ContractSurface.Source

/-- The count of open brackets after a token. A closing bracket where none is open has no count. -/
def Token.countAfter? (count : Nat) (t : Token) : Option Nat :=
  if t.opens then some (count + 1)
  else if t.closes then if count = 0 then none else some (count - 1)
  else some count

def countAfter? (count : Nat) (ts : List Token) : Option Nat := ts.foldlM Token.countAfter? count

/-- Every bracket of the list has its partner; the kinds of brackets are not told apart. -/
def Balanced (ts : List Token) : Prop := countAfter? 0 ts = some 0

instance (ts : List Token) : Decidable (Balanced ts) := inferInstanceAs (Decidable (_ = _))

def topTokens : Nat → List Token → List Token
  | _, [] => []
  | depth, t :: ts =>
    if depth = 0 then t :: topTokens (t.depthAfter depth) ts else topTokens (t.depthAfter depth) ts

def withoutComments (ts : List Token) : List Token := ts.filter (!·.isComment)

@[simp] theorem countAfter?_nil (count : Nat) : countAfter? count [] = some count := rfl

theorem countAfter?_cons (count : Nat) (t : Token) (ts : List Token) :
    countAfter? count (t :: ts) = (t.countAfter? count).bind fun n => countAfter? n ts := rfl

theorem countAfter?_append (count : Nat) (ts us : List Token) :
    countAfter? count (ts ++ us) = (countAfter? count ts).bind fun n => countAfter? n us :=
  List.foldlM_append

theorem Token.closes_of_opens {t : Token} (h : t.opens = true) : t.closes = false := by
  cases t with
  | punct c =>
    simp only [opens, Bool.or_eq_true, beq_iff_eq] at h
    rcases h with (rfl | rfl) | rfl <;> rfl
  | _ => rfl

/-- A token opens a bracket, closes one, or leaves the count as it is. -/
theorem Token.count_cases {t : Token} {n m : Nat} (h : t.countAfter? n = some m) :
    (t.opens = true ∧ m = n + 1) ∨ (t.opens = false ∧ t.closes = true ∧ n = m + 1) ∨
      (t.opens = false ∧ t.closes = false ∧ m = n) := by
  unfold countAfter? at h
  split at h
  · next ho =>
    cases h
    exact Or.inl ⟨ho, rfl⟩
  · next ho =>
    split at h
    · next hc =>
      split at h
      · cases h
      · cases h
        exact Or.inr (Or.inl ⟨by simpa using ho, hc, by omega⟩)
    · next hc =>
      cases h
      exact Or.inr (Or.inr ⟨by simpa using ho, by simpa using hc, rfl⟩)

theorem Token.depthAfter_le_of_count {t : Token} {d n m : Nat} (hd : d ≤ n)
    (h : t.countAfter? n = some m) : t.depthAfter d ≤ m := by
  unfold depthAfter
  rcases count_cases h with ⟨ho, hm⟩ | ⟨ho, hc, hm⟩ | ⟨ho, hc, hm⟩
  · simp only [ho, if_true]; omega
  · simp only [ho, hc, if_true, Bool.false_eq_true, if_false]; omega
  · simp only [ho, hc, Bool.false_eq_true, if_false]; omega

theorem Token.depthAfter_add_of_count {t : Token} {n m : Nat} (k : Nat)
    (h : t.countAfter? n = some m) : t.depthAfter (n + k) = m + k := by
  unfold depthAfter
  rcases count_cases h with ⟨ho, hm⟩ | ⟨ho, hc, hm⟩ | ⟨ho, hc, hm⟩
  · simp only [ho, if_true]; omega
  · simp only [ho, hc, if_true, Bool.false_eq_true, if_false]; omega
  · simp only [ho, hc, Bool.false_eq_true, if_false]; omega

theorem Token.depthAfter_of_count {t : Token} {n m : Nat} (h : t.countAfter? n = some m) :
    t.depthAfter n = m := depthAfter_add_of_count 0 h

theorem exists_count_of_cons {n m : Nat} {t : Token} {ts : List Token}
    (h : countAfter? n (t :: ts) = some m) :
    ∃ k, t.countAfter? n = some k ∧ countAfter? k ts = some m := by
  rw [countAfter?_cons] at h
  exact Option.bind_eq_some_iff.mp h

theorem mem_topTokens_cons_iff {n : Nat} {t u : Token} {ts : List Token} :
    u ∈ topTokens n (t :: ts) ↔ (n = 0 ∧ u = t) ∨ u ∈ topTokens (t.depthAfter n) ts := by
  rw [topTokens]
  split
  · next hn => simp [hn]
  · next hn => simp [hn]

/-- Where the count never falls below zero, no bracket closes at depth zero. -/
theorem closes_of_mem_topTokens {n m : Nat} {t : Token} {ts : List Token}
    (hc : countAfter? n ts = some m) (ht : t ∈ topTokens n ts) : t.closes = false := by
  induction ts generalizing n with
  | nil => cases ht
  | cons u ts ih =>
    obtain ⟨k, hk, hts⟩ := exists_count_of_cons hc
    rcases mem_topTokens_cons_iff.mp ht with ⟨rfl, rfl⟩ | ht
    · rcases Token.count_cases hk with ⟨ho, _⟩ | ⟨_, _, hm⟩ | ⟨_, hcl, _⟩
      · exact Token.closes_of_opens ho
      · omega
      · exact hcl
    · rw [Token.depthAfter_of_count hk] at ht
      exact ih hts ht

@[simp] theorem withoutComments_nil : withoutComments [] = [] := rfl

theorem withoutComments_cons (t : Token) (ts : List Token) :
    withoutComments (t :: ts) =
      if t.isComment then withoutComments ts else t :: withoutComments ts := by
  cases h : t.isComment <;> simp [withoutComments, h]

theorem topTokens_append {n m : Nat} {ts : List Token} (us : List Token)
    (hc : countAfter? n ts = some m) :
    topTokens n (ts ++ us) = topTokens n ts ++ topTokens m us := by
  induction ts generalizing n with
  | nil =>
    cases hc
    rfl
  | cons t ts ih =>
    obtain ⟨k, hk, hts⟩ := exists_count_of_cons hc
    rw [List.cons_append, topTokens, topTokens, Token.depthAfter_of_count hk, ih hts]
    split <;> rfl

theorem Balanced.append {ts us : List Token} (ht : Balanced ts) (hu : Balanced us) :
    Balanced (ts ++ us) := by
  unfold Balanced at *
  rw [countAfter?_append, ht, Option.bind_some, hu]

theorem Token.countAfter?_of_isComment {t : Token} (n : Nat) (h : t.isComment = true) :
    t.countAfter? n = some n := by
  cases t <;> first | rfl | cases h

/-- Comments have no part in the brackets of a list. -/
theorem countAfter?_withoutComments (n : Nat) (ts : List Token) :
    countAfter? n (withoutComments ts) = countAfter? n ts := by
  induction ts generalizing n with
  | nil => rfl
  | cons t ts ih =>
    rw [withoutComments_cons]
    split
    · next ht => rw [countAfter?_cons, Token.countAfter?_of_isComment n ht, Option.bind_some, ih]
    · simp only [countAfter?_cons, ih]

/-- Comments do not change what stands outside of brackets. -/
theorem topTokens_withoutComments {n m : Nat} {ts : List Token} (hc : countAfter? n ts = some m) :
    topTokens n (withoutComments ts) = withoutComments (topTokens n ts) := by
  induction ts generalizing n with
  | nil => rfl
  | cons t ts ih =>
    obtain ⟨k, hk, hts⟩ := exists_count_of_cons hc
    have hd := Token.depthAfter_of_count hk
    cases ht : t.isComment with
    | true =>
      obtain rfl : n = k := by simpa [Token.countAfter?_of_isComment n ht] using hk
      rw [withoutComments_cons, if_pos ht, topTokens, hd, ih hts]
      split <;> simp [withoutComments_cons, ht]
    | false =>
      rw [withoutComments_cons, ht, if_neg (by simp), topTokens, topTokens, hd, ih hts]
      split <;> simp [withoutComments_cons, ht]

/-- The first token of its kind at depth zero ends a list whose brackets match. -/
theorem exists_split_of_mem_topTokens {t : Token} {ts : List Token} {n m : Nat}
    (hc : countAfter? n ts = some m) (ht : t ∈ topTokens n ts) :
    ∃ before after, ts = before ++ t :: after ∧ countAfter? n before = some 0 ∧
      t ∉ topTokens n before := by
  induction ts generalizing n with
  | nil => cases ht
  | cons u ts ih =>
    by_cases here : n = 0 ∧ t = u
    · obtain ⟨rfl, rfl⟩ := here
      exact ⟨[], ts, rfl, rfl, List.not_mem_nil⟩
    obtain ⟨k, counted, later⟩ := exists_count_of_cons hc
    have depth := Token.depthAfter_of_count counted
    have inner := (mem_topTokens_cons_iff.mp ht).resolve_left here
    rw [depth] at inner
    obtain ⟨before, after, rfl, count, first⟩ := ih later inner
    refine ⟨u :: before, after, rfl, ?_, ?_⟩
    · rw [countAfter?_cons, counted, Option.bind_some, count]
    · rw [mem_topTokens_cons_iff, depth]
      exact not_or.mpr ⟨here, first⟩

theorem collectUntil_cons_stop {stop : Token → Bool} {t : Token} (ts : List Token)
    (h : stop t ∨ t = Token.exportWord) : collectUntil stop 0 (t :: ts) = ([], t :: ts) := by
  unfold collectUntil
  exact if_pos ⟨rfl, h⟩

/-- A list is collected as a whole when nothing at its depth zero ends the collection. -/
theorem collectUntil_append {stop : Token → Bool} {n m : Nat} {ts : List Token}
    (rest : List Token) (hc : countAfter? n ts = some m)
    (ht : ∀ t ∈ topTokens n ts, stop t = false ∧ t ≠ Token.exportWord) :
    collectUntil stop n (ts ++ rest) =
      (withoutComments ts ++ (collectUntil stop m rest).1, (collectUntil stop m rest).2) := by
  induction ts generalizing n with
  | nil =>
    cases hc
    simp
  | cons t ts ih =>
    obtain ⟨k, hk, hts⟩ := exists_count_of_cons hc
    have hd := Token.depthAfter_of_count hk
    have go : ¬(n = 0 ∧ (stop t ∨ t = Token.exportWord)) := by
      rintro ⟨rfl, h⟩
      obtain ⟨hs, he⟩ := ht t (by simp [topTokens])
      rcases h with h | h
      · simp [hs] at h
      · exact he h
    have tops : ∀ u ∈ topTokens k ts, stop u = false ∧ u ≠ Token.exportWord := fun u hu =>
      ht u (mem_topTokens_cons_iff.mpr (Or.inr (by rwa [hd])))
    rw [List.cons_append, collectUntil, if_neg go, hd, ih hts tops, withoutComments_cons]
    split <;> rfl

theorem collectUntil_balanced {stop : Token → Bool} {ts : List Token} {t : Token}
    (rest : List Token) (hb : Balanced ts)
    (ht : ∀ u ∈ topTokens 0 ts, stop u = false ∧ u ≠ Token.exportWord) (hs : stop t = true) :
    collectUntil stop 0 (ts ++ t :: rest) = (withoutComments ts, t :: rest) := by
  rw [collectUntil_append _ hb ht, collectUntil_cons_stop _ (Or.inl hs)]
  simp

theorem skipGroup_append {n m : Nat} {ts : List Token} (rest : List Token)
    (hc : countAfter? n ts = some m) : skipGroup (n + 1) (ts ++ rest) = skipGroup (m + 1) rest := by
  induction ts generalizing n with
  | nil =>
    cases hc
    rfl
  | cons t ts ih =>
    obtain ⟨k, hk, hts⟩ := exists_count_of_cons hc
    have hd := Token.depthAfter_add_of_count 1 hk
    rw [List.cons_append, skipGroup, hd, if_neg (by simp)]
    exact ih hts

theorem skipGroup_angles {ts : List Token} (rest : List Token) (hb : Balanced ts) :
    skipGroup 0 (.punct '<' :: (ts ++ .punct '>' :: rest)) = rest := by
  have opened : skipGroup 0 (.punct '<' :: (ts ++ .punct '>' :: rest)) =
      skipGroup 1 (ts ++ .punct '>' :: rest) := rfl
  rw [opened, skipGroup_append _ hb]
  rfl

theorem commaSegments_cons_comma (ts : List Token) :
    commaSegments 0 (.punct ',' :: ts) = [] :: commaSegments 0 ts := by
  rw [commaSegments, if_pos ⟨rfl, rfl⟩]

theorem commaSegments_ne_nil (depth : Nat) (ts : List Token) : commaSegments depth ts ≠ [] := by
  cases ts with
  | nil => simp [commaSegments]
  | cons t ts =>
    unfold commaSegments
    split
    · simp
    · split <;> simp

theorem commaSegments_cons {depth : Nat} {t : Token} (ts : List Token)
    (h : ¬(t = .punct ',' ∧ depth = 0)) :
    commaSegments depth (t :: ts) =
      (commaSegments (t.depthAfter depth) ts).modifyHead (t :: ·) := by
  rw [commaSegments, if_neg h]
  cases hs : commaSegments (t.depthAfter depth) ts with
  | nil => exact absurd hs (commaSegments_ne_nil _ _)
  | cons segment rest => rfl

/-- A list without a comma at its depth zero belongs to the first segment as a whole. -/
theorem commaSegments_append {n m : Nat} {ts : List Token} (rest : List Token)
    (hc : countAfter? n ts = some m) (ht : ∀ t ∈ topTokens n ts, t ≠ .punct ',') :
    commaSegments n (ts ++ rest) = (commaSegments m rest).modifyHead (ts ++ ·) := by
  induction ts generalizing n with
  | nil =>
    cases hc
    rw [List.nil_append]
    cases commaSegments m rest <;> rfl
  | cons t ts ih =>
    obtain ⟨k, hk, hts⟩ := exists_count_of_cons hc
    have hd := Token.depthAfter_of_count hk
    have go : ¬(t = .punct ',' ∧ n = 0) := by
      rintro ⟨ht', rfl⟩
      exact ht t (by simp [topTokens]) ht'
    have tops : ∀ u ∈ topTokens k ts, u ≠ .punct ',' := fun u hu =>
      ht u (mem_topTokens_cons_iff.mpr (Or.inr (by rwa [hd])))
    rw [List.cons_append, commaSegments_cons _ go, hd, ih hts tops, List.modifyHead_modifyHead]
    rfl

/-- Cutting undoes joining with commas. -/
theorem commaSegments_intercalate {segments : List (List Token)} (hne : segments ≠ [])
    (hs : ∀ s ∈ segments, Balanced s ∧ ∀ t ∈ topTokens 0 s, t ≠ .punct ',') :
    commaSegments 0 ([.punct ','].intercalate segments) = segments := by
  induction segments with
  | nil => exact absurd rfl hne
  | cons s rest ih =>
    obtain ⟨hb, ht⟩ := hs s List.mem_cons_self
    cases rest with
    | nil =>
      have whole := commaSegments_append [] hb ht
      rw [List.append_nil] at whole
      rw [List.intercalate_singleton, whole]
      simp [commaSegments]
    | cons u us =>
      have inner := ih (by simp) fun v hv => hs v (List.mem_cons_of_mem s hv)
      rw [List.intercalate_cons_cons, List.append_assoc, List.singleton_append,
        commaSegments_append _ hb ht, commaSegments_cons_comma, inner]
      simp

def closing? (c : Char) : Option Char :=
  if c = '<' then some '>'
  else if c = '(' then some ')'
  else if c = '[' then some ']'
  else none

/-- The brackets that are still to close after a token, the next one first. A closing bracket that
is not the next one has none. -/
def Token.awaitedAfter? (awaited : List Char) (t : Token) : Option (List Char) :=
  match t with
  | .punct c =>
    match closing? c with
    | some d => some (d :: awaited)
    | none =>
      if t.closes then if awaited.head? = some c then some awaited.tail else none
      else some awaited
  | _ => some awaited

def awaitedAfter? (awaited : List Char) (ts : List Token) : Option (List Char) :=
  ts.foldlM Token.awaitedAfter? awaited

/-- Every bracket of the list has a partner of its kind. -/
def Matched (ts : List Token) : Prop := awaitedAfter? [] ts = some []

instance (ts : List Token) : Decidable (Matched ts) := inferInstanceAs (Decidable (_ = _))

theorem awaitedAfter?_append (awaited : List Char) (ts us : List Token) :
    awaitedAfter? awaited (ts ++ us) =
      (awaitedAfter? awaited ts).bind fun a => awaitedAfter? a us :=
  List.foldlM_append

theorem opens_iff {c : Char} : (Token.punct c).opens = true ↔ ∃ d, closing? c = some d := by
  simp only [Token.opens, Bool.or_eq_true, beq_iff_eq]
  constructor
  · rintro ((rfl | rfl) | rfl)
    · exact ⟨'>', rfl⟩
    · exact ⟨')', rfl⟩
    · exact ⟨']', rfl⟩
  · rintro ⟨d, opening⟩
    unfold closing? at opening
    split at opening
    · next angle => exact .inl (.inl angle)
    · split at opening
      · next round => exact .inl (.inr round)
      · split at opening
        · next square => exact .inr square
        · cases opening

/-- A token adds the bracket that closes it, takes the next awaited one away, or leaves the awaited
brackets alone. -/
theorem Token.awaited_cases {t : Token} {a b : List Char} (h : t.awaitedAfter? a = some b) :
    (t.opens = true ∧ ∃ d, b = d :: a) ∨
    (t.opens = false ∧ t.closes = true ∧ ∃ c, a = c :: b) ∨
    (t.opens = false ∧ t.closes = false ∧ b = a) := by
  cases t with
  | punct c =>
    unfold awaitedAfter? at h
    dsimp only at h
    split at h
    · next d opening =>
      cases h
      exact .inl ⟨opens_iff.mpr ⟨d, opening⟩, d, rfl⟩
    · next other =>
      have plain : (Token.punct c).opens = false := by
        rw [Bool.eq_false_iff, ne_eq, opens_iff, other]
        simp
      split at h
      · next closes =>
        split at h
        · next last =>
          cases h
          cases a with
          | nil => cases last
          | cons d rest => exact .inr (.inl ⟨plain, closes, d, rfl⟩)
        · cases h
      · next closes =>
        cases h
        exact .inr (.inr ⟨plain, Bool.eq_false_iff.mpr closes, rfl⟩)
  | _ =>
    cases h
    exact .inr (.inr ⟨rfl, rfl, rfl⟩)

theorem Token.countAfter?_of_awaited {t : Token} {a b : List Char}
    (h : t.awaitedAfter? a = some b) : t.countAfter? a.length = some b.length := by
  unfold countAfter?
  obtain ⟨opens, d, rfl⟩ | ⟨plain, closes, c, rfl⟩ | ⟨plain, inert, rfl⟩ := awaited_cases h
  · rw [if_pos opens, List.length_cons]
  · simp [plain, closes]
  · simp [plain, inert]

theorem countAfter?_of_awaited {ts : List Token} {a b : List Char}
    (h : awaitedAfter? a ts = some b) : countAfter? a.length ts = some b.length := by
  induction ts generalizing a with
  | nil =>
    cases h
    rfl
  | cons t ts ih =>
    obtain ⟨c, first, later⟩ := Option.bind_eq_some_iff.mp h
    rw [countAfter?_cons, Token.countAfter?_of_awaited first, Option.bind_some, ih later]

/-- The property passes on to both parts of a list that is cut outside of brackets. -/
def PassesToParts (P : List Token → Prop) : Prop :=
  ∀ ts us, Balanced ts → P (ts ++ us) → P ts ∧ P us

theorem balanced_passes : PassesToParts Balanced := by
  intro ts us ht h
  rw [Balanced, countAfter?_append, ht] at h
  exact ⟨ht, h⟩

theorem matched_passes : PassesToParts Matched := by
  intro ts us ht h
  rw [Matched, awaitedAfter?_append] at h
  obtain ⟨a, first, later⟩ := Option.bind_eq_some_iff.mp h
  have none := Option.some.inj ((countAfter?_of_awaited first).symm.trans ht)
  obtain rfl := List.eq_nil_of_length_eq_zero none
  exact ⟨first, later⟩

end ContractSurface.Source
