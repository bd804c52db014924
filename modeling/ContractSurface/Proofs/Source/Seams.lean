import ContractSurface.Proofs.Source.Lexing

/-! # Lexing a text in pieces

Where a text ends can be told character by character: between tokens, behind a slash that may still
become a comment, or within a line comment, a block comment or a string. A cut splits the tokens
exactly where the text before it stands at an end that the text behind it does not change.
-/
namespace ContractSurface.Source

inductive Ending where
  | clear
  /-- Behind a slash that the next character may make the start of a comment. -/
  | slash
  | line
  /-- In a block comment; `star` tells that a slash closes it. -/
  | block (star : Bool)
  /-- In a string; `escape` tells that the next character belongs to it, whatever it is. -/
  | string (escape : Bool)
  deriving DecidableEq, Repr

namespace Ending

def next : Ending → Char → Ending
  | line, c => if c = '\n' then clear else line
  | block star, c => if star && c == '/' then clear else block (c == '*')
  | string true, _ => string false
  | string false, c => if c = '"' then clear else string (c == '\\')
  | slash, '/' => line
  | slash, '*' => block false
  | _, c => if c = '/' then slash else if c = '"' then string false else clear

def InString (e : Ending) : Prop := ∃ escape, e = string escape

def InBlock (e : Ending) : Prop := ∃ star, e = block star

def run (e : Ending) (cs : List Char) : Ending := cs.foldl next e

/-- A text with this ending may go on with the character, and no token goes on with it. -/
def Stands (e : Ending) (d : Char) : Prop :=
  isWordChar d = false ∧ isPoint d = false ∧
    match e with
    | clear => True
    | slash => d ≠ '/' ∧ d ≠ '*'
    | line => d = '\n'
    | _ => False

variable {e : Ending} {c d : Char} {cs : List Char}

@[simp] theorem run_nil (e : Ending) : e.run [] = e := rfl

@[simp] theorem run_cons (e : Ending) (c : Char) (cs : List Char) :
    e.run (c :: cs) = (e.next c).run cs := rfl

theorem run_append (e : Ending) (cs ds : List Char) : e.run (cs ++ ds) = (e.run cs).run ds :=
  List.foldl_append

theorem next_clear (slash : c ≠ '/') (quote : c ≠ '"') : clear.next c = clear := by
  simp [next, slash, quote]

theorem next_slash (hc : c ≠ '/' ∧ c ≠ '*') : slash.next c = clear.next c := by
  unfold next
  split <;> simp_all

theorem run_clear_of_isWordChar (h : ∀ c ∈ cs, isWordChar c = true) : clear.run cs = clear := by
  induction cs with
  | nil => rfl
  | cons c cs ih =>
    obtain ⟨word, h⟩ := List.forall_mem_cons.mp h
    rw [run_cons, next_clear (ne_of_isWordChar word rfl) (ne_of_isWordChar word rfl), ih h]

def pending (star : Bool) : List Char := if star then ['*'] else []

end Ending

def ending (cs : List Char) : Ending := Ending.clear.run cs

variable {a cs : List Char} {c d : Char}

theorem ending_cons_of_isBlank (h : Text.isBlank c = true) (cs : List Char) :
    ending (c :: cs) = ending cs := by
  have slash : c ≠ '/' := by
    rintro rfl
    cases h
  have quote : c ≠ '"' := by
    rintro rfl
    cases h
  rw [ending, Ending.run_cons, Ending.next_clear slash quote, ending]

theorem readItem_line (rest : List Char) :
    readItem '/' ('/' :: rest) =
      (some (.comment (commentText (rest.takeWhile (· != '\n')))), rest.dropWhile (· != '\n')) :=
  rfl

theorem span_append {p : Char → Bool} (h : p d = false) (cs s : List Char) :
    (cs ++ d :: s).takeWhile p = cs.takeWhile p ∧
      (cs ++ d :: s).dropWhile p = cs.dropWhile p ++ d :: s := by
  induction cs with
  | nil => simp [h]
  | cons c cs ih =>
    rw [List.cons_append, List.takeWhile_cons, List.dropWhile_cons, List.takeWhile_cons,
      List.dropWhile_cons, ih.1, ih.2]
    split <;> simp

theorem afterBlockComment_cons (h : ¬(c = '*' ∧ cs.head? = some '/')) :
    afterBlockComment (c :: cs) = afterBlockComment cs := by
  rw [afterBlockComment]
  rintro rest rfl rfl
  exact h ⟨rfl, rfl⟩

theorem afterBlockComment_pending {star : Bool} (h : ¬(star = true ∧ c = '/')) (cs : List Char) :
    afterBlockComment (Ending.pending star ++ c :: cs) =
      afterBlockComment (Ending.pending (c == '*') ++ cs) := by
  have passed :
      afterBlockComment (Ending.pending star ++ c :: cs) = afterBlockComment (c :: cs) := by
    cases star with
    | false => rfl
    | true => exact afterBlockComment_cons fun close => h ⟨rfl, Option.some.inj close.2⟩
  rw [passed]
  by_cases star : c = '*'
  · rw [star]
    rfl
  · rw [afterBlockComment_cons fun close => star close.1, beq_eq_false_iff_ne.mpr star]
    rfl

/-- A block comment either is still open at the end, or is closed in the text whatever follows. -/
theorem block_open_or_closed (star : Bool) (cs : List Char) :
    ((Ending.block star).run cs).InBlock ∨
      (Ending.block star).run cs = ending (afterBlockComment (Ending.pending star ++ cs)) ∧
        ∀ s, afterBlockComment (Ending.pending star ++ (cs ++ s)) =
          afterBlockComment (Ending.pending star ++ cs) ++ s := by
  induction cs generalizing star with
  | nil => exact Or.inl ⟨star, rfl⟩
  | cons c cs ih =>
    by_cases close : star = true ∧ c = '/'
    · obtain ⟨rfl, rfl⟩ := close
      exact Or.inr ⟨rfl, fun s => rfl⟩
    · have step : (Ending.block star).next c = .block (c == '*') := by
        simpa [Ending.next] using close
      rw [Ending.run_cons, step, afterBlockComment_pending close]
      refine (ih (c == '*')).imp_right fun closed => ⟨closed.1, fun s => ?_⟩
      rw [List.cons_append, afterBlockComment_pending close, closed.2]

/-- A string either is still open at the end, or is closed in the text whatever follows. -/
theorem string_open_or_closed (cs : List Char) :
    ((Ending.string false).run cs).InString ∨
      (Ending.string false).run cs = ending (readString cs).2 ∧
        ∀ s, readString (cs ++ s) = ((readString cs).1, (readString cs).2 ++ s) := by
  fun_induction readString cs with
  | case1 => exact Or.inl ⟨false, rfl⟩
  | case2 rest => exact Or.inr ⟨rfl, fun s => rfl⟩
  | case3 c rest ih =>
    refine ih.imp_right fun closed => ⟨closed.1, fun s => ?_⟩
    rw [List.cons_append, List.cons_append, readString, closed.2]
    rfl
  | case4 rest quote escape =>
    cases rest with
    | nil => exact Or.inl ⟨true, rfl⟩
    | cons c rest => exact absurd rfl (escape c rest rfl)
  | case5 c rest quote escape slash ih =>
    have step : (Ending.string false).next c = .string false := by
      rw [Ending.next, if_neg quote, beq_eq_false_iff_ne.mpr slash]
    rw [Ending.run_cons, step]
    refine ih.imp_right fun closed => ⟨closed.1, fun s => ?_⟩
    rw [List.cons_append, readString, if_neg slash, closed.2]
    · rfl
    · exact quote
    · exact fun _ _ same _ => slash same

/-- The item is read alike whatever follows the text, and the text behind it ends in a way that the
character may follow. -/
def ReadsApart (d : Char) (c : Char) (cs : List Char) : Prop :=
  (∀ s, readItem c (cs ++ d :: s) = ((readItem c cs).1, (readItem c cs).2 ++ d :: s)) ∧
    (ending (readItem c cs).2).Stands d

theorem line_append (h : (Ending.line.run cs).Stands d) :
    (∀ s, (cs ++ d :: s).takeWhile (· != '\n') = cs.takeWhile (· != '\n') ∧
      (cs ++ d :: s).dropWhile (· != '\n') = cs.dropWhile (· != '\n') ++ d :: s) ∧
      (ending (cs.dropWhile (· != '\n'))).Stands d := by
  induction cs with
  | nil =>
    obtain rfl : d = '\n' := h.2.2
    exact ⟨fun s => span_append rfl [] s, h.1, h.2.1, trivial⟩
  | cons c cs ih =>
    by_cases lineEnd : c = '\n'
    · subst lineEnd
      exact ⟨fun s => ⟨rfl, rfl⟩, h⟩
    · have inside : ∀ rest, (c :: rest).takeWhile (· != '\n') = c :: rest.takeWhile (· != '\n') ∧
          (c :: rest).dropWhile (· != '\n') = rest.dropWhile (· != '\n') := by
        intro rest
        simp [lineEnd]
      rw [Ending.run_cons, Ending.next, if_neg lineEnd] at h
      obtain ⟨read, behind⟩ := ih h
      rw [(inside cs).1, (inside cs).2]
      refine ⟨fun s => ?_, behind⟩
      rw [List.cons_append, (inside _).1, (inside _).2, (read s).1, (read s).2]
      exact ⟨rfl, rfl⟩

theorem readsApart_slash (h : (Ending.slash.run cs).Stands d) : ReadsApart d '/' cs := by
  have plain : Ending.clear.Stands d := ⟨h.1, h.2.1, trivial⟩
  cases cs with
  | nil =>
    have alone : ∀ s, readItem '/' (d :: s) = (some (.punct '/'), d :: s) := fun s =>
      readItem_slash fun c hc => Option.some.inj hc ▸ h.2.2
    exact ⟨alone, plain⟩
  | cons c cs =>
    by_cases line : c = '/'
    · subst line
      have stands : (Ending.line.run cs).Stands d := h
      obtain ⟨read, behind⟩ := line_append stands
      refine ⟨fun s => ?_, behind⟩
      rw [List.cons_append, readItem_line, (read s).1, (read s).2, readItem_line]
    by_cases block : c = '*'
    · subst block
      rcases block_open_or_closed false cs with ⟨star, inside⟩ | ⟨outside, same⟩
      · have never : (Ending.block star).Stands d := inside ▸ h
        exact never.2.2.elim
      · have behind : (ending (afterBlockComment cs)).Stands d := outside ▸ h
        exact ⟨fun s => congrArg (Prod.mk none) (same (d :: s)), behind⟩
    · have alone : ∀ s, readItem '/' (c :: s) = (some (.punct '/'), c :: s) := fun s =>
        readItem_slash fun e he => Option.some.inj he ▸ ⟨line, block⟩
      rw [Ending.run_cons, Ending.next_slash ⟨line, block⟩] at h
      refine ⟨fun s => ?_, ?_⟩
      · rw [List.cons_append, alone, alone]
        rfl
      · rw [alone]
        exact h

theorem readsApart_quote (h : ((Ending.string false).run cs).Stands d) : ReadsApart d '"' cs := by
  rcases string_open_or_closed cs with ⟨escape, inside⟩ | ⟨outside, same⟩
  · have never : (Ending.string escape).Stands d := inside ▸ h
    exact never.2.2.elim
  · have behind : (ending (readString cs).2).Stands d := outside ▸ h
    refine ⟨fun s => ?_, ?_⟩
    · rw [readItem_string (same (d :: s)), readItem_string rfl]
    · rwa [readItem_string rfl]

theorem ending_dropWhile {p : Char → Bool} (h : ∀ c, p c = true → isWordChar c = true)
    (cs : List Char) : ending (cs.dropWhile p) = ending cs := by
  have run : ∀ c ∈ cs.takeWhile p, isWordChar c = true := fun c hc =>
    h c (List.mem_takeWhile_imp hc)
  conv_rhs => rw [ending, ← List.takeWhile_append_dropWhile (p := p) (l := cs), Ending.run_append,
    Ending.run_clear_of_isWordChar run]
  rfl

/-- An item that is neither a slash nor a string is read alike before what its ending allows. -/
theorem readsApart_plain (slash : c ≠ '/') (quote : c ≠ '"') (hb : Text.isBlank c = false)
    (h : (ending cs).Stands d) : ReadsApart d c cs := by
  have digit : d.isDigit = false := by
    have word := h.1
    rw [isWordChar_eq, Bool.or_eq_false_iff] at word
    exact word.2
  by_cases number : c.isDigit = true
  · refine ⟨fun s => ?_, ?_⟩
    · obtain ⟨taken, dropped⟩ := span_append digit cs s
      rw [readItem_number _ number, readItem_number _ number, taken, dropped]
    · rwa [readItem_number _ number, ending_dropWhile fun _ => isWordChar_of_isDigit]
  by_cases start : isWordStart c = true
  · refine ⟨fun s => ?_, ?_⟩
    · obtain ⟨taken, dropped⟩ := span_append h.1 cs s
      rw [readItem_word _ start, readItem_word _ start, taken, dropped]
    · rwa [readItem_word _ start, ending_dropWhile fun _ word => word]
  by_cases point : c = '.'
  · subst point
    by_cases range : cs.head? = some '.'
    · obtain ⟨rest, rfl⟩ := List.head?_eq_some_iff.mp range
      exact ⟨fun s => rfl, h⟩
    · have ends : EndsRun isPoint cs := by
        intro e he
        refine isPoint_of_ne ?_
        rintro rfl
        exact range he
      have ends' : ∀ s, EndsRun isPoint (cs ++ d :: s) := by
        intro s
        cases cs with
        | nil => exact fun e he => Option.some.inj he ▸ h.2.1
        | cons c cs => exact ends
      refine ⟨fun s => ?_, ?_⟩
      · rw [readItem_point (ends' s), readItem_point ends]
      · rwa [readItem_point ends]
  · have lexical : (Token.punct c).IsLexical := by
      refine ⟨hb, quote, ?_⟩
      rw [isWordChar_eq, Bool.or_eq_false_iff]
      exact ⟨by simpa using start, by simpa using number⟩
    have sign := readItem_sign lexical (by simp [slash, point])
    refine ⟨fun s => ?_, ?_⟩
    · rw [sign, sign]
    · rwa [sign]

/-- The text may be cut before a character that goes on with no token. -/
theorem lex_append_of_stands (h : (ending a).Stands d) (s : List Char) :
    lex (a ++ d :: s) = lex a ++ lex (d :: s) := by
  induction a using lex.induct with
  | case1 => rw [lex_nil, List.nil_append, List.nil_append]
  | case2 c cs blank ih =>
    rw [ending_cons_of_isBlank blank] at h
    rw [List.cons_append, lex_cons_blank _ blank, lex_cons_blank _ blank, ih h]
  | case3 c cs blank ih =>
    have apart : ReadsApart d c cs := by
      by_cases slash : c = '/'
      · subst slash
        exact readsApart_slash h
      by_cases quote : c = '"'
      · subst quote
        exact readsApart_quote h
      change ((Ending.clear.next c).run cs).Stands d at h
      rw [Ending.next_clear slash quote] at h
      exact readsApart_plain slash quote (by simpa using blank) h
    rw [List.cons_append, lex_cons, if_neg blank, apart.1, lex_cons, if_neg blank, ih apart.2,
      List.append_assoc]

def Ending.held (escape : Bool) : List Char := if escape then ['\\'] else []

/-- The characters start an item that goes on to the end of the text and may go on behind it. -/
inductive Opens : List Char → Ending → Prop
  | slash : Opens ['/'] .slash
  | line {inside : List Char} : '\n' ∉ inside → Opens ('/' :: '/' :: inside) .line
  | block {inside : List Char} {star : Bool} :
      (∀ s, afterBlockComment (inside ++ s) = afterBlockComment (Ending.pending star ++ s)) →
      Opens ('/' :: '*' :: inside) (.block star)
  | string {inside content : List Char} {escape : Bool} :
      (∀ s, readString (inside ++ s) =
        (readString (Ending.held escape ++ s)).map (content ++ ·) id) →
      Opens ('"' :: inside) (.string escape)

theorem ending_concat (cs : List Char) (c : Char) : ending (cs ++ [c]) = (ending cs).next c := by
  rw [ending, Ending.run_append]
  rfl

theorem map_cons_append (content : List Char) (c : Char) (r : List Char × List Char) :
    (r.map (c :: ·) id).map (content ++ ·) id = r.map (content ++ [c] ++ ·) id :=
  Prod.ext (by simp) rfl

theorem Opens.string_concat {inside content : List Char} {escape : Bool}
    (read : ∀ s, readString (inside ++ s) =
      (readString (Ending.held escape ++ s)).map (content ++ ·) id)
    (open' : (Ending.string escape).next c ≠ .clear) :
    Opens ('"' :: (inside ++ [c])) ((Ending.string escape).next c) := by
  have more : ∀ s, readString (inside ++ [c] ++ s) =
      (readString (Ending.held escape ++ c :: s)).map (content ++ ·) id := by
    intro s
    rw [List.append_assoc, List.singleton_append, read]
  cases escape with
  | true =>
    refine @Opens.string _ (content ++ [c]) _ fun s => (more s).trans ?_
    rw [Ending.held, if_pos rfl, List.singleton_append, readString, map_cons_append]
    rfl
  | false =>
    have quote : c ≠ '"' := by
      rintro rfl
      exact open' rfl
    rw [Ending.next, if_neg quote]
    by_cases escape : c = '\\'
    · subst escape
      exact .string more
    · rw [beq_eq_false_iff_ne.mpr escape]
      refine @Opens.string _ (content ++ [c]) _ fun s => (more s).trans ?_
      have plain : readString (c :: s) = (readString s).map (c :: ·) id := by
        rw [readString, if_neg escape]
        · exact quote
        · exact fun _ _ same _ => escape same
      rw [Ending.held, if_neg Bool.false_ne_true, List.nil_append, plain, map_cons_append]
      rfl

/-- An item that is open stays so with one more character that does not close it. -/
theorem Opens.concat {e : Ending} (h : Opens cs e) (open' : e.next c ≠ .clear)
    (other : e = .slash → c = '/' ∨ c = '*') : Opens (cs ++ [c]) (e.next c) := by
  cases h with
  | slash =>
    rcases other rfl with rfl | rfl
    · exact .line List.not_mem_nil
    · exact .block fun s => rfl
  | @line inside within =>
    have lineEnd : c ≠ '\n' := by
      rintro rfl
      exact open' rfl
    rw [Ending.next, if_neg lineEnd]
    refine .line ?_
    simp [within, Ne.symm lineEnd]
  | @block inside star read =>
    have close : ¬(star = true ∧ c = '/') := by
      rintro ⟨rfl, rfl⟩
      exact open' rfl
    have step : (Ending.block star).next c = .block (c == '*') := by
      simpa [Ending.next] using close
    rw [step, List.cons_append, List.cons_append]
    refine .block fun s => ?_
    rw [List.append_assoc, List.singleton_append, read, afterBlockComment_pending close]
  | string read => exact .string_concat read open'

/-- Whatever is open at the end of a text starts where the text may be cut. -/
theorem exists_opens (h : ending a ≠ .clear) :
    ∃ before c cs, a = before ++ c :: cs ∧ (ending before).Stands c ∧
      Opens (c :: cs) (ending a) := by
  induction a using List.reverseRecOn with
  | nil => exact absurd rfl h
  | append_singleton a c ih =>
    rw [ending_concat] at h ⊢
    by_cases fresh : ending a = .clear ∨ ending a = .slash ∧ c ≠ '/' ∧ c ≠ '*'
    · have step : (ending a).next c = Ending.clear.next c := by
        rcases fresh with clear | ⟨slash, other⟩
        · rw [clear]
        · rw [slash, Ending.next_slash other]
      rw [step] at h ⊢
      by_cases slash : c = '/'
      · subst slash
        have clear := fresh.resolve_right fun other => other.2.1 rfl
        exact ⟨a, '/', [], rfl, ⟨rfl, rfl, by rw [clear]; trivial⟩, .slash⟩
      by_cases quote : c = '"'
      · subst quote
        refine ⟨a, '"', [], rfl, ⟨rfl, rfl, ?_⟩, @Opens.string [] [] false fun s => rfl⟩
        rcases fresh with clear | ⟨slash, other⟩
        · rw [clear]
          trivial
        · rw [slash]
          exact other
      · exact absurd (Ending.next_clear slash quote) h
    · obtain ⟨clear, other⟩ := not_or.mp fresh
      obtain ⟨before, b, cs, rfl, stands, opens⟩ := ih clear
      refine ⟨before, b, cs ++ [c], ?_, stands, opens.concat h fun slash => ?_⟩
      · rw [List.append_assoc, List.cons_append]
      · by_contra neither
        exact other ⟨slash, not_or.mp neither⟩

theorem lex_cons_slash (cs : List Char) :
    lex ('/' :: cs) = (readItem '/' cs).1.toList ++ lex (readItem '/' cs).2 := by
  rw [lex_cons, if_neg (by decide)]

theorem readItem_block (rest : List Char) :
    readItem '/' ('*' :: rest) = (none, afterBlockComment rest) := rfl

/-- An open string takes the line end that follows. -/
theorem Opens.lex_string {escape : Bool} (h : Opens (c :: cs) (.string escape)) :
    ∃ content, lex (c :: cs) = [.str (String.ofList content)] ∧
      lex (c :: cs ++ ['\n']) = [.str (String.ofList (content ++ ['\n']))] := by
  cases h with
  | @string _ content _ read =>
    have ended : readString cs = (content, []) := by
      have whole := read []
      rw [List.append_nil, List.append_nil] at whole
      rw [whole]
      cases escape <;> simp [Ending.held, readString]
    have longer : readString (cs ++ ['\n']) = (content ++ ['\n'], []) := by
      rw [read]
      cases escape <;> simp [Ending.held, readString]
    refine ⟨content, ?_, ?_⟩
    · rw [lex_cons_item rfl (readItem_string ended), lex_nil]
    · rw [List.cons_append, lex_cons_item rfl (readItem_string longer), lex_nil]

/-- An open block comment takes all up to its end. -/
theorem Opens.lex_block {star : Bool} (h : Opens (c :: cs) (.block star)) :
    lex (c :: cs) = [] ∧ lex (c :: cs ++ ['\n', '*', '/']) = [] := by
  cases h with
  | @block inside star read =>
    have ended : afterBlockComment inside = [] := by
      have whole := read []
      rw [List.append_nil, List.append_nil] at whole
      rw [whole]
      cases star <;> rfl
    have closed : afterBlockComment (inside ++ ['\n', '*', '/']) = [] := by
      rw [read]
      cases star <;> rfl
    refine ⟨?_, ?_⟩
    · rw [lex_cons_slash, readItem_block, ended, lex_nil]
      rfl
    · rw [List.cons_append, List.cons_append, lex_cons_slash, readItem_block, closed, lex_nil]
      rfl

/-- An open line comment takes what follows in its line. -/
theorem Opens.lex_line (h : Opens (c :: cs) .line) {s : List Char} (hs : '\n' ∉ s) :
    (lex (c :: cs ++ s)).length = 1 := by
  cases h with
  | @line inside within =>
    have whole : ∀ e ∈ inside ++ s, (e != '\n') = true :=
      Text.forall_ne_of_not_mem fun he => (List.mem_append.mp he).elim within hs
    rw [List.cons_append, List.cons_append, lex_cons_slash, readItem_line,
      List.dropWhile_eq_nil_iff.mpr whole, lex_nil]
    rfl

/-- What stands before a place for a cut has no part in how the rest is read. -/
theorem lex_append_eq_iff {before : List Char} (stands : (ending before).Stands c) (s : List Char)
    (ts : List Token) :
    lex (before ++ c :: cs ++ s) = lex (before ++ c :: cs) ++ ts ↔
      lex (c :: cs ++ s) = lex (c :: cs) ++ ts := by
  rw [List.append_assoc, List.cons_append, lex_append_of_stands stands,
    lex_append_of_stands stands, List.append_assoc, List.append_right_inj]

/-- A line end in a string or a block comment belongs to it. -/
theorem exists_lex_newline_ne (h : (ending a).InString ∨ (ending a).InBlock) :
    ∃ b, lex (a ++ '\n' :: b) ≠ lex a ++ lex b := by
  have taken : ending a ≠ .clear := by
    rintro clear
    rw [clear] at h
    rcases h with ⟨_, none⟩ | ⟨_, none⟩ <;> cases none
  obtain ⟨before, c, cs, rfl, stands, opens⟩ := exists_opens taken
  rcases h with ⟨escape, inside⟩ | ⟨star, inside⟩
  · rw [inside] at opens
    obtain ⟨content, ended, longer⟩ := opens.lex_string
    refine ⟨[], ?_⟩
    rw [ne_eq, lex_append_eq_iff stands, longer, ended]
    simp [lex_nil]
  · rw [inside] at opens
    obtain ⟨ended, closed⟩ := opens.lex_block
    have sign : lex ['*', '/'] ≠ [] := by
      rw [lex_cons_item rfl (readItem_sign ⟨rfl, by decide, rfl⟩ (by decide) _)]
      exact List.cons_ne_nil _ _
    refine ⟨['*', '/'], ?_⟩
    rw [ne_eq, lex_append_eq_iff stands, closed, ended]
    exact fun none => sign none.symm

/-- A line comment, or a slash, takes a block comment that follows into itself. -/
theorem exists_lex_block_ne (h : ending a = .line ∨ ending a = .slash) :
    ∃ b, lex (a ++ '/' :: '*' :: '*' :: '/' :: b) ≠ lex a ++ lex b := by
  have taken : ending a ≠ .clear := by
    rintro clear
    rw [clear] at h
    rcases h with none | none <;> cases none
  obtain ⟨before, c, cs, rfl, stands, opens⟩ := exists_opens taken
  rcases h with inside | inside
  · rw [inside] at opens
    have alone : (lex (c :: cs)).length = 1 := by
      have whole := opens.lex_line List.not_mem_nil
      rwa [List.append_nil] at whole
    have longer : (lex (c :: cs ++ ['/', '*', '*', '/', '*'])).length = 1 :=
      opens.lex_line (by decide)
    have sign : lex ['*'] = [.punct '*'] := by
      rw [lex_cons_item rfl (readItem_sign ⟨rfl, by decide, rfl⟩ (by decide) _), lex_nil]
    refine ⟨['*'], ?_⟩
    rw [ne_eq, lex_append_eq_iff stands, sign]
    intro same
    have lengths := congrArg List.length same
    rw [longer, List.length_append, alone, List.length_singleton] at lengths
    cases lengths
  · rw [inside] at opens
    cases opens
    refine ⟨[], ?_⟩
    rw [ne_eq, lex_append_eq_iff stands, lex_nil, List.append_nil, List.cons_append,
      List.nil_append, lex_cons_slash, readItem_line, lex_cons_slash, readItem_slash (by simp)]
    simp

/-- A comment ends with the first mark of its end. -/
theorem afterBlockComment_close {c : List Char} (h : ¬['*', '/'] <:+: c) (b : List Char) :
    afterBlockComment (c ++ '*' :: '/' :: b) = b := by
  induction c with
  | nil => rfl
  | cons d c ih =>
    rw [List.infix_cons_iff, not_or] at h
    rw [List.cons_append, afterBlockComment_cons, ih h.2]
    rintro ⟨rfl, slash⟩
    cases c with
    | nil => cases slash
    | cons e c =>
      obtain rfl : e = '/' := Option.some.inj slash
      exact h.1 (by simp)

theorem lex_block_comment {c : List Char} (h : ¬['*', '/'] <:+: c) (b : List Char) :
    lex ('/' :: '*' :: (c ++ '*' :: '/' :: b)) = lex b := by
  rw [lex_cons_slash, readItem_block, afterBlockComment_close h]
  rfl

theorem stands_newline (string : ¬(ending a).InString) (block : ¬(ending a).InBlock) :
    (ending a).Stands '\n' := by
  refine ⟨rfl, rfl, ?_⟩
  cases inside : ending a with
  | clear => trivial
  | slash => decide
  | line => rfl
  | block star => exact block ⟨star, inside⟩
  | string escape => exact string ⟨escape, inside⟩

theorem getLast?_of_ending_slash (h : ending a = .slash) : a.getLast? = some '/' := by
  have taken : ending a ≠ .clear := by
    rw [h]
    decide
  obtain ⟨before, c, cs, rfl, -, opens⟩ := exists_opens taken
  rw [h] at opens
  cases opens
  exact List.getLast?_concat

theorem ending_eq_clear_of_ne (string : ¬(ending a).InString) (block : ¬(ending a).InBlock)
    (line : ending a ≠ .line) (slash : ending a ≠ .slash) : ending a = .clear := by
  cases inside : ending a with
  | clear => rfl
  | slash => exact absurd inside slash
  | line => exact absurd inside line
  | block star => exact absurd ⟨star, inside⟩ block
  | string escape => exact absurd ⟨escape, inside⟩ string

theorem lex_append_newline (string : ¬(ending a).InString) (block : ¬(ending a).InBlock)
    (b : List Char) : lex (a ++ '\n' :: b) = lex a ++ lex b := by
  rw [lex_append_of_stands (stands_newline string block), lex_cons_blank b rfl]

theorem lex_append_comment (h : ending a = .clear) {c : List Char} (hc : ¬['*', '/'] <:+: c)
    (b : List Char) : lex (a ++ '/' :: '*' :: (c ++ '*' :: '/' :: b)) = lex a ++ lex b := by
  have stands : (ending a).Stands '/' := ⟨rfl, rfl, by rw [h]; trivial⟩
  rw [lex_append_of_stands stands, lex_block_comment hc]

/-- Two texts keep their tokens with a line end between them exactly if the first one ends neither
in a string nor in a block comment. With a block comment between them they keep their tokens if the
first one does not end in a line comment or with a slash either, and need not if such a comment or
a slash that is a token of its own stands at its end. -/
theorem tokens_cut_iff (a : String) :
    ((∀ b : String, tokens (a ++ "\n" ++ b) = tokens a ++ tokens b) ↔
      ¬(ending a.toList).InString ∧ ¬(ending a.toList).InBlock) ∧
    (¬(ending a.toList).InString → ¬(ending a.toList).InBlock →
      (ending a.toList ≠ .line → a.toList.getLast? ≠ some '/' →
        ∀ c b : String, ¬"*/".toList <:+: c.toList →
          tokens (a ++ "/*" ++ c ++ "*/" ++ b) = tokens a ++ tokens b) ∧
      (ending a.toList = .line ∨ ending a.toList = .slash →
        ∃ b : String, tokens (a ++ "/**/" ++ b) ≠ tokens a ++ tokens b)) := by
  have newline : ∀ b : String, tokens (a ++ "\n" ++ b) = lex (a.toList ++ '\n' :: b.toList) := by
    intro b
    simp [tokens]
  have comment : ∀ c b : String, tokens (a ++ "/*" ++ c ++ "*/" ++ b) =
      lex (a.toList ++ '/' :: '*' :: (c.toList ++ '*' :: '/' :: b.toList)) := by
    intro c b
    simp [tokens]
  refine ⟨⟨fun same => ?_, fun outside b => ?_⟩,
    fun string block => ⟨fun line last c b hc => ?_, ?_⟩⟩
  · rw [← not_or]
    intro inside
    obtain ⟨b, apart⟩ := exists_lex_newline_ne inside
    have whole := same (String.ofList b)
    rw [newline, String.toList_ofList] at whole
    exact apart (by simpa [tokens] using whole)
  · rw [newline, lex_append_newline outside.1 outside.2]
    rfl
  · have slash : ending a.toList ≠ .slash := fun slash => last (getLast?_of_ending_slash slash)
    have clear := ending_eq_clear_of_ne string block line slash
    rw [comment, lex_append_comment clear hc]
    rfl
  · intro inside
    obtain ⟨b, apart⟩ := exists_lex_block_ne inside
    exact ⟨String.ofList b, by simpa [tokens] using apart⟩

/-- What looks like an opening within a comment or a string opens nothing, and the point at the end
does not become one number with what stands behind the comment. -/
theorem tokens_cut_at_point :
    ¬(ending "/* \" */ a \"/*\\\"\" .".toList).InString ∧
    ¬(ending "/* \" */ a \"/*\\\"\" .".toList).InBlock ∧
    ending "/* \" */ a \"/*\\\"\" .".toList ≠ .line ∧
    "/* \" */ a \"/*\\\"\" .".toList.getLast? ≠ some '/' ∧
    ¬"*/".toList <:+: "/ \" *".toList ∧
    tokens ("/* \" */ a \"/*\\\"\" ." ++ "/*" ++ "/ \" *" ++ "*/" ++ ".5") =
      tokens "/* \" */ a \"/*\\\"\" ." ++ tokens ".5" := by
  have clear : ending "/* \" */ a \"/*\\\"\" .".toList = .clear := by decide +kernel
  have string : ¬(ending "/* \" */ a \"/*\\\"\" .".toList).InString := by
    rintro ⟨escape, inside⟩
    cases clear.symm.trans inside
  have block : ¬(ending "/* \" */ a \"/*\\\"\" .".toList).InBlock := by
    rintro ⟨star, inside⟩
    cases clear.symm.trans inside
  have line : ending "/* \" */ a \"/*\\\"\" .".toList ≠ .line := by
    rw [clear]
    decide
  have last : "/* \" */ a \"/*\\\"\" .".toList.getLast? ≠ some '/' := by decide +kernel
  have inner : ¬"*/".toList <:+: "/ \" *".toList := by decide +kernel
  exact ⟨string, block, line, last, inner,
    ((tokens_cut_iff _).2 string block).1 line last "/ \" *" ".5" inner⟩

end ContractSurface.Source
