import ContractSurface.Proofs.Call.Kinds
import ContractSurface.Proofs.Text.Fields
import ContractSurface.Proofs.Text.Quoted
import ContractSurface.TypeScript.Cli

/-! # The lines of generated text

What is written out as a list of lines is read as the same list, as long as no line holds a line
end. A line is told apart from others by how it begins behind its indentation, and for that its
fixed part is enough.
-/
namespace ContractSurface.TypeScript

def linesOf (text : String) : List String :=
  (Text.fields (· == '\n') text.toList).map String.ofList

def OneLine (s : String) : Prop := '\n' ∉ s.toList

instance (s : String) : Decidable (OneLine s) := inferInstanceAs (Decidable ('\n' ∉ s.toList))

/-- Lines that hold no line end are read back as they are. -/
theorem linesOf_ofLines {lines : List String} (h : ∀ line ∈ lines, OneLine line) :
    linesOf (ofLines lines) = lines ++ [""] := by
  induction lines with
  | nil => rfl
  | cons line lines ih =>
    have uncut : ∀ d ∈ line.toList, (d == '\n') = false := by
      intro d hd
      rw [beq_eq_false_iff_ne]
      exact fun same => h line List.mem_cons_self (same ▸ hd)
    have text : (ofLines (line :: lines)).toList =
        line.toList ++ '\n' :: (ofLines lines).toList := by
      simp [ofLines]
    have later := ih fun l hl => h l (List.mem_cons_of_mem _ hl)
    rw [linesOf] at later ⊢
    rw [text, Text.fields_append uncut rfl, List.map_cons, later, String.ofList_toList,
      List.cons_append]

theorem oneLine_quoted (s : String) : OneLine (Text.quoted s) := Text.newline_not_mem_quoted s

theorem oneLine_toString (n : Nat) : OneLine (toString n) := by
  intro h
  exact absurd (Text.isDigit_of_mem_toString h) (by decide)

theorem forall_mem_append {P : Char → Prop} {s t : String} (hs : ∀ c ∈ s.toList, P c)
    (ht : ∀ c ∈ t.toList, P c) : ∀ c ∈ (s ++ t).toList, P c := by
  rw [String.toList_append]
  exact List.forall_mem_append.mpr ⟨hs, ht⟩

theorem forall_mem_intercalate {P : Char → Prop} {separator : String} {parts : List String}
    (hs : ∀ c ∈ separator.toList, P c) (hp : ∀ part ∈ parts, ∀ c ∈ part.toList, P c) :
    ∀ c ∈ (separator.intercalate parts).toList, P c := by
  induction parts with
  | nil => simp
  | cons part parts ih =>
    have first := hp part List.mem_cons_self
    have rest := ih fun p h => hp p (List.mem_cons_of_mem _ h)
    cases parts with
    | nil => simpa using first
    | cons next parts =>
      rw [String.intercalate_cons_cons]
      exact forall_mem_append (forall_mem_append first hs) rest

theorem oneLine_iff {s : String} : OneLine s ↔ ∀ c ∈ s.toList, c ≠ '\n' :=
  ⟨fun h _ hc same => h (same ▸ hc), fun h mem => h _ mem rfl⟩

theorem OneLine.append {s t : String} (hs : OneLine s) (ht : OneLine t) : OneLine (s ++ t) :=
  oneLine_iff.mpr (forall_mem_append (oneLine_iff.mp hs) (oneLine_iff.mp ht))

theorem oneLine_intercalate {separator : String} {parts : List String} (hs : OneLine separator)
    (hp : ∀ part ∈ parts, OneLine part) : OneLine (separator.intercalate parts) :=
  oneLine_iff.mpr (forall_mem_intercalate (oneLine_iff.mp hs)
    fun part h => oneLine_iff.mp (hp part h))

theorem oneLine_identifier {name : String} (h : OneLine name) : OneLine (identifier name) := by
  unfold identifier
  split
  · exact h.append (by decide)
  · exact h

theorem oneLine_ofList {cs : List Char} (h : '\n' ∉ cs) : OneLine (String.ofList cs) := by
  rwa [OneLine, String.toList_ofList]

def unindented (line : String) : List Char := line.toList.dropWhile (· == ' ')

/-- The line begins with the word, its indentation left out. -/
def Begins (word : List Char) (line : String) : Prop := word <+: unindented line

instance (word : List Char) (line : String) : Decidable (Begins word line) :=
  inferInstanceAs (Decidable (_ <+: _))

/-- The line and the word already differ at a place that both have. -/
def Differs (word : List Char) (line : String) : Prop :=
  ∃ p ∈ word.zip (unindented line), p.1 ≠ p.2

variable {word : List Char} {line : String}

theorem unindented_ofList (cs : List Char) :
    unindented (String.ofList cs) = cs.dropWhile (· == ' ') := by
  rw [unindented, String.toList_ofList]

theorem unindented_append (h : unindented line ≠ []) (rest : String) :
    unindented (line ++ rest) = unindented line ++ rest.toList := by
  unfold unindented at *
  rw [String.toList_append, List.dropWhile_append, if_neg (by simpa using h)]

theorem Begins.append (h : Begins word line) (hw : word ≠ []) (rest : String) :
    Begins word (line ++ rest) := by
  have ne : unindented line ≠ [] := by
    rintro none
    rw [Begins, none, List.prefix_nil] at h
    exact hw h
  rw [Begins, unindented_append ne]
  exact h.trans (List.prefix_append _ _)

theorem differs_iff : Differs word line ↔ ∃ (k : Nat) (a b : Char),
    word[k]? = some a ∧ (unindented line)[k]? = some b ∧ a ≠ b := by
  constructor
  · rintro ⟨⟨a, b⟩, hp, ne⟩
    obtain ⟨k, hk⟩ := List.mem_iff_getElem?.mp hp
    obtain ⟨ha, hb⟩ := List.getElem?_zip_eq_some.mp hk
    exact ⟨k, a, b, ha, hb, ne⟩
  · rintro ⟨k, a, b, ha, hb, ne⟩
    exact ⟨(a, b), List.mem_iff_getElem?.mpr ⟨k, List.getElem?_zip_eq_some.mpr ⟨ha, hb⟩⟩, ne⟩

theorem Differs.append (h : Differs word line) (rest : String) :
    Differs word (line ++ rest) := by
  obtain ⟨k, a, b, ha, hb, ne⟩ := differs_iff.mp h
  obtain ⟨within, _⟩ := List.getElem?_eq_some_iff.mp hb
  have nonempty : unindented line ≠ [] := List.ne_nil_of_length_pos (by omega)
  refine differs_iff.mpr ⟨k, a, b, ha, ?_, ne⟩
  rwa [unindented_append nonempty, List.getElem?_append_left within]

/-- A line that differs from a word at some place does not begin with it. -/
theorem Differs.not_begins (h : Differs word line) : ¬Begins word line := by
  rintro ⟨rest, same⟩
  obtain ⟨k, a, b, ha, hb, ne⟩ := differs_iff.mp h
  obtain ⟨within, _⟩ := List.getElem?_eq_some_iff.mp ha
  rw [← same, List.getElem?_append_left within, ha] at hb
  exact ne (Option.some.inj hb)

end ContractSurface.TypeScript
