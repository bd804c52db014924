import ContractSurface.Proofs.Source.Lexing
import ContractSurface.Text.Numeral
import Mathlib.Algebra.Group.Nat.Defs

/-! # Numerals and what they spell

The numeral of a number is read back. A row of digits is read in every form that numerals may have,
and blanks around it do not matter.
-/
namespace ContractSurface

/-- An optional plus sign and digits of this value. -/
def Spells (cs : List Char) (n : Nat) : Prop :=
  ∃ sign digits : List Char, cs = sign ++ digits ∧ (sign = [] ∨ sign = ['+']) ∧ digits ≠ [] ∧
    (∀ d ∈ digits, d.isDigit = true) ∧ Text.decimalValue digits = n

namespace Text

theorem trim_of_forall_not_blank {cs : List Char} (h : ∀ c ∈ cs, isBlank c = false) :
    trim cs = cs := by
  have start : trimStart cs = cs := by
    rw [trimStart, List.dropWhile_eq_self_iff]
    intro hl
    simp [h _ (List.getElem_mem hl)]
  have reversed : cs.reverse.dropWhile isBlank = cs.reverse := by
    rw [List.dropWhile_eq_self_iff]
    intro hl
    have last := h _ (List.mem_reverse.mp (List.getElem_mem hl))
    simpa using last
  rw [trim, start, trimEnd, reversed, List.reverse_reverse]

theorem isBlank_of_isDigit {c : Char} (h : c.isDigit = true) : isBlank c = false :=
  Source.isBlank_of_isWordChar (Source.isWordChar_of_isDigit h)

section Digits

variable {digits : List Char} (h : ∀ d ∈ digits, d.isDigit = true)

include h

theorem not_mem_digits {c : Char} (hc : c.isDigit = false) : c ∉ digits := by
  intro mem
  rw [h c mem] at hc
  cases hc

theorem trim_digits : trim digits = digits :=
  trim_of_forall_not_blank fun d hd => isBlank_of_isDigit (h d hd)

end Digits

theorem isDigit_of_mem_toString {n : Nat} {c : Char} (h : c ∈ (toString n).toList) :
    c.isDigit = true := by
  rw [Nat.toString_eq_ofList_toDigits, String.toList_ofList] at h
  exact Nat.isDigit_of_mem_toDigits (by decide : 0 < 10) (by decide) h

theorem isDigits_toString (n : Nat) : isDigits (toString n).toList = true := by
  rw [isDigits, Bool.and_eq_true, List.all_eq_true]
  exact ⟨by simp, fun c hc => isDigit_of_mem_toString hc⟩

theorem trim_toString (n : Nat) : trim (toString n).toList = (toString n).toList :=
  trim_digits fun _ hd => isDigit_of_mem_toString hd

/-- The numeral of a number has its value. -/
theorem decimalValue_toString (n : Nat) : decimalValue (toString n).toList = n := by
  have value : ∀ ds, decimalValue ds = Nat.ofDigitChars 10 ds 0 := fun ds =>
    (Nat.ofDigitChars_eq_foldl).symm
  rw [Nat.toString_eq_ofList_toDigits, String.toList_ofList, value]
  exact Nat.ofDigitChars_ten_toDigits

theorem isDigits_iff {cs : List Char} :
    isDigits cs = true ↔ cs ≠ [] ∧ ∀ d ∈ cs, d.isDigit = true := by
  rw [isDigits, Bool.and_eq_true, List.all_eq_true]
  simp

theorem exists_sign (cs : List Char) :
    ∃ sign, (sign = [] ∨ sign = ['+']) ∧ cs = sign ++ dropPlus cs := by
  unfold dropPlus
  split
  · exact ⟨['+'], .inr rfl, rfl⟩
  · exact ⟨[], .inl rfl, rfl⟩

theorem dropPlus_of_isDigit {digits : List Char} (h : ∀ d ∈ digits, d.isDigit = true) :
    dropPlus digits = digits := by
  unfold dropPlus
  split
  · have plus : '+'.isDigit = true := h '+' List.mem_cons_self
    cases plus
  · rfl

theorem dropPlus_sign_append {sign digits : List Char} (hs : sign = [] ∨ sign = ['+'])
    (hd : ∀ d ∈ digits, d.isDigit = true) : dropPlus (sign ++ digits) = digits := by
  rcases hs with rfl | rfl
  · exact dropPlus_of_isDigit hd
  · rfl

/-- What is read is what the numeral spells. -/
theorem natural?_eq_some_iff {cs : List Char} {n : Nat} : natural? cs = some n ↔ Spells cs n := by
  constructor
  · intro read
    unfold natural? at read
    split at read
    · next digits =>
      obtain ⟨sign, isSign, whole⟩ := exists_sign cs
      obtain ⟨ne, all⟩ := isDigits_iff.mp digits
      exact ⟨sign, dropPlus cs, whole, isSign, ne, all, Option.some.inj read⟩
    · cases read
  · rintro ⟨sign, digits, rfl, isSign, ne, all, rfl⟩
    rw [natural?, dropPlus_sign_append isSign all, if_pos (isDigits_iff.mpr ⟨ne, all⟩)]

theorem naturalOfWidth?_eq_some_iff {width n : Nat} {cs : List Char} :
    naturalOfWidth? width cs = some n ↔ Spells cs n ∧ n < 2 ^ width := by
  rw [naturalOfWidth?, Option.filter_eq_some_iff, natural?_eq_some_iff, decide_eq_true_eq]
  rfl

theorem grouped?_digits {digits : List Char} (h : ∀ d ∈ digits, d.isDigit = true)
    (ne : digits ≠ []) : grouped? digits = some (decimalValue digits) := by
  obtain ⟨d, ds, rfl⟩ := List.exists_cons_of_ne_nil ne
  have all : ds.all (fun c => c.isDigit || c == '_') = true := by
    rw [List.all_eq_true]
    intro c hc
    simp [h c (List.mem_cons_of_mem d hc)]
  have kept : (d :: ds).filter (· != '_') = d :: ds := by
    rw [List.filter_eq_self]
    intro c hc
    have other : c ≠ '_' := by
      rintro rfl
      exact not_mem_digits h rfl hc
    simpa using other
  unfold grouped?
  rw [dropPlus_of_isDigit h]
  simp only [h d List.mem_cons_self, all, kept, Bool.and_self, if_true]

end Text

end ContractSurface
