import ContractSurface.Text.Quoted
import Mathlib.Data.List.Basic

/-! # How quoted texts look

A quoted text stands on one line, whatever it quotes. A text of printable ASCII characters other
than the quote and the backslash stands between its quotes as it is.
-/
namespace ContractSurface.Text

theorem exists_digitChar_of_mem_hexNumeral {n : Nat} {c : Char} (h : c ∈ hexNumeral n) :
    ∃ d < 16, c = Nat.digitChar d := by
  unfold hexNumeral at h
  induction n using Nat.strongRecOn with
  | ind n ih =>
    rcases Nat.lt_or_ge n 16 with small | large
    · rw [Nat.toDigits_of_lt_base small] at h
      exact ⟨n, small, List.mem_singleton.mp h⟩
    · rw [Nat.toDigits_of_base_le (by decide) large] at h
      rcases List.mem_append.mp h with h | h
      · exact ih (n / 16) (Nat.div_lt_self (by omega) (by decide)) h
      · exact ⟨n % 16, Nat.mod_lt n (by decide), List.mem_singleton.mp h⟩

theorem newline_not_mem_hexNumeral (n : Nat) : '\n' ∉ hexNumeral n := by
  have digits : ∀ d < 16, '\n' ≠ Nat.digitChar d := by decide
  intro h
  obtain ⟨d, small, same⟩ := exists_digitChar_of_mem_hexNumeral h
  exact digits d small same

/-- A quoted character never ends the line. -/
theorem newline_not_mem_quotedChar (c : Char) : '\n' ∉ quotedChar '"' c := by
  unfold quotedChar
  split
  · decide
  split
  · decide
  split
  · decide
  split
  · decide
  · next line =>
    split
    · next escaped => simp [Ne.symm line]
    split
    · simp [codePointEscape, newline_not_mem_hexNumeral]
    · simp [Ne.symm line]

theorem newline_not_mem_quoted (s : String) : '\n' ∉ (quoted s).toList := by
  have inside : '\n' ∉ s.toList.flatMap (quotedChar '"') := by
    intro h
    obtain ⟨c, _, hc⟩ := List.mem_flatMap.mp h
    exact newline_not_mem_quotedChar c hc
  simp [quoted, quotedChars, inside]

/-- Printable ASCII that is written as it is between quotes. -/
def IsPlain (c : Char) : Prop := 0x20 ≤ c.toNat ∧ c.toNat < 0x7F ∧ c ≠ '"' ∧ c ≠ '\\'

instance (c : Char) : Decidable (IsPlain c) :=
  inferInstanceAs (Decidable (0x20 ≤ c.toNat ∧ c.toNat < 0x7F ∧ c ≠ '"' ∧ c ≠ '\\'))

/-- Plain characters stand between quotes as they are. -/
theorem quotedChar_of_isPlain {c : Char} (h : IsPlain c) : quotedChar '"' c = [c] := by
  obtain ⟨low, high, notQuote, notBackslash⟩ := h
  have other : ∀ d : Char, d.toNat < 0x20 → c ≠ d := by
    rintro d control rfl
    omega
  have shown : isUnprintable c = false := by simp [isUnprintable, low, high]
  have alone : extendsGrapheme c = false := by
    unfold extendsGrapheme
    rw [if_pos (by omega)]
  unfold quotedChar
  rw [if_neg (other _ (by decide)), if_neg (other _ (by decide)), if_neg (other _ (by decide)),
    if_neg (other _ (by decide)), if_neg (by simp [notQuote, notBackslash]),
    if_neg (by simp [shown, alone])]

theorem quoted_of_forall_isPlain {s : String} (h : ∀ c ∈ s.toList, IsPlain c) :
    quoted s = "\"" ++ s ++ "\"" := by
  have inside : s.toList.flatMap (quotedChar '"') = s.toList := by
    have chars : s.toList.flatMap (quotedChar '"') = s.toList.flatMap ([·]) :=
      List.flatMap_congr fun c hc => quotedChar_of_isPlain (h c hc)
    rw [chars, List.flatMap_singleton']
  rw [quoted, quotedChars, inside, ← String.toList_inj]
  simp

end ContractSurface.Text
