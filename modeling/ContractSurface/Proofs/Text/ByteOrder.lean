import Mathlib.Data.String.Basic
import ContractSurface.Text.Utf8

/-! # The order of bytes

Texts have the order of their bytes: where two texts first differ, the greater character has the
greater bytes, also when it has more of them.
-/
namespace ContractSurface.Text

theorem byte_cons_lt_iff {a b : Nat} (ha : a < 256) (hb : b < 256) (xs ys : List UInt8) :
    UInt8.ofNat a :: xs < UInt8.ofNat b :: ys ↔ a < b ∨ a = b ∧ xs < ys := by
  rw [List.cons_lt_cons_iff, UInt8.lt_iff_toNat_lt, ← UInt8.toNat_inj, UInt8.toNat_ofNat',
    UInt8.toNat_ofNat', Nat.mod_eq_of_lt ha, Nat.mod_eq_of_lt hb]

/-- Where the digits to the base 64 of two numbers first differ, the greater number has the greater
digit. -/
theorem digits_lt {n m : Nat} (less : n < m) :
    n / 262144 < m / 262144 ∨ n / 262144 = m / 262144 ∧
      (n / 4096 % 64 < m / 4096 % 64 ∨ n / 4096 % 64 = m / 4096 % 64 ∧
        (n / 64 % 64 < m / 64 % 64 ∨ n / 64 % 64 = m / 64 % 64 ∧ n % 64 < m % 64)) := by
  have planes : n / 262144 ≤ m / 262144 := Nat.div_le_div_right less.le
  have pages : n / 4096 ≤ m / 4096 := Nat.div_le_div_right less.le
  have rows : n / 64 ≤ m / 64 := Nat.div_le_div_right less.le
  have inPlane (k : Nat) : k / 262144 = k / 4096 / 64 := (Nat.div_div_eq_div_mul k 4096 64).symm
  have inPage (k : Nat) : k / 4096 = k / 64 / 64 := (Nat.div_div_eq_div_mul k 64 64).symm
  rcases planes.lt_or_eq with plane | plane
  · exact Or.inl plane
  refine Or.inr ⟨plane, ?_⟩
  rw [inPlane, inPlane m] at plane
  rcases pages.lt_or_eq with page | page
  · exact Or.inl (by omega)
  refine Or.inr ⟨by rw [page], ?_⟩
  rw [inPage, inPage m] at page
  rcases rows.lt_or_eq with row | row
  · exact Or.inl (by omega)
  · exact Or.inr ⟨by rw [row], by omega⟩

theorem utf8EncodeChar_append_lt {c d : Char} (h : c < d) (xs ys : List UInt8) :
    String.utf8EncodeChar c ++ xs < String.utf8EncodeChar d ++ ys := by
  have less : c.toNat < d.toNat := h
  have top : d.toNat < 0xD800 ∨ 0xDFFF < d.toNat ∧ d.toNat < 0x110000 := d.valid
  have code : ∀ e : Char, e.val.toNat = e.toNat := fun _ => rfl
  unfold String.utf8EncodeChar
  simp only [code]
  generalize c.toNat = n at less
  generalize d.toNat = m at less top
  -- The greater character has no fewer bytes. If it has more, the first byte tells; if it has as
  -- many, the bytes are the digits of the code points.
  by_cases one : n ≤ 127
  · rw [if_pos one]
    split
    · simp (disch := omega) only [List.cons_append, byte_cons_lt_iff]
      exact Or.inl (by omega)
    · split
      · simp (disch := omega) only [List.cons_append, byte_cons_lt_iff]
        exact Or.inl (by omega)
      · split <;> simp (disch := omega) only [List.cons_append, byte_cons_lt_iff] <;>
          exact Or.inl (by omega)
  rw [if_neg one, if_neg (show ¬m ≤ 127 by omega)]
  by_cases two : n ≤ 2047
  · rw [if_pos two]
    split
    · simp (disch := omega) only [List.cons_append, byte_cons_lt_iff]
      have digits : n / 64 % 32 + 192 < m / 64 % 32 + 192 ∨
          n / 64 % 32 + 192 = m / 64 % 32 + 192 ∧ n % 64 + 128 < m % 64 + 128 := by omega
      exact digits.imp_right fun same => ⟨same.1, Or.inl same.2⟩
    · split <;> simp (disch := omega) only [List.cons_append, byte_cons_lt_iff] <;>
        exact Or.inl (by omega)
  rw [if_neg two, if_neg (show ¬m ≤ 2047 by omega)]
  by_cases three : n ≤ 65535
  · rw [if_pos three]
    split
    · simp (disch := omega) only [List.cons_append, byte_cons_lt_iff]
      have digits : n / 4096 % 16 + 224 < m / 4096 % 16 + 224 ∨
          n / 4096 % 16 + 224 = m / 4096 % 16 + 224 ∧
            (n / 64 % 64 + 128 < m / 64 % 64 + 128 ∨
              n / 64 % 64 + 128 = m / 64 % 64 + 128 ∧ n % 64 + 128 < m % 64 + 128) := by omega
      exact digits.imp_right fun first =>
        ⟨first.1, first.2.imp_right fun last => ⟨last.1, Or.inl last.2⟩⟩
    · simp (disch := omega) only [List.cons_append, byte_cons_lt_iff]
      exact Or.inl (by omega)
  · rw [if_neg three, if_neg (show ¬m ≤ 65535 by omega)]
    simp (disch := omega) only [List.cons_append, byte_cons_lt_iff]
    exact (digits_lt less).imp (by omega) fun plane =>
      ⟨by omega, plane.2.imp (by omega) fun page =>
        ⟨by omega, page.2.imp (by omega) fun row => ⟨by omega, Or.inl (by omega)⟩⟩⟩

/-- Texts have the order of their bytes. -/
theorem flatMap_utf8EncodeChar_lt {cs ds : List Char} (h : cs < ds) :
    cs.flatMap String.utf8EncodeChar < ds.flatMap String.utf8EncodeChar := by
  induction cs generalizing ds with
  | nil =>
    cases ds with
    | nil => exact absurd h (List.not_lt_nil [])
    | cons d ds =>
      cases bytes : String.utf8EncodeChar d with
      | nil => exact absurd bytes String.utf8EncodeChar_ne_nil
      | cons b bs =>
        rw [List.flatMap_nil, List.flatMap_cons, bytes, List.cons_append]
        exact List.nil_lt_cons b _
  | cons c cs ih =>
    cases ds with
    | nil => exact absurd h (List.not_lt_nil _)
    | cons d ds =>
      rw [List.flatMap_cons, List.flatMap_cons]
      rcases List.cons_lt_cons_iff.mp h with less | ⟨rfl, behind⟩
      · exact utf8EncodeChar_append_lt less _ _
      · exact List.append_left_lt (ih behind)

/-- Texts are compared like their bytes. -/
theorem utf8_lt_utf8 {s t : String} (h : s < t) : utf8 s < utf8 t :=
  flatMap_utf8EncodeChar_lt (String.lt_iff_toList_lt.mp h)

end ContractSurface.Text
