import ContractSurface.Call.Conversion
import Mathlib.Data.List.Basic
import Mathlib.Data.List.Induction

/-! # Bytes spelled in hexadecimal

Reading accepts exactly the pairs of digits, of either case, and gives the byte of each pair. What is
written of bytes is read back as these bytes.
-/
namespace ContractSurface

namespace Text

def hexDigits : List Char :=
  ['0', '1', '2', '3', '4', '5', '6', '7', '8', '9', 'a', 'b', 'c', 'd', 'e', 'f',
   'A', 'B', 'C', 'D', 'E', 'F']

/-- The digits spell the bytes, two digits a byte. -/
inductive SpellsHex : List Char → List UInt8 → Prop where
  | nil : SpellsHex [] []
  | pair {h l : Char} {high low : Nat} {digits : List Char} {bytes : List UInt8}
      (first : nibble? h.toNat = some high) (second : nibble? l.toNat = some low)
      (rest : SpellsHex digits bytes) :
      SpellsHex (h :: l :: digits) (UInt8.ofNat (16 * high + low) :: bytes)

def IsHexPairs (cs : List Char) : Prop := cs.length % 2 = 0 ∧ ∀ c ∈ cs, c ∈ hexDigits

instance (cs : List Char) : Decidable (IsHexPairs cs) :=
  decidable_of_iff (cs.length % 2 = 0 ∧ cs.all (hexDigits.contains ·) = true)
    (by simp [IsHexPairs])

theorem nibble?_lt {n v : Nat} (h : nibble? n = some v) : v < 16 := by
  unfold nibble? at h
  split at h
  · next low => simp at low h; omega
  · split at h
    · next low => simp at low h; omega
    · split at h
      · next low => simp at low h; omega
      · cases h

theorem mem_hexDigits_of_nibble? {c : Char} {v : Nat} (h : nibble? c.toNat = some v) :
    c ∈ hexDigits := by
  have decimal : ∀ n < 10, Char.ofNat (48 + n) ∈ hexDigits := by decide
  have lower : ∀ n < 6, Char.ofNat (97 + n) ∈ hexDigits := by decide
  have upper : ∀ n < 6, Char.ofNat (65 + n) ∈ hexDigits := by decide
  have found : ∀ n, Char.ofNat (n + (c.toNat - n)) ∈ hexDigits → n ≤ c.toNat →
      c ∈ hexDigits := by
    intro n mem le
    rwa [Nat.add_sub_cancel' le, Char.ofNat_toNat] at mem
  unfold nibble? at h
  split at h
  · next range =>
    simp only [Bool.and_eq_true, decide_eq_true_eq] at range
    exact found 48 (decimal _ (by omega)) range.1
  · split at h
    · next range =>
      simp only [Bool.and_eq_true, decide_eq_true_eq] at range
      exact found 97 (lower _ (by omega)) range.1
    · split at h
      · next range =>
        simp only [Bool.and_eq_true, decide_eq_true_eq] at range
        exact found 65 (upper _ (by omega)) range.1
      · cases h

theorem isSome_nibble? (c : Char) : (nibble? c.toNat).isSome = true ↔ c ∈ hexDigits := by
  have digits : hexDigits.all (fun d => (nibble? d.toNat).isSome) = true := by decide
  refine ⟨fun some => ?_, List.all_eq_true.mp digits c⟩
  obtain ⟨v, h⟩ := Option.isSome_iff_exists.mp some
  exact mem_hexDigits_of_nibble? h

/-- Bytes are spelled by whole pairs of digits and by nothing else. -/
theorem exists_spellsHex_iff {cs : List Char} : (∃ bytes, SpellsHex cs bytes) ↔ IsHexPairs cs := by
  constructor
  · rintro ⟨bytes, spells⟩
    induction spells with
    | nil => exact ⟨rfl, by simp⟩
    | pair first second _ ih =>
      have even := ih.1
      refine ⟨by simp only [List.length_cons]; omega, ?_⟩
      simp only [List.mem_cons, forall_eq_or_imp]
      exact ⟨(isSome_nibble? _).mp (by simp [first]), (isSome_nibble? _).mp (by simp [second]), ih.2⟩
  · rintro ⟨even, digits⟩
    induction cs using List.twoStepInduction with
    | nil => exact ⟨[], .nil⟩
    | singleton c => simp at even
    | cons_cons h l rest ih _ =>
      simp only [List.mem_cons, forall_eq_or_imp] at digits
      obtain ⟨high, first⟩ := Option.isSome_iff_exists.mp ((isSome_nibble? h).mpr digits.1)
      obtain ⟨low, second⟩ := Option.isSome_iff_exists.mp ((isSome_nibble? l).mpr digits.2.1)
      obtain ⟨bytes, spells⟩ := ih (by simp only [List.length_cons] at even; omega) digits.2.2
      exact ⟨_, .pair first second spells⟩

theorem SpellsHex.length_eq {cs : List Char} {bytes : List UInt8} (h : SpellsHex cs bytes) :
    cs.length = 2 * bytes.length := by
  induction h with
  | nil => rfl
  | pair _ _ _ ih => simp only [List.length_cons, ih]; omega

/-- The bytes of ASCII text are its code points. -/
theorem flatMap_utf8EncodeChar {cs : List Char} (ascii : ∀ c ∈ cs, c.toNat < 128) :
    cs.flatMap String.utf8EncodeChar = cs.map fun c => UInt8.ofNat c.toNat := by
  rw [List.map_eq_flatMap]
  refine List.flatMap_congr fun c hc => ?_
  have low : c.toNat ≤ 127 := Nat.le_of_lt_succ (ascii c hc)
  simp [String.utf8EncodeChar, low]

/-- Reading succeeds with the bytes that the digits spell. -/
theorem readHexPairs_ok_iff {cs : List Char} (ascii : ∀ c ∈ cs, c.toNat < 128)
    (even : cs.length % 2 = 0) (position : Nat) (bytes : List UInt8) :
    readHexPairs position (cs.map fun c => UInt8.ofNat c.toNat) = .ok bytes ↔
      SpellsHex cs bytes := by
  induction cs using List.twoStepInduction generalizing position bytes with
  | nil =>
    constructor
    · intro h
      cases h
      exact .nil
    · rintro ⟨⟩
      rfl
  | singleton c => simp at even
  | cons_cons h l rest ih _ =>
    simp only [List.mem_cons, forall_eq_or_imp] at ascii
    have code : ∀ c : Char, c.toNat < 128 → (UInt8.ofNat c.toNat).toNat = c.toNat := by
      intro c hc
      simp only [UInt8.toNat_ofNat']
      omega
    have evenRest : rest.length % 2 = 0 := by
      simp only [List.length_cons] at even
      omega
    have later := ih ascii.2.2 evenRest (position + 2)
    simp only [List.map_cons, readHexPairs, code h ascii.1, code l ascii.2.1]
    constructor
    · intro read
      cases first : nibble? h.toNat with
      | none => simp [first] at read
      | some high =>
        cases second : nibble? l.toNat with
        | none => simp [first, second] at read
        | some low =>
          simp only [first, second] at read
          split at read
          · next found =>
            cases read
            exact .pair first second ((later _).mp found)
          · cases read
    · rintro ⟨⟩
      next first second spells =>
        simp only [first, second, (later _).mpr spells]

/-- Of ASCII text exactly the pairs of digits are read. -/
theorem readHex_ok_iff {cs : List Char} (ascii : ∀ c ∈ cs, c.toNat < 128) {bytes : List UInt8} :
    readHex (cs.flatMap String.utf8EncodeChar) = .ok bytes ↔ SpellsHex cs bytes := by
  rw [flatMap_utf8EncodeChar ascii, readHex, List.length_map]
  split
  · next odd =>
    constructor
    · intro h
      cases h
    · intro spells
      have := spells.length_eq
      omega
  · next even => exact readHexPairs_ok_iff ascii (by omega) 0 bytes

def lowerCaseDigits : List Char :=
  ['0', '1', '2', '3', '4', '5', '6', '7', '8', '9', 'a', 'b', 'c', 'd', 'e', 'f']

theorem hexDigit_spec : ∀ n < 16,
    hexDigit n ∈ lowerCaseDigits ∧ nibble? (hexDigit n).toNat = some n := by
  decide

/-- The digits that bytes are shown by spell these bytes. -/
theorem spellsHex_hexChars (bytes : List UInt8) : SpellsHex (hexChars bytes) bytes := by
  induction bytes with
  | nil => exact .nil
  | cons b bytes ih =>
    have small : b.toNat < 256 := b.toNat_lt
    have high := (hexDigit_spec (b.toNat / 16) (by omega)).2
    have low := (hexDigit_spec (b.toNat % 16) (by omega)).2
    have whole : UInt8.ofNat (16 * (b.toNat / 16) + b.toNat % 16) = b := by
      rw [Nat.div_add_mod, UInt8.ofNat_toNat]
    have spells := SpellsHex.pair high low ih
    rw [whole] at spells
    exact spells

theorem mem_lowerCaseDigits_of_mem_hexChars {bytes : List UInt8} {c : Char}
    (h : c ∈ hexChars bytes) : c ∈ lowerCaseDigits := by
  obtain ⟨b, _, hc⟩ := List.mem_flatMap.mp h
  have small : b.toNat < 256 := b.toNat_lt
  rcases List.mem_cons.mp hc with rfl | hc
  · exact (hexDigit_spec _ (by omega)).1
  · rw [List.mem_singleton.mp hc]
    exact (hexDigit_spec _ (by omega)).1

theorem readHex_hexText (bytes : List UInt8) : readHex (utf8 (hexText bytes)) = .ok bytes := by
  have ascii : ∀ c ∈ lowerCaseDigits, c.toNat < 128 := by simp [lowerCaseDigits]
  rw [utf8, hexText, String.toList_ofList]
  exact (readHex_ok_iff fun c hc => ascii c (mem_lowerCaseDigits_of_mem_hexChars hc)).mpr
    (spellsHex_hexChars bytes)

end Text

end ContractSurface
