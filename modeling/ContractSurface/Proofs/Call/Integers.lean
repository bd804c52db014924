import ContractSurface.Proofs.Call.Kinds
import ContractSurface.Proofs.Interface.DeclaredTypes

/-! # Integers within their bounds

An answer to an integer parameter is accepted exactly if it is a row of digits, blanks around it left
out, whose value the declared type admits. A width counts up to 256 bits, whatever the size of its
numeral, and a range may be empty.
-/
namespace ContractSurface

def IsNumeral (cs : List Char) : Prop := cs ≠ [] ∧ ∀ d ∈ cs, d.isDigit = true

instance (cs : List Char) : Decidable (IsNumeral cs) :=
  decidable_of_iff (cs ≠ [] ∧ cs.all Char.isDigit = true) (by rw [List.all_eq_true]; rfl)

/-- The spellings of integer types, with the numerals that stand in them. -/
inductive IntegerType where
  | width (bits : String)
  | range (low high : String)
  | bareRange (low high : String)
  | field
  | counter

namespace IntegerType

def text : IntegerType → String
  | .width bits => "Uint<" ++ bits ++ ">"
  | .range low high => "Uint<" ++ low ++ ".." ++ high ++ ">"
  | .bareRange low high => low ++ ".." ++ high
  | .field => "Field"
  | .counter => "Counter"

def value (numeral : String) : Nat := Text.decimalValue numeral.toList

def IsWritten : IntegerType → Prop
  | .width bits => IsNumeral bits.toList ∧ 1 ≤ value bits
  | .range low high => IsNumeral low.toList ∧ IsNumeral high.toList
  | .bareRange low high => IsNumeral low.toList ∧ IsNumeral high.toList
  | .field => True
  | .counter => True

def Admits : IntegerType → Nat → Prop
  | .width bits, v => 256 < value bits ∨ v < 2 ^ value bits
  | .range low high, v => value low ≤ v ∧ v ≤ value high
  | .bareRange low high, v => value low ≤ v ∧ v ≤ value high
  | .field, _ => True
  | .counter, _ => True

end IntegerType

namespace Text

theorem splitAround?_cons {c : Char} (hc : c ≠ '.') (cs : List Char) :
    splitAround? ['.', '.'] (c :: cs) =
      (splitAround? ['.', '.'] cs).map fun halves => (c :: halves.1, halves.2) := by
  rw [splitAround?, if_neg (by simp [hc.symm])]

theorem splitAround?_of_not_mem {cs : List Char} (h : '.' ∉ cs) :
    splitAround? ['.', '.'] cs = none := by
  induction cs with
  | nil => rfl
  | cons c cs ih =>
    simp only [List.mem_cons, not_or] at h
    rw [splitAround?_cons (Ne.symm h.1), ih h.2, Option.map_none]

theorem splitAround?_append {low : List Char} (h : '.' ∉ low) (high : List Char) :
    splitAround? ['.', '.'] (low ++ '.' :: '.' :: high) = some (low, high) := by
  induction low with
  | nil => rfl
  | cons c low ih =>
    simp only [List.mem_cons, not_or] at h
    rw [List.cons_append, splitAround?_cons (Ne.symm h.1), ih h.2, Option.map_some]

end Text

theorem bareRange?_numerals {low high : List Char} (hl : ∀ d ∈ low, d.isDigit = true)
    (hh : ∀ d ∈ high, d.isDigit = true) (nl : low ≠ []) (nh : high ≠ []) :
    bareRange? (low ++ '.' :: '.' :: high) =
      some (.inclusive (Text.decimalValue low) (Text.decimalValue high)) := by
  have cut := Text.splitAround?_append (Text.not_mem_digits hl rfl) high
  simp [bareRange?, cut, Text.trim_digits hl, Text.trim_digits hh, Text.grouped?_digits hl nl,
    Text.grouped?_digits hh nh]

theorem rangeOfArguments_range {low high : List Char} (hl : ∀ d ∈ low, d.isDigit = true)
    (hh : ∀ d ∈ high, d.isDigit = true) (nl : low ≠ []) (nh : high ≠ []) :
    rangeOfArguments (low ++ '.' :: '.' :: high) =
      .inclusive (Text.decimalValue low) (Text.decimalValue high) := by
  rw [rangeOfArguments, bareRange?_numerals hl hh nl nh]

theorem contains_inclusive {low high v : Nat} :
    (IntegerRange.inclusive low high).contains v = true ↔ low ≤ v ∧ v ≤ high := by
  rw [IntegerRange.contains_iff]
  simp [IntegerRange.inclusive]

theorem contains_unbounded (v : Nat) : IntegerRange.unbounded.contains v = true := by
  simp [IntegerRange.contains, IntegerRange.unbounded]

/-- Beyond 256 bits a width stands for no bound. -/
theorem contains_ofWidth {bits v : Nat} :
    (IntegerRange.ofWidth bits).contains v = true ↔ 256 < bits ∨ v < 2 ^ bits := by
  unfold IntegerRange.ofWidth IntegerRange.widestWidth
  by_cases wide : bits > 256
  · rw [if_pos wide]
    simp [contains_unbounded, wide]
  · have positive : 0 < 2 ^ bits := Nat.two_pow_pos bits
    have power : Nat.pow 2 bits = 2 ^ bits := rfl
    rw [if_neg wide, contains_inclusive, power]
    omega

/-- A width that does not fit in 32 bits is beyond the widest one in any case. -/
theorem contains_rangeOfArguments_width {digits : List Char} (h : ∀ d ∈ digits, d.isDigit = true)
    (ne : digits ≠ []) (positive : 1 ≤ Text.decimalValue digits) (v : Nat) :
    (rangeOfArguments digits).contains v = true ↔
      256 < Text.decimalValue digits ∨ v < 2 ^ Text.decimalValue digits := by
  have bare : bareRange? digits = none := by
    simp [bareRange?, Text.splitAround?_of_not_mem (Text.not_mem_digits h rfl)]
  have spelled : Spells digits (Text.decimalValue digits) :=
    ⟨[], digits, rfl, .inl rfl, ne, h, rfl⟩
  unfold rangeOfArguments
  rw [bare, Text.trim_digits h]
  by_cases fits : Text.decimalValue digits < 2 ^ 32
  · have read := Text.naturalOfWidth?_eq_some_iff.mpr ⟨spelled, fits⟩
    simp only [read]
    rw [if_pos (Nat.lt_of_succ_le positive)]
    exact contains_ofWidth
  · have refused : Text.naturalOfWidth? 32 digits = none := by
      rw [Option.eq_none_iff_forall_ne_some]
      intro n read
      obtain ⟨spelledToo, small⟩ := Text.naturalOfWidth?_eq_some_iff.mp read
      have same := Text.natural?_eq_some_iff.mpr spelledToo
      rw [Text.natural?_eq_some_iff.mpr spelled] at same
      have value : Text.decimalValue digits = n := Option.some.inj same
      omega
    simp only [refused, contains_unbounded, true_iff]
    left
    omega

theorem isBlank_of_mem_range {low high : List Char} (hl : ∀ d ∈ low, d.isDigit = true)
    (hh : ∀ d ∈ high, d.isDigit = true) :
    ∀ c ∈ low ++ '.' :: '.' :: high, Text.isBlank c = false := by
  intro c hc
  simp only [List.mem_append, List.mem_cons] at hc
  rcases hc with hc | rfl | rfl | hc
  · exact Text.isBlank_of_isDigit (hl c hc)
  · rfl
  · rfl
  · exact Text.isBlank_of_isDigit (hh c hc)

theorem parameterKind_bareRange {low high : List Char} (hl : ∀ d ∈ low, d.isDigit = true)
    (hh : ∀ d ∈ high, d.isDigit = true) (nl : low ≠ []) (nh : high ≠ []) :
    parameterKind (String.ofList (low ++ '.' :: '.' :: high)) =
      .integer (.inclusive (Text.decimalValue low) (Text.decimalValue high)) := by
  have trimmed := Text.trim_of_forall_not_blank (isBlank_of_mem_range hl hh)
  have range := bareRange?_numerals hl hh nl nh
  simp only [parameterKind, String.toList_ofList, trimmed, range]

/-- Every written integer type is read as the values that it admits. -/
theorem IntegerType.exists_kind {t : IntegerType} (h : t.IsWritten) :
    ∃ range, parameterKind t.text = .integer range ∧ ∀ v, range.contains v = true ↔ t.Admits v := by
  cases t with
  | width bits =>
    obtain ⟨⟨ne, digits⟩, positive⟩ := h
    exact ⟨rangeOfArguments bits.toList, parameterKind_uint bits,
      contains_rangeOfArguments_width digits ne positive⟩
  | range low high =>
    obtain ⟨⟨nl, hl⟩, nh, hh⟩ := h
    have written : (IntegerType.range low high).text =
        "Uint<" ++ (low ++ ".." ++ high) ++ ">" := by
      simp only [text, String.append_assoc]
    have arguments : (low ++ ".." ++ high).toList = low.toList ++ '.' :: '.' :: high.toList := by
      simp
    refine ⟨.inclusive (value low) (value high), ?_, fun v => contains_inclusive⟩
    rw [written, parameterKind_uint, arguments, rangeOfArguments_range hl hh nl nh]
    rfl
  | bareRange low high =>
    obtain ⟨⟨nl, hl⟩, nh, hh⟩ := h
    have written : (IntegerType.bareRange low high).text =
        String.ofList (low.toList ++ '.' :: '.' :: high.toList) := by
      rw [← String.toList_inj]
      simp [text]
    refine ⟨.inclusive (value low) (value high), ?_, fun v => contains_inclusive⟩
    rw [written]
    exact parameterKind_bareRange hl hh nl nh
  | field =>
    refine ⟨.unbounded, by decide, ?_⟩
    simp [Admits, contains_unbounded]
  | counter =>
    refine ⟨.unbounded, by decide, ?_⟩
    simp [Admits, contains_unbounded]

/-- An answer is accepted exactly as a row of digits with a value that the type admits, and is then
this value. Digits with another value are refused with that value and the range, and all else is
refused as it was given. -/
theorem convert_integer_exact (name input : String) {t : IntegerType} (h : t.IsWritten) :
    let p : Parameter := ⟨name, t.text⟩
    let answer := Text.trim input.toList
    let v := Text.decimalValue answer
    (∀ a, convert p input = .ok a ↔ IsNumeral answer ∧ t.Admits v ∧ a = .integer v) ∧
    (IsNumeral answer → ¬t.Admits v → ∃ range : IntegerRange,
      (∀ n, range.contains n = true ↔ t.Admits n) ∧
        convert p input = .error (.outOfRange name range v)) ∧
    (¬IsNumeral answer → convert p input = .error (.notAnInteger name input)) := by
  intro p answer v
  obtain ⟨range, kind, admits⟩ := t.exists_kind h
  have read : convert p input = convertInteger name range input := by
    rw [convert_eq, kind]
    rfl
  have numeral : Text.isDigits answer = true ↔ IsNumeral answer := Text.isDigits_iff
  rw [read, convertInteger]
  by_cases digits : IsNumeral answer
  · have inside := admits v
    rw [if_pos (numeral.mpr digits)]
    by_cases within : t.Admits v
    · rw [if_pos (inside.mpr within)]
      refine ⟨fun a => ⟨fun given => ?_, fun given => ?_⟩, fun _ outside => absurd within outside,
        fun other => absurd digits other⟩
      · exact ⟨digits, within, (Except.ok.inj given).symm⟩
      · rw [given.2.2]
    · rw [if_neg (mt inside.mp within)]
      refine ⟨fun a => ⟨fun given => ?_, fun given => ?_⟩, fun _ _ => ⟨range, admits, rfl⟩,
        fun other => absurd digits other⟩
      · cases given
      · exact absurd given.2.1 within
  · rw [if_neg (mt numeral.mp digits)]
    refine ⟨fun a => ⟨fun given => ?_, fun given => ?_⟩, fun row => absurd row digits, fun _ => rfl⟩
    · cases given
    · exact absurd given.1 digits

/-- A width beyond 32 bits counts as one without bound, and a range whose ends are the wrong way
round has no value. -/
theorem convert_integer_exact_corners :
    convert ⟨"n", "Uint<4294967304>"⟩ "\t0300 " = .ok (.integer 300) ∧
      ∃ range : IntegerRange, (∀ n, range.contains n = true ↔ 5 ≤ n ∧ n ≤ 3) ∧
        convert ⟨"n", "5..3"⟩ "4" = .error (.outOfRange "n" range 4) := by
  have wide : (IntegerType.width "4294967304").IsWritten :=
    ⟨by decide +kernel, by decide +kernel⟩
  have crossed : (IntegerType.bareRange "5" "3").IsWritten :=
    ⟨by decide +kernel, by decide +kernel⟩
  have beyond : (IntegerType.width "4294967304").Admits 300 := .inl (by decide +kernel)
  have between : ¬(IntegerType.bareRange "5" "3").Admits 4 := by
    rintro ⟨low, _⟩
    exact absurd low (by decide +kernel)
  have value : Text.decimalValue (Text.trim "\t0300 ".toList) = 300 := by decide +kernel
  have accepted := (convert_integer_exact "n" "\t0300 " wide).1 (.integer 300)
  have refused := (convert_integer_exact "n" "4" crossed).2.1 (by decide +kernel)
  rw [value] at accepted
  have four : Text.decimalValue (Text.trim "4".toList) = 4 := by decide +kernel
  rw [four] at refused
  obtain ⟨range, admits, error⟩ := refused between
  refine ⟨accepted.mpr ⟨by decide +kernel, beyond, rfl⟩, range, ?_, error⟩
  intro n
  rw [admits]
  have ends : IntegerType.value "5" = 5 ∧ IntegerType.value "3" = 3 := by decide +kernel
  rw [IntegerType.Admits, ends.1, ends.2]

end ContractSurface
