import ContractSurface.Call.Conversion
import ContractSurface.Proofs.Text.Numerals

/-! # The kind of value that an answer is taken for

Conversion goes by the kind of a parameter alone, and shows it: parameters whose answers are
converted alike are of one kind, with the same bounds.
-/
namespace ContractSurface

def ParameterKind.convert (name : String) : ParameterKind → String → Except ParameterError Argument
  | .integer range => convertInteger name range
  | .boolean => convertBoolean name
  | .bytes => convertBytes name
  | .text => fun line => .ok (.text line)

theorem convert_eq (p : Parameter) :
    convert p = (parameterKind p.declaredType).convert p.name := by
  funext line
  unfold convert ParameterKind.convert
  cases parameterKind p.declaredType <;> rfl

theorem convertInteger_numeral (name : String) (range : IntegerRange) (n : Nat) :
    convertInteger name range (toString n) =
      if range.contains n then .ok (.integer n) else .error (.outOfRange name range n) := by
  unfold convertInteger
  dsimp only
  rw [Text.trim_toString, if_pos (Text.isDigits_toString n), Text.decimalValue_toString]

theorem IntegerRange.contains_iff {range : IntegerRange} {n : Nat} :
    range.contains n = true ↔ range.min ≤ n ∧ ∀ max ∈ range.max, n ≤ max := by
  unfold contains
  cases range.max <;> simp

/-- Only the range without bounds has all numbers. -/
theorem IntegerRange.eq_unbounded {range : IntegerRange} (h : ∀ n, range.contains n = true) :
    range = .unbounded := by
  obtain ⟨min, max⟩ := range
  have low : min ≤ 0 := (contains_iff.mp (h 0)).1
  cases max with
  | none => rw [Nat.le_zero.mp low]; rfl
  | some max =>
    have high : max + 1 ≤ max := (contains_iff.mp (h (max + 1))).2 max rfl
    omega

/-- A number outside a range is refused with the range. -/
theorem convertInteger_eq_of_outside {name : String} {range other : IntegerRange} {n : Nat}
    (same : convertInteger name range = convertInteger name other)
    (outside : ¬range.contains n = true) : range = other := by
  have eq := congrFun same (toString n)
  rw [convertInteger_numeral, convertInteger_numeral, if_neg outside] at eq
  split at eq
  · cases eq
  · injection eq with eq
    injection eq

/-- Ranges that convert alike are the same. -/
theorem convertInteger_injective (name : String) : Function.Injective (convertInteger name) := by
  intro range other same
  by_cases all : ∀ n, range.contains n = true
  · by_cases others : ∀ n, other.contains n = true
    · rw [IntegerRange.eq_unbounded all, IntegerRange.eq_unbounded others]
    · obtain ⟨n, outside⟩ := not_forall.mp others
      exact (convertInteger_eq_of_outside same.symm outside).symm
  · obtain ⟨n, outside⟩ := not_forall.mp all
    exact convertInteger_eq_of_outside same outside

/-- The answer `x` tells the kinds apart, up to the bounds of integers. -/
theorem ParameterKind.convert_injective (name : String) :
    Function.Injective (ParameterKind.convert name) := by
  intro kind other same
  have integer : ∀ range, convertInteger name range "x" = .error (.notAnInteger name "x") :=
    fun _ => rfl
  have boolean : convertBoolean name "x" = .error (.notABoolean name "x") := rfl
  have bytes : convertBytes name "x" = .ok (.bytes (Text.utf8 "x")) := rfl
  have differs := congrFun same "x"
  cases kind with
  | integer range =>
    cases other with
    | integer range' => rw [convertInteger_injective name same]
    | boolean => simp [convert, integer, boolean] at differs
    | bytes => simp [convert, integer, bytes] at differs
    | text => simp [convert, integer] at differs
  | boolean =>
    cases other with
    | integer range => simp [convert, integer, boolean] at differs
    | boolean => rfl
    | bytes => simp [convert, boolean, bytes] at differs
    | text => simp [convert, boolean] at differs
  | bytes =>
    cases other with
    | integer range => simp [convert, integer, bytes] at differs
    | boolean => simp [convert, boolean, bytes] at differs
    | bytes => rfl
    | text => simp [convert, bytes] at differs
  | text =>
    cases other with
    | integer range => simp [convert, integer] at differs
    | boolean => simp [convert, boolean] at differs
    | bytes => simp [convert, bytes] at differs
    | text => rfl

/-- A parameter is converted as its declared type says, and no other way. -/
theorem convert_eq_iff {p : Parameter} {kind : ParameterKind} :
    convert p = kind.convert p.name ↔ parameterKind p.declaredType = kind := by
  rw [convert_eq]
  exact (ParameterKind.convert_injective p.name).eq_iff

/-- Of an integer exactly the numerals within the bounds are accepted. -/
theorem exists_convert_integer_iff {p : Parameter} {range : IntegerRange}
    (h : parameterKind p.declaredType = .integer range) (line : String) :
    (∃ a, convert p line = .ok a) ↔
      Text.isDigits (Text.trim line.toList) = true ∧
        range.min ≤ Text.decimalValue (Text.trim line.toList) ∧
        ∀ max ∈ range.max, Text.decimalValue (Text.trim line.toList) ≤ max := by
  rw [convert_eq, h, ← IntegerRange.contains_iff]
  unfold ParameterKind.convert convertInteger
  dsimp only
  split
  · next digits =>
    split
    · next inside => simp [digits, inside]
    · next outside => simp [outside]
  · next other => simp [other]

end ContractSurface
