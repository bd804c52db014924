import ContractSurface.Interface.DeclaredType
import ContractSurface.Proofs.Text.Numerals

/-! # The two readings of a declared type

A declared type is read for the type that stands for it and for the kind of value that is asked for.
The kind goes by the type, and by the range where the type is an integer type. Types with arguments
go by what stands before the first `<`, whatever the arguments hold.
-/
namespace ContractSurface

theorem isVoid_trimmed (declared : String) : isVoid (Text.trimmed declared) = isVoid declared := by
  rw [isVoid, isVoid, Text.toList_trimmed, Text.trim_trim]

theorem targetType_trimmed (declared : String) :
    targetType (Text.trimmed declared) = targetType declared := by
  unfold targetType
  rw [Text.toList_trimmed, Text.trim_trim]

theorem parameterKind_trimmed (declared : String) :
    parameterKind (Text.trimmed declared) = parameterKind declared := by
  unfold parameterKind
  rw [Text.toList_trimmed, Text.trim_trim]

theorem targetOfGeneric_ne_void (cs : List Char) : targetOfGeneric cs ≠ .void := by
  unfold targetOfGeneric
  dsimp only
  generalize String.ofList (splitGeneric cs).1 = head
  split
  case h_6 => split <;> decide
  all_goals decide

/-- Only a type without a result is declared void. -/
theorem targetType_eq_void_iff {declared : String} :
    targetType declared = .void ↔ isVoid declared = true := by
  have void : isVoid (String.ofList (Text.trim declared.toList)) = isVoid declared :=
    isVoid_trimmed declared
  unfold targetType
  dsimp only
  rw [void]
  by_cases h : isVoid declared = true
  · rw [if_pos h]
    exact iff_of_true rfl h
  · rw [if_neg h]
    refine iff_of_false ?_ h
    split
    · decide
    · exact targetOfGeneric_ne_void _

/-- A void type is no range. -/
theorem bareRange?_of_isVoid {declared : String} (h : isVoid declared = true) :
    bareRange? (Text.trim declared.toList) = none := by
  rw [isVoid, Bool.or_eq_true, List.isEmpty_iff, beq_iff_eq] at h
  rcases h with h | h
  · rw [h]
    decide
  · rw [h]
    decide +kernel

def TargetType.kind (range : IntegerRange) : TargetType → ParameterKind
  | .bigInt => .integer range
  | .boolean => .boolean
  | .bytes => .bytes
  | .text => .text
  | .void => .text
  | .unknown => .text

def declaredRange (declared : String) : IntegerRange :=
  let cs := Text.trim declared.toList
  (bareRange? cs).getD (integerRange cs)

/-- A range stands for big integers. -/
theorem targetType_of_bareRange? {declared : String} {range : IntegerRange}
    (h : bareRange? (Text.trim declared.toList) = some range) : targetType declared = .bigInt := by
  have valued : ¬isVoid (String.ofList (Text.trim declared.toList)) = true := by
    intro void
    have none := bareRange?_of_isVoid ((isVoid_trimmed declared).symm.trans void)
    rw [h] at none
    cases none
  unfold targetType
  dsimp only
  rw [if_neg valued, h, Option.isSome_some, if_pos rfl]

/-- The range comes first for the kind and void first for the type, but no type is both. -/
theorem parameterKind_eq (declared : String) :
    parameterKind declared = (targetType declared).kind (declaredRange declared) := by
  have trimmed : targetType (String.ofList (Text.trim declared.toList)) = targetType declared :=
    targetType_trimmed declared
  unfold parameterKind declaredRange
  dsimp only
  rw [trimmed]
  cases hr : bareRange? (Text.trim declared.toList) with
  | some range =>
    rw [targetType_of_bareRange? hr]
    rfl
  | none => cases targetType declared <;> rfl

namespace Text

theorem eq_of_splitAround? {part cs low high : List Char}
    (h : splitAround? part cs = some (low, high)) : cs = low ++ (part ++ high) := by
  induction cs generalizing low with
  | nil =>
    rw [splitAround?] at h
    split at h
    · next empty =>
      cases h
      rw [List.isEmpty_iff.mp empty]
      rfl
    · cases h
  | cons c cs ih =>
    rw [splitAround?] at h
    split at h
    · next here =>
      cases h
      exact (List.prefix_iff_eq_append.mp (List.isPrefixOf_iff_prefix.mp here)).symm
    · obtain ⟨halves, later, same⟩ := Option.map_eq_some_iff.mp h
      cases same
      rw [List.cons_append, ← ih later]

theorem mem_grouped? {cs : List Char} {n : Nat} (h : grouped? cs = some n) :
    ∀ c ∈ cs, c.isDigit = true ∨ c = '_' ∨ c = '+' := by
  obtain ⟨sign, isSign, whole⟩ := exists_sign cs
  unfold grouped? at h
  split at h
  · cases h
  · next d ds dropped =>
    rw [dropped] at whole
    split at h
    · next digits =>
      simp only [Bool.and_eq_true, List.all_eq_true, Bool.or_eq_true, beq_iff_eq] at digits
      intro c hc
      rw [whole] at hc
      rcases List.mem_append.mp hc with hc | hc
      · rcases isSign with rfl | rfl
        · cases hc
        · exact .inr (.inr (List.mem_singleton.mp hc))
      · rcases List.mem_cons.mp hc with rfl | hc
        · exact .inl digits.1
        · exact (digits.2 c hc).imp_right .inl
    · cases h

end Text

/-- A text that ends with a bracket is no range: the bracket would stand in the second numeral. -/
theorem bareRange?_of_closed (cs : List Char) : bareRange? (cs ++ ['>']) = none := by
  unfold bareRange?
  cases hs : Text.splitAround? ['.', '.'] (cs ++ ['>']) with
  | none => rfl
  | some halves =>
    obtain ⟨low, high⟩ := halves
    have whole := Text.eq_of_splitAround? hs
    rcases List.eq_nil_or_concat high with rfl | ⟨front, c, rfl⟩
    · have last := congrArg List.getLast? whole
      simp at last
    · have joined : cs ++ ['>'] = (low ++ ['.', '.'] ++ front) ++ [c] := by
        simpa using whole
      obtain rfl : '>' = c := List.singleton_inj.mp (List.append_inj_right' joined rfl)
      have kept : Text.trim (front ++ ['>']) = Text.trimStart front ++ ['>'] := by
        rw [Text.trim, Text.trimStart_append_cons rfl, Text.trimEnd_append_cons rfl]
        rfl
      have refused : Text.grouped? (Text.trim (front ++ ['>'])) = none := by
        rw [Option.eq_none_iff_forall_ne_some]
        intro n read
        have numeral := Text.mem_grouped? read '>' (by simp [kept])
        revert numeral
        decide
      simp [refused]

section Closed

variable {declared : String} {cs : List Char} (h : Text.trim declared.toList = cs ++ ['>'])

include h

theorem targetType_of_closed : targetType declared = targetOfGeneric (cs ++ ['>']) := by
  have plain : cs ++ ['>'] ≠ voidType.toList := by
    intro same
    have last := congrArg List.getLast? same
    simp [voidType] at last
  have valued : isVoid declared = false := by simp [isVoid, h, plain]
  have trimmed := isVoid_trimmed declared
  unfold targetType
  dsimp only
  rw [Text.trimmed, h, valued] at trimmed
  rw [h, trimmed, bareRange?_of_closed]
  rfl

theorem declaredRange_of_closed : declaredRange declared = integerRange (cs ++ ['>']) := by
  unfold declaredRange
  dsimp only
  rw [h, bareRange?_of_closed]
  rfl

end Closed

theorem splitGeneric_append {head : List Char} (h : '<' ∉ head) (arguments : List Char) :
    splitGeneric (head ++ '<' :: (arguments ++ ['>'])) = (Text.trim head, some arguments) := by
  unfold splitGeneric
  rw [Text.takeWhile_ne_append h, Text.dropWhile_ne_append h]
  simp

/-- A type with arguments ends with its last bracket, and its head ends at its first one. -/
theorem exists_group {head : String} (h : '<' ∉ head.toList) (arguments : String) :
    ∃ cs, Text.trim (head ++ "<" ++ arguments ++ ">").toList = cs ++ ['>'] ∧
      splitGeneric (cs ++ ['>']) = (Text.trim head.toList, some arguments.toList) := by
  have text : (head ++ "<" ++ arguments ++ ">").toList =
      head.toList ++ '<' :: (arguments.toList ++ ['>']) := by simp
  have plain : '<' ∉ Text.trimStart head.toList := fun mem =>
    h ((List.dropWhile_suffix Text.isBlank).subset mem)
  have started : Text.trim (Text.trimStart head.toList) = Text.trim head.toList := by
    rw [Text.trim, Text.trimStart, Text.trimStart, List.dropWhile_idempotent]
    rfl
  refine ⟨Text.trimStart head.toList ++ '<' :: arguments.toList, ?_, ?_⟩
  · rw [text, Text.trim, Text.trimStart_append_cons rfl, ← List.cons_append, ← List.append_assoc,
      Text.trimEnd_append_cons rfl]
    rfl
  · rw [List.append_assoc, List.cons_append, splitGeneric_append plain, started]

/-- A type is asked for as text unless its head is one of the known ones. -/
theorem kind_targetOfGeneric (cs : List Char) (range : IntegerRange) :
    (targetOfGeneric cs).kind range = .text ↔
      String.ofList (splitGeneric cs).1 ∉ ["Uint", "Field", "Counter", "Bytes", "Boolean"] := by
  unfold targetOfGeneric
  dsimp only
  generalize String.ofList (splitGeneric cs).1 = head
  split
  case h_6 =>
    refine iff_of_true ?_ (by decide)
    split <;> rfl
  case h_7 => simp_all [TargetType.kind]
  all_goals simp [TargetType.kind]

/-- A type with arguments is read as text unless its head is the one of another kind. -/
theorem parameterKind_group {head : String} (h : '<' ∉ head.toList) (arguments : String) :
    parameterKind (head ++ "<" ++ arguments ++ ">") = .text ↔
      Text.trimmed head ∉ ["Uint", "Field", "Counter", "Bytes", "Boolean"] := by
  obtain ⟨cs, trimmed, generic⟩ := exists_group h arguments
  rw [parameterKind_eq, targetType_of_closed trimmed, kind_targetOfGeneric, generic]
  rfl

/-- The arguments of `Uint` alone decide about its range. -/
theorem parameterKind_uint (arguments : String) :
    parameterKind ("Uint<" ++ arguments ++ ">") =
      .integer (rangeOfArguments arguments.toList) := by
  have plain : '<' ∉ "Uint".toList := by decide
  obtain ⟨cs, trimmed, generic⟩ := exists_group plain arguments
  have head : Text.trim "Uint".toList = "Uint".toList := by decide
  have whole : "Uint<" = "Uint" ++ "<" := by decide
  rw [head] at generic
  rw [whole, parameterKind_eq, targetType_of_closed trimmed, declaredRange_of_closed trimmed,
    targetOfGeneric, integerRange, generic]
  rfl

/-- What is asked for is of the type that stands for the declared type. -/
structure KindFollowsTarget (kind : ParameterKind) (target : TargetType) : Prop where
  integer : (∃ range, kind = .integer range) ↔ target = .bigInt
  boolean : kind = .boolean ↔ target = .boolean
  bytes : kind = .bytes ↔ target = .bytes
  text : kind = .text ↔ target ∈ [.text, .void, .unknown]

theorem kindFollowsTarget_kind (target : TargetType) (range : IntegerRange) :
    KindFollowsTarget (target.kind range) target := by
  cases target <;> constructor <;> simp [TargetType.kind]

/-- Both readings of a declared type go together and see nothing of the blanks around it. What is
void is never asked for as an integer. A type with arguments is asked for as text unless its head is
that of an integer, byte or boolean type. -/
theorem kind_follows_target (declared : String) :
    KindFollowsTarget (parameterKind declared) (targetType declared) ∧
    (∀ other, Text.trimmed other = Text.trimmed declared →
      targetType other = targetType declared ∧ parameterKind other = parameterKind declared) ∧
    (isVoid declared = true → ∀ range, parameterKind declared ≠ .integer range) ∧
    ∀ head arguments : String, '<' ∉ head.toList → declared = head ++ "<" ++ arguments ++ ">" →
      (parameterKind declared = .text ↔
        Text.trimmed head ∉ ["Uint", "Field", "Counter", "Bytes", "Boolean"]) := by
  have follows : KindFollowsTarget (parameterKind declared) (targetType declared) := by
    rw [parameterKind_eq]
    exact kindFollowsTarget_kind _ _
  refine ⟨follows, ?_, ?_, ?_⟩
  · intro other same
    constructor
    · rw [← targetType_trimmed other, same, targetType_trimmed]
    · rw [← parameterKind_trimmed other, same, parameterKind_trimmed]
  · intro void range integer
    have target := follows.integer.mp ⟨range, integer⟩
    rw [targetType_eq_void_iff.mpr void] at target
    cases target
  · rintro head arguments plain rfl
    exact parameterKind_group plain arguments

/-- The range inside of the arguments of a map is no range of its own. -/
theorem map_of_ranges_is_text :
    '<' ∉ "\tMap ".toList ∧
      Text.trimmed "\tMap " ∉ ["Uint", "Field", "Counter", "Bytes", "Boolean"] ∧
      parameterKind "\tMap <Uint<0..3>, Bytes<32>>" = .text ∧
      Text.trimmed " 0 .. 3" = Text.trimmed "0 .. 3\n" ∧
      targetType " 0 .. 3" = targetType "0 .. 3\n" ∧ targetType "0 .. 3\n" = .bigInt ∧
      isVoid " []" = true ∧ ∀ range, parameterKind " []" ≠ .integer range := by
  have plain : '<' ∉ "\tMap ".toList := by decide
  have other : Text.trimmed "\tMap " ∉ ["Uint", "Field", "Counter", "Bytes", "Boolean"] := by
    decide +kernel
  have same : Text.trimmed " 0 .. 3" = Text.trimmed "0 .. 3\n" := by decide +kernel
  have void : isVoid " []" = true := by decide +kernel
  obtain ⟨-, -, -, group⟩ := kind_follows_target "\tMap <Uint<0..3>, Bytes<32>>"
  obtain ⟨-, blanks, -, -⟩ := kind_follows_target "0 .. 3\n"
  obtain ⟨-, -, never, -⟩ := kind_follows_target " []"
  exact ⟨plain, other,
    (group "\tMap " "Uint<0..3>, Bytes<32>" plain (by decide +kernel)).mpr other,
    same, (blanks _ same).1, by decide +kernel, void, never void⟩

end ContractSurface
