import ContractSurface.Proofs.Call.Hexadecimal
import ContractSurface.Proofs.Call.Invocation
import ContractSurface.Proofs.Call.Kinds

/-! # The JSON form of a value as an answer

Whatever is of the kind of a parameter and within its bounds can be given to it as the text of its
JSON form, so a value that was accepted once is accepted again from what is recorded of it.
-/
namespace ContractSurface

def Json.scalarText? : Json → Option String
  | .string s => some s
  | .bool b => some (if b then "true" else "false")
  | _ => none

variable {p : Parameter} {v : Argument}

theorem isBlank_of_mem_prefixedHex {bytes : List UInt8} {c : Char}
    (h : c ∈ (Argument.prefixedHex bytes).toList) : Text.isBlank c = false := by
  have digits : ∀ d ∈ Text.lowerCaseDigits, Text.isBlank d = false := by
    simp [Text.lowerCaseDigits, Text.isBlank]
  have mark : ∀ d ∈ "0x".toList, Text.isBlank d = false := by simp [Text.isBlank]
  rw [Argument.prefixedHex, String.toList_append] at h
  rcases List.mem_append.mp h with h | h
  · exact mark c h
  · have digit : c ∈ Text.hexChars bytes := by simpa [Text.hexText] using h
    exact digits c (Text.mem_lowerCaseDigits_of_mem_hexChars digit)

/-- The shown form of bytes is read as the same bytes. -/
theorem convertBytes_prefixedHex (name : String) (bytes : List UInt8) :
    convertBytes name (Argument.prefixedHex bytes) = .ok (.bytes bytes) := by
  have whole : (Argument.prefixedHex bytes).toList = '0' :: 'x' :: (Text.hexText bytes).toList := by
    simp [Argument.prefixedHex]
  have trimmed :
      Text.trim (Argument.prefixedHex bytes).toList = (Argument.prefixedHex bytes).toList :=
    Text.trim_of_forall_not_blank fun c hc => isBlank_of_mem_prefixedHex hc
  have read := Text.readHex_hexText bytes
  unfold convertBytes
  rw [trimmed, whole]
  simp only [afterHexMark?]
  rw [Text.utf8] at read
  rw [read]

/-- A value of the right kind is accepted in the text of its JSON form. -/
theorem exists_scalarText_of_fits (h : v.Fits (parameterKind p.declaredType)) :
    ∃ text, v.json.scalarText? = some text ∧ convert p text = .ok v := by
  rw [convert_eq]
  cases hk : parameterKind p.declaredType with
  | integer range =>
    rw [hk] at h
    cases v with
    | integer n =>
      have within : range.contains n = true := h
      have read := convertInteger_numeral p.name range n
      rw [if_pos within] at read
      exact ⟨toString n, rfl, read⟩
    | _ => cases h
  | boolean =>
    rw [hk] at h
    cases v with
    | boolean b => cases b <;> exact ⟨_, rfl, rfl⟩
    | _ => cases h
  | bytes =>
    rw [hk] at h
    cases v with
    | bytes bs => exact ⟨Argument.prefixedHex bs, rfl, convertBytes_prefixedHex p.name bs⟩
    | _ => cases h
  | text =>
    rw [hk] at h
    cases v with
    | text s => exact ⟨s, rfl, rfl⟩
    | _ => cases h

/-- The text of the JSON form of an accepted value is accepted for that value, and no other accepted
value has that form. -/
theorem convert_json_text {input : String} (h : convert p input = .ok v) :
    (∃ text, v.json.scalarText? = some text ∧ convert p text = .ok v) ∧
      ∀ line w, convert p line = .ok w → w.json = v.json → w = v := by
  obtain ⟨text, written, again⟩ := exists_scalarText_of_fits (convert_fits h)
  refine ⟨⟨text, written, again⟩, ?_⟩
  intro line w read same
  obtain ⟨other, writtenOther, againOther⟩ := exists_scalarText_of_fits (convert_fits read)
  rw [same, written] at writtenOther
  rw [← Option.some.inj writtenOther, again] at againOther
  exact (Except.ok.inj againOther).symm

theorem key_json_text :
    let key : Parameter := ⟨"key", "Bytes<4>"⟩
    let v : Argument := .bytes [0xAB, 0x0C]
    convert key " 0XaB0C " = .ok v ∧ v.json.scalarText? = some "0xab0c" ∧
      convert key "0xab0c" = .ok v := by
  intro key v
  have read : convert key " 0XaB0C " = .ok v := by decide +kernel
  obtain ⟨⟨text, written, again⟩, _⟩ := convert_json_text read
  have spelled : v.json.scalarText? = some "0xab0c" := by decide +kernel
  rw [spelled] at written
  obtain rfl := Option.some.inj written
  exact ⟨read, spelled, again⟩

end ContractSurface
