import ContractSurface.Text.Utf8

/-! # Decoding undoes encoding

A character is read back from its own bytes, whatever bytes follow, so a text is read back from the
bytes of its characters.
-/
namespace ContractSurface.Text

theorem leadByte?_two : ∀ x < 32,
    leadByte? (x + 192) = if x < 2 then none else some (1, x, 0x80, 0xBF) := by
  decide

/-- The second byte is bounded where shorter sequences and surrogates would lie. -/
theorem leadByte?_three : ∀ x < 16, leadByte? (x + 224) =
    some (2, x, if x = 0 then 0xA0 else 0x80, if x = 13 then 0x9F else 0xBF) := by
  decide

/-- The second byte is bounded where shorter sequences and code points beyond the last one would
lie. -/
theorem leadByte?_four : ∀ x < 5, leadByte? (x + 240) =
    some (3, x, if x = 0 then 0x90 else 0x80, if x = 4 then 0x8F else 0xBF) := by
  decide

theorem toNat_byte {n : Nat} (h : n < 256) : (UInt8.ofNat n).toNat = n := by
  rw [UInt8.toNat_ofNat']
  exact Nat.mod_eq_of_lt h

theorem continuation_byte {value low high taken count y : Nat} {bs : List UInt8} (h : y < 64)
    (ge : low ≤ y + 128) (le : y + 128 ≤ high) :
    continuation value low high taken (count + 1) (UInt8.ofNat (y + 128) :: bs) =
      continuation (value * 64 + y) 0x80 0xBF (taken + 1) count bs := by
  have byte : (UInt8.ofNat (y + 128)).toNat = y + 128 := toNat_byte (by omega)
  rw [continuation, byte, if_pos (by simp [ge, le]), Nat.add_sub_cancel]

/-- A last or middle byte that is not bounded any further. -/
theorem continuation_plain {value taken count y : Nat} {bs : List UInt8} (h : y < 64) :
    continuation value 0x80 0xBF taken (count + 1) (UInt8.ofNat (y + 128) :: bs) =
      continuation (value * 64 + y) 0x80 0xBF (taken + 1) count bs :=
  continuation_byte h (by omega) (by omega)

theorem decodePieces_lead {b count value low high n : Nat} {bs : List UInt8} (hb : b < 256)
    (lead : leadByte? b = some (count, value, low, high))
    (piece : continuation value low high 0 count bs = (count, some n)) :
    decodePieces (UInt8.ofNat b :: bs) = some (Char.ofNat n) :: decodePieces (bs.drop count) := by
  rw [decodePieces, toNat_byte hb, lead]
  simp only [piece, Option.map_some]

variable {x y z w : Nat} {rest : List UInt8}

theorem decodePieces_one (hx : x < 128) :
    decodePieces (UInt8.ofNat x :: rest) = some (Char.ofNat x) :: decodePieces rest := by
  have lead : leadByte? x = some (0, x, 0x80, 0xBF) := if_pos hx
  exact decodePieces_lead (by omega) lead rfl

theorem decodePieces_two (hx : x < 32) (hy : y < 64) (long : 2 ≤ x) :
    decodePieces (UInt8.ofNat (x + 192) :: UInt8.ofNat (y + 128) :: rest) =
      some (Char.ofNat (x * 64 + y)) :: decodePieces rest := by
  have lead := leadByte?_two x hx
  rw [if_neg (by omega)] at lead
  refine decodePieces_lead (by omega) lead ?_
  rw [continuation_plain hy, continuation]

theorem decodePieces_three (hx : x < 16) (hy : y < 64) (hz : z < 64) (long : x = 0 → 32 ≤ y)
    (plain : x = 13 → y < 32) :
    decodePieces
        (UInt8.ofNat (x + 224) :: UInt8.ofNat (y + 128) :: UInt8.ofNat (z + 128) :: rest) =
      some (Char.ofNat ((x * 64 + y) * 64 + z)) :: decodePieces rest := by
  refine decodePieces_lead (by omega) (leadByte?_three x hx) ?_
  have ge : (if x = 0 then 0xA0 else 0x80) ≤ y + 128 := by split <;> omega
  have le : y + 128 ≤ if x = 13 then 0x9F else 0xBF := by split <;> omega
  rw [continuation_byte hy ge le, continuation_plain hz, continuation]

theorem decodePieces_four (hx : x < 5) (hy : y < 64) (hz : z < 64) (hw : w < 64)
    (long : x = 0 → 16 ≤ y) (within : x = 4 → y < 16) :
    decodePieces (UInt8.ofNat (x + 240) :: UInt8.ofNat (y + 128) :: UInt8.ofNat (z + 128) ::
        UInt8.ofNat (w + 128) :: rest) =
      some (Char.ofNat (((x * 64 + y) * 64 + z) * 64 + w)) :: decodePieces rest := by
  refine decodePieces_lead (by omega) (leadByte?_four x hx) ?_
  have ge : (if x = 0 then 0x90 else 0x80) ≤ y + 128 := by split <;> omega
  have le : y + 128 ≤ if x = 4 then 0x8F else 0xBF := by split <;> omega
  rw [continuation_byte hy ge le, continuation_plain hz, continuation_plain hw, continuation]

/-- An encoded character is decoded as itself, whatever follows it. -/
theorem decodePieces_utf8EncodeChar (c : Char) (rest : List UInt8) :
    decodePieces (String.utf8EncodeChar c ++ rest) = some c :: decodePieces rest := by
  have valid : c.toNat < 0xD800 ∨ 0xDFFF < c.toNat ∧ c.toNat < 0x110000 := c.valid
  have same : Char.ofNat c.toNat = c := Char.ofNat_toNat c
  have code : c.val.toNat = c.toNat := rfl
  unfold String.utf8EncodeChar
  simp only [code]
  generalize c.toNat = n at valid same
  split
  · next one =>
    rw [List.cons_append, List.nil_append, decodePieces_one (by omega), same]
  · split
    · next two =>
      have value : n / 64 % 32 * 64 + n % 64 = n := by omega
      rw [List.cons_append, List.cons_append, List.nil_append,
        decodePieces_two (by omega) (by omega) (by omega), value, same]
    · split
      · next three =>
        have value : (n / 4096 % 16 * 64 + n / 64 % 64) * 64 + n % 64 = n := by omega
        rw [List.cons_append, List.cons_append, List.cons_append, List.nil_append,
          decodePieces_three (by omega) (by omega) (by omega) (by omega) (by omega), value, same]
      · have value :
            ((n / 262144 % 8 * 64 + n / 4096 % 64) * 64 + n / 64 % 64) * 64 + n % 64 = n := by
          omega
        rw [List.cons_append, List.cons_append, List.cons_append, List.cons_append,
          List.nil_append, decodePieces_four (by omega) (by omega) (by omega) (by omega) (by omega)
            (by omega), value, same]

theorem decodePieces_flatMap (cs : List Char) :
    decodePieces (cs.flatMap String.utf8EncodeChar) = cs.map some := by
  induction cs with
  | nil => simp [decodePieces]
  | cons c cs ih => rw [List.flatMap_cons, decodePieces_utf8EncodeChar, ih, List.map_cons]

theorem decodeUtf8?_utf8 (s : String) : decodeUtf8? (utf8 s) = some s := by
  have whole : ∀ cs : List Char, (cs.map some).mapM id = some cs := by
    intro cs
    induction cs with
    | nil => rfl
    | cons c cs ih => simp [List.mapM_cons, ih]
  rw [decodeUtf8?, utf8, decodePieces_flatMap, whole, Option.map_some, String.ofList_toList]

end ContractSurface.Text
