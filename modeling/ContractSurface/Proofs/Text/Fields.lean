import ContractSurface.Text.Find

/-! # The fields of a text

Cuts are found one by one, so the first field ends before the first cut and the last one starts
behind the last. All characters of a field are from the text, and none of them is a cut. A list is
cut at its first mark in the same way, with what stands before it and the rest read off apart.
-/
namespace ContractSurface.Text

section Marks

variable {α : Type} [BEq α] [LawfulBEq α] {mark : α} {front : List α} (h : mark ∉ front)

include h

theorem forall_ne_of_not_mem : ∀ x ∈ front, (x != mark) = true :=
  fun _ hx => bne_iff_ne.mpr fun same => h (same ▸ hx)

/-- The first mark ends what stands before it. -/
theorem takeWhile_ne_append (rest : List α) :
    (front ++ mark :: rest).takeWhile (· != mark) = front := by
  rw [List.takeWhile_append_of_pos (forall_ne_of_not_mem h)]
  simp

theorem dropWhile_ne_append (rest : List α) :
    (front ++ mark :: rest).dropWhile (· != mark) = mark :: rest := by
  rw [List.dropWhile_append_of_pos (forall_ne_of_not_mem h)]
  simp

end Marks

variable {isCut : Char → Bool} {c : Char}

theorem fields_of_uncut {cs : List Char} (h : ∀ d ∈ cs, isCut d = false) :
    fields isCut cs = [cs] := by
  induction cs with
  | nil => rfl
  | cons d cs ih =>
    have first : isCut d = false := h d List.mem_cons_self
    have later := ih fun e he => h e (List.mem_cons_of_mem _ he)
    rw [fields, if_neg (by simp [first]), later]

theorem fields_append {cs rest : List Char} (h : ∀ d ∈ cs, isCut d = false)
    (hc : isCut c = true) : fields isCut (cs ++ c :: rest) = cs :: fields isCut rest := by
  induction cs with
  | nil => simp [fields, hc]
  | cons d cs ih =>
    have first : isCut d = false := h d List.mem_cons_self
    have later := ih fun e he => h e (List.mem_cons_of_mem _ he)
    rw [List.cons_append, fields, if_neg (by simp [first]), later]

/-- The last field is what follows the last cut. -/
theorem fields_append_last {last : List Char} (hc : isCut c = true)
    (h : ∀ d ∈ last, isCut d = false) (cs : List Char) :
    fields isCut (cs ++ c :: last) = fields isCut cs ++ [last] := by
  induction cs with
  | nil =>
    rw [List.nil_append, fields.eq_2, if_pos hc, fields_of_uncut h]
    rfl
  | cons d cs ih =>
    rw [List.cons_append, fields, fields, ih]
    by_cases cut : isCut d
    · rw [if_pos cut, if_pos cut]
      rfl
    · rw [if_neg cut, if_neg cut]
      cases first : fields isCut cs with
      | nil => exact absurd first (fields_ne_nil isCut cs)
      | cons field rest => rfl

theorem mem_of_mem_fields {cs field : List Char} (hf : field ∈ fields isCut cs) (hc : c ∈ field) :
    c ∈ cs ∧ isCut c = false := by
  induction cs generalizing field with
  | nil =>
    obtain rfl := List.mem_singleton.mp hf
    cases hc
  | cons d cs ih =>
    have behind {field : List Char} (hf : field ∈ fields isCut cs) (hc : c ∈ field) :
        c ∈ d :: cs ∧ isCut c = false := by
      obtain ⟨inside, uncut⟩ := ih hf hc
      exact ⟨List.mem_cons_of_mem d inside, uncut⟩
    unfold fields at hf
    split at hf
    · rcases List.mem_cons.mp hf with rfl | later
      · cases hc
      · exact behind later hc
    · next uncut =>
      split at hf
      · next none => exact absurd none (fields_ne_nil isCut cs)
      · next first rest same =>
        rw [same] at behind
        rcases List.mem_cons.mp hf with rfl | later
        · rcases List.mem_cons.mp hc with rfl | hc
          · exact ⟨List.mem_cons_self, by simpa using uncut⟩
          · exact behind List.mem_cons_self hc
        · exact behind (List.mem_cons_of_mem first later) hc

end ContractSurface.Text
