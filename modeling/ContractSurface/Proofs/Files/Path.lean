import ContractSurface.Files.Path
import ContractSurface.Proofs.Text.Fields

/-! # Paths with one more component

A name behind a slash is the last segment of a path, and what stands before it is the path of the
directory.
-/
namespace ContractSurface

/-- The name stands for itself in a path. -/
structure IsName (name : String) : Prop where
  unbroken : '/' ∉ name.toList
  nonempty : name ≠ ""
  ne_dot : name ≠ "."
  ne_dots : name ≠ ".."

instance (name : String) : Decidable (IsName name) :=
  decidable_of_iff ('/' ∉ name.toList ∧ name ≠ "" ∧ name ≠ "." ∧ name ≠ "..")
    ⟨fun ⟨unbroken, nonempty, dot, dots⟩ => ⟨unbroken, nonempty, dot, dots⟩,
      fun ⟨unbroken, nonempty, dot, dots⟩ => ⟨unbroken, nonempty, dot, dots⟩⟩

namespace Path

variable {dir name p q : Path}

theorem toList_below (dir name : Path) :
    (dir ++ "/" ++ name).toList = dir.toList ++ '/' :: name.toList := by
  simp

theorem uncut_of_no_slash (h : '/' ∉ name.toList) : ∀ d ∈ name.toList, (d == '/') = false := by
  intro d hd
  rw [beq_eq_false_iff_ne]
  exact fun same => h (same ▸ hd)

theorem segments_below (h : '/' ∉ name.toList) (dir : Path) :
    segments (dir ++ "/" ++ name) = segments dir ++ [name] := by
  rw [segments, toList_below, Text.fields_append_last rfl (uncut_of_no_slash h),
    List.map_append, segments]
  simp

theorem segments_of_name (h : '/' ∉ name.toList) : segments name = [name] := by
  rw [segments, Text.fields_of_uncut (uncut_of_no_slash h)]
  simp

theorem withoutTail_cons {c : Char} (slash : c ≠ '/') (dot : c ≠ '.') (cs : List Char) :
    withoutTail (c :: cs) = c :: cs := by
  unfold withoutTail
  split <;> simp_all

/-- The last character neither is a slash nor may be a component of its own. -/
def EndsPlainly (p : Path) : Prop :=
  ∃ c cs, p.toList.reverse = c :: cs ∧ c ≠ '/' ∧ c ≠ '.'

theorem EndsPlainly.append (h : name.EndsPlainly) (dir : Path) : (dir ++ name).EndsPlainly := by
  obtain ⟨c, cs, reversed, apart⟩ := h
  refine ⟨c, cs ++ dir.toList.reverse, ?_, apart⟩
  rw [String.toList_append, List.reverse_append, reversed, List.cons_append]

theorem EndsPlainly.withoutTail_eq (h : name.EndsPlainly) :
    withoutTail name.toList.reverse = name.toList.reverse := by
  obtain ⟨c, cs, reversed, slash, dot⟩ := h
  rw [reversed]
  exact withoutTail_cons slash dot cs

theorem EndsPlainly.withoutTail_slash (h : dir.EndsPlainly) :
    withoutTail ('/' :: dir.toList.reverse) = dir.toList.reverse := by
  have kept := h.withoutTail_eq
  obtain ⟨c, cs, reversed, -⟩ := h
  rw [reversed] at kept ⊢
  rw [withoutTail, kept]

/-- The parent of what stands below a directory is the directory. -/
theorem parent?_below (plain : '/' ∉ name.toList) (hd : dir.EndsPlainly) (hn : name.EndsPlainly) :
    parent? (dir ++ "/" ++ name) = some dir := by
  have reversed : (dir ++ "/" ++ name).toList.reverse =
      name.toList.reverse ++ '/' :: dir.toList.reverse := by
    rw [toList_below]
    simp
  have whole := (hn.append (dir ++ "/")).withoutTail_eq
  rw [reversed] at whole
  have long : ¬(name.toList.reverse ++ '/' :: dir.toList.reverse = [] ∨
      name.toList.reverse ++ '/' :: dir.toList.reverse = ['/']) := by
    obtain ⟨c, cs, start, slash, -⟩ := hn
    rw [start]
    simp [slash]
  have plain' : '/' ∉ name.toList.reverse := by rwa [List.mem_reverse]
  rw [parent?, splitLast?, reversed, whole]
  rw [if_neg long, Text.dropWhile_ne_append plain', hd.withoutTail_slash]
  simp

theorem isAbsolute_append (h : q ≠ "") (r : Path) : (q ++ r).isAbsolute = q.isAbsolute := by
  rw [isAbsolute, isAbsolute, String.toList_append]
  cases whole : q.toList with
  | nil => exact absurd (String.toList_eq_nil_iff.mp whole) h
  | cons c cs => rfl

theorem join_append (h : q ≠ "") (p r : Path) : join p (q ++ r) = join p q ++ r := by
  rw [join, join, isAbsolute_append h]
  split
  · rfl
  · split <;> simp only [String.append_assoc]

/-- A name joined to a path is its last segment. -/
theorem join_name (h : name.isAbsolute = false) (p : Path) :
    p = "" ∧ join p name = name ∨
      ∃ dir, (p = dir ++ "/" ∨ p ≠ "" ∧ p = dir) ∧ join p name = dir ++ "/" ++ name := by
  rw [join, if_neg (by simp [h])]
  by_cases empty : p = ""
  · left
    exact ⟨empty, by rw [if_pos (Or.inl empty), empty, String.empty_append]⟩
  · right
    by_cases slash : p.toList.getLast? = some '/'
    · rw [if_pos (Or.inr slash)]
      obtain ⟨cs, whole⟩ := List.getLast?_eq_some_iff.mp slash
      obtain rfl : p = String.ofList cs ++ "/" := by
        rw [← String.toList_inj, String.toList_append, whole, String.toList_ofList]
        rfl
      exact ⟨String.ofList cs, .inl rfl, rfl⟩
    · rw [if_neg (by simp [empty, slash])]
      exact ⟨p, .inr ⟨empty, rfl⟩, rfl⟩

theorem isAbsolute_of_unbroken (h : '/' ∉ name.toList) : name.isAbsolute = false := by
  rw [isAbsolute, beq_eq_false_iff_ne]
  exact fun first => h (List.mem_of_head? first)

theorem segments_slash (p : Path) : segments (p ++ "/") = segments p ++ [""] := by
  rw [← segments_below (by simp), String.append_empty]

theorem head?_segments_append (p : Path) (rest : List String) :
    (segments p ++ rest).head? = (segments p).head? := by
  cases segs : segments p with
  | nil => exact absurd (List.map_eq_nil_iff.mp segs) (Text.fields_ne_nil _ _)
  | cons s ss => rfl

theorem components_slash (ne : p ≠ "") : components (p ++ "/") = components p := by
  rw [components, components, isAbsolute_append ne, segments_slash, head?_segments_append]
  simp

theorem components_below (h : IsName name) (dir : Path) :
    components (dir ++ "/" ++ name) = components (dir ++ "/") ++ [name] := by
  rw [components, components, isAbsolute_append (by simp), segments_below h.unbroken,
    segments_slash, head?_segments_append, head?_segments_append]
  split
  · simp [h.nonempty, h.ne_dot]
  · split <;> simp [h.nonempty, h.ne_dot]

/-- A name joined to a path is one component more. -/
theorem components_join (h : IsName name) (p : Path) :
    components (join p name) = components p ++ [name] := by
  rcases join_name (isAbsolute_of_unbroken h.unbroken) p with
    ⟨rfl, whole⟩ | ⟨dir, rfl | ⟨ne, rfl⟩, whole⟩
  · have alone : components name = [name] := by
      simp [components, isAbsolute_of_unbroken h.unbroken, segments_of_name h.unbroken,
        h.nonempty, h.ne_dot]
    rw [whole, alone]
    rfl
  · rw [whole, components_below h]
  · rw [whole, components_below h, components_slash ne]

theorem withoutTail_of_name (h : IsName name) (rest : List Char) :
    withoutTail (name.toList.reverse ++ rest) = name.toList.reverse ++ rest := by
  have unbroken : '/' ∉ name.toList.reverse := by simpa using h.unbroken
  have ne_nil : name.toList.reverse ≠ [] := by simpa using h.nonempty
  have ne_dot : name.toList.reverse ≠ ['.'] := by
    intro dot
    rw [List.reverse_eq_iff] at dot
    exact h.ne_dot (String.toList_inj.mp dot)
  generalize name.toList.reverse = cs at *
  unfold withoutTail
  split
  · next c ds whole =>
    cases cs with
    | nil => exact absurd rfl ne_nil
    | cons d cs => exact absurd (List.cons.inj whole).1 fun same => unbroken (by simp [same])
  · next ds whole =>
    match cs with
    | [] => exact absurd rfl ne_nil
    | [d] => exact absurd (by simpa using whole : d = '.' ∧ _).1 (by simpa using ne_dot)
    | d :: e :: cs =>
      rw [List.cons_append, List.cons_append, List.cons.injEq, List.cons.injEq] at whole
      exact absurd whole.2.1 fun same => unbroken (by simp [same])
  · rfl

theorem splitLast?_of_name {whole : Path} {rest : List Char} (h : IsName name)
    (reversed : whole.toList.reverse = name.toList.reverse ++ rest)
    (hrest : rest = [] ∨ ∃ ds, rest = '/' :: ds) :
    ∃ dir, whole.splitLast? = some (dir, name) := by
  have unbroken : '/' ∉ name.toList.reverse := by simpa using h.unbroken
  have ne_nil : name.toList.reverse ≠ [] := by simpa using h.nonempty
  have named : ¬(name.toList.reverse ++ rest = [] ∨ name.toList.reverse ++ rest = ['/']) := by
    cases start : name.toList.reverse with
    | nil => exact absurd start ne_nil
    | cons c cs =>
      rw [start] at unbroken
      simpa using fun same : c = '/' => absurd List.mem_cons_self (same ▸ unbroken)
  have last : (name.toList.reverse ++ rest).takeWhile (· != '/') = name.toList.reverse := by
    rw [List.takeWhile_append_of_pos (Text.forall_ne_of_not_mem unbroken)]
    rcases hrest with rfl | ⟨ds, rfl⟩ <;> simp
  rw [splitLast?, reversed, withoutTail_of_name h, if_neg named, last]
  simp

/-- A name joined to a path is the last one of the result. -/
theorem fileName?_join (h : IsName name) (p : Path) : fileName? (join p name) = some name := by
  have last : ∃ dir, splitLast? (join p name) = some (dir, name) := by
    rcases join_name (isAbsolute_of_unbroken h.unbroken) p with ⟨-, whole⟩ | ⟨dir, -, whole⟩
    · exact splitLast?_of_name h (by rw [whole, List.append_nil]) (.inl rfl)
    · have reversed : (join p name).toList.reverse =
          name.toList.reverse ++ '/' :: dir.toList.reverse := by simp [whole]
      exact splitLast?_of_name h reversed (.inr ⟨_, rfl⟩)
  obtain ⟨dir, last⟩ := last
  rw [fileName?, last]
  exact if_neg (by simp [h.ne_dot, h.ne_dots])

end Path

end ContractSurface
