import ContractSurface.Proofs.Text.Replacing
import ContractSurface.TypeScript.Api
import Mathlib.Data.List.Chain

/-! # Descriptions in documentation comments

In a comment the description has a backslash in each place where it would close the comment, so the
comment is closed by its own end only. Where the description has no such backslash itself, taking
them away gives it back.
-/
namespace ContractSurface.TypeScript

variable {cs : List Char} {c : Char}

theorem mem_commentChars (h : c ∈ commentChars cs) : c ∈ cs ∨ c = '\\' := by
  fun_induction commentChars cs with
  | case1 cs ih =>
    simp only [List.mem_cons] at h ⊢
    tauto
  | case2 d cs _ ih =>
    simp only [List.mem_cons] at h ⊢
    tauto
  | case3 => cases h

theorem head?_commentChars (cs : List Char) : (commentChars cs).head? = cs.head? := by
  fun_cases commentChars cs <;> rfl

/-- No star stands before a slash in a comment. -/
theorem isChain_commentChars (cs : List Char) :
    (commentChars cs).IsChain fun c d => ¬(c = '*' ∧ d = '/') := by
  fun_induction commentChars cs with
  | case1 cs ih =>
    have slash : ('/' :: commentChars cs).IsChain fun c d => ¬(c = '*' ∧ d = '/') :=
      ih.cons (by simp)
    exact (slash.cons (by simp)).cons (by simp)
  | case2 d cs other ih =>
    refine ih.cons ?_
    -- what follows the character in the comment is what follows it in the description
    rw [head?_commentChars]
    rintro next found ⟨rfl, rfl⟩
    obtain ⟨rest, rfl⟩ := List.head?_eq_some_iff.mp found
    exact other rest rfl rfl
  | case3 => exact .nil

theorem not_infix_of_isChain (h : cs.IsChain fun c d => ¬(c = '*' ∧ d = '/')) :
    ¬['*', '/'] <:+: cs := by
  rintro ⟨before, after, rfl⟩
  rw [List.append_assoc] at h
  exact h.right_of_append.rel ⟨rfl, rfl⟩

def remarkBody (description : String) : String := "/** " ++ commentText description ++ " "

theorem toList_remarkBody (description : String) : (remarkBody description).toList =
    '/' :: '*' :: '*' :: ' ' :: (commentChars description.toList ++ [' ']) := by
  simp [remarkBody, commentText]

theorem docComment_eq (description : String) :
    docComment description = remarkBody description ++ "*/" := by
  simp [docComment, remarkBody, String.append_assoc]

theorem isChain_remarkBody (description : String) :
    ((remarkBody description).toList ++ ['*']).IsChain fun c d => ¬(c = '*' ∧ d = '/') := by
  have closing : (commentChars description.toList ++ [' ', '*']).IsChain
      fun c d => ¬(c = '*' ∧ d = '/') :=
    (isChain_commentChars description.toList).append (by simp) (by simp)
  have opening := (((closing.cons (x := ' ') (by simp)).cons (x := '*') (by simp)).cons
    (x := '*') (by simp)).cons (x := '/') (by simp)
  rw [toList_remarkBody]
  simpa using opening

/-- The comment is closed where it ends and nowhere before. -/
theorem docComment_eq_append_iff (description front back : String) :
    docComment description = front ++ "*/" ++ back ↔
      front = remarkBody description ∧ back = "" := by
  constructor
  · intro whole
    have chars : (remarkBody description).toList ++ ['*', '/'] =
        front.toList ++ ['*', '/'] ++ back.toList := by
      have same := congrArg String.toList whole
      rwa [docComment_eq, String.toList_append, String.toList_append, String.toList_append] at same
    rcases List.eq_nil_or_concat back.toList with none | ⟨rest, c, more⟩
    · rw [none, List.append_nil] at chars
      have same := List.append_cancel_right chars
      exact ⟨(String.toList_inj.mp same).symm, String.toList_eq_nil_iff.mp none⟩
    · rw [List.concat_eq_append] at more
      have split : (remarkBody description).toList ++ ['*'] ++ ['/'] =
          front.toList ++ ['*', '/'] ++ rest ++ [c] := by
        rw [List.append_assoc, List.append_assoc _ rest, ← more]
        exact chars
      have inside := List.append_inj_left' split rfl
      have closed : ['*', '/'] <:+: (remarkBody description).toList ++ ['*'] :=
        ⟨_, _, inside.symm⟩
      exact absurd closed (not_infix_of_isChain (isChain_remarkBody description))
  · rintro ⟨rfl, rfl⟩
    rw [docComment_eq, String.append_empty]

theorem commentChars_eq_replace (cs : List Char) :
    commentChars cs = Text.replace ['*', '/'] ['*', '\\', '/'] cs := by
  fun_induction commentChars cs with
  | case1 cs ih =>
    have first := Text.replace_append ['/'] ['*', '\\', '/'] '*' cs
    rw [List.cons_append, List.cons_append, List.nil_append] at first
    rw [first, ih]
    rfl
  | case2 c cs other ih =>
    rw [Text.replace_cons, ih]
    rintro ⟨rest, same⟩
    obtain ⟨rfl, behind⟩ := List.cons.inj same
    exact other rest rfl behind.symm
  | case3 => rw [Text.replace_nil]

theorem commentText_eq_replaced (description : String) :
    commentText description = Text.replaced description "*/" "*\\/" := by
  rw [commentText, commentChars_eq_replace]
  rfl

/-- A backslash between a star and a slash is one of the description, unless it was put there. -/
theorem exists_commentChars_iff (cs : List Char) :
    (∃ rest, commentChars cs = '\\' :: '/' :: rest) ↔ ∃ rest, cs = '\\' :: '/' :: rest := by
  constructor
  · rintro ⟨rest, same⟩
    have first := head?_commentChars cs
    rw [same] at first
    obtain ⟨ds, rfl⟩ := List.head?_eq_some_iff.mp first.symm
    have behind : commentChars ds = '/' :: rest := (List.cons.inj same).2
    have second := head?_commentChars ds
    rw [behind] at second
    obtain ⟨es, rfl⟩ := List.head?_eq_some_iff.mp second.symm
    exact ⟨es, rfl⟩
  · rintro ⟨rest, rfl⟩
    exact ⟨commentChars rest, rfl⟩

theorem escape_prefix_cons_iff : ['*', '\\', '/'] <+: c :: cs ↔
    c = '*' ∧ ∃ rest, cs = '\\' :: '/' :: rest := by
  constructor
  · rintro ⟨rest, same⟩
    obtain ⟨rfl, behind⟩ := List.cons.inj same
    exact ⟨rfl, rest, behind.symm⟩
  · rintro ⟨rfl, rest, rfl⟩
    exact ⟨rest, rfl⟩

/-- A description can be read back from its comment unless it is already written like one. -/
theorem replace_commentChars_iff (cs : List Char) :
    Text.replace ['*', '\\', '/'] ['*', '/'] (commentChars cs) = cs ↔
      ¬['*', '\\', '/'] <:+: cs := by
  fun_induction commentChars cs with
  | case1 cs ih =>
    have first := Text.replace_append ['\\', '/'] ['*', '/'] '*' (commentChars cs)
    rw [List.cons_append, List.cons_append, List.cons_append, List.nil_append] at first
    rw [first, List.infix_cons_iff, List.infix_cons_iff]
    simp [ih]
  | case2 c cs other ih =>
    rw [List.infix_cons_iff, escape_prefix_cons_iff]
    by_cases escape : c = '*' ∧ ∃ rest, cs = '\\' :: '/' :: rest
    · -- the backslash of the description is taken for one of the comment
      obtain ⟨rfl, same⟩ := escape
      obtain ⟨rest, shown⟩ := (exists_commentChars_iff cs).mpr same
      obtain ⟨behind, rfl⟩ := same
      have first := Text.replace_append ['\\', '/'] ['*', '/'] '*' rest
      rw [List.cons_append, List.cons_append, List.cons_append, List.nil_append] at first
      rw [shown, first]
      simp
    · have kept : ¬['*', '\\', '/'] <+: c :: commentChars cs := by
        rwa [escape_prefix_cons_iff, exists_commentChars_iff]
      rw [Text.replace_cons kept, List.cons_inj_right, ih, or_iff_right escape]
  | case3 => simp [Text.replace_nil]

/-- A description stands in a line of its own in the module of every interface that has an operation
described by it. The line is closed as a comment by its last two characters only, and it gives back
exactly the descriptions that have no backslash between a star and a slash. -/
theorem remark_closes_once (description : String) :
    (∀ (i : Interface) (o : Operation), o ∈ i.operations → o.description = description →
      docComment description ∈ (Api.ofInterface i).lines) ∧
    docComment description = "/** " ++ Text.replaced description "*/" "*\\/" ++ " */" ∧
    (∀ front back : String, docComment description = front ++ "*/" ++ back ↔
      front = "/** " ++ commentText description ++ " " ∧ back = "") ∧
    (Text.replaced (commentText description) "*\\/" "*/" = description ↔
      ¬"*\\/".toList <:+: description.toList) := by
  refine ⟨?_, ?_, fun front back => ?_, ?_⟩
  · rintro i o h rfl
    have wrapper : Wrapper.ofOperation o ∈ (Api.ofInterface i).wrappers := List.mem_map_of_mem h
    have line : docComment o.description ∈
        (Wrapper.ofOperation o).lines (bindingType (Api.ofInterface i).contractName) := by
      simp [Wrapper.lines, Wrapper.ofOperation]
    have inside := List.mem_flatMap.mpr ⟨_, wrapper, line⟩
    simp only [Api.lines, List.mem_append, inside, true_or, or_true]
  · rw [docComment, commentText_eq_replaced]
  · exact docComment_eq_append_iff description front back
  · have chars : (commentText description).toList = commentChars description.toList :=
      String.toList_ofList
    rw [← String.toList_inj, Text.replaced, String.toList_ofList, chars]
    exact replace_commentChars_iff description.toList

/-- Stars and slashes in a row, and a star at the end. -/
theorem tally_remark_closes_once :
    let tally : Operation := ⟨"tally", [], "Field", false, "**//*/ a*/b *"⟩
    let vote : Interface := ⟨"Vote", [tally], []⟩
    tally ∈ vote.operations ∧
      docComment tally.description = "/** **\\//*\\/ a*\\/b * */" ∧
      docComment tally.description ∈ (Api.ofInterface vote).lines ∧
      (∀ front back : String, "/** **\\//*\\/ a*\\/b * */" = front ++ "*/" ++ back ↔
        front = "/** **\\//*\\/ a*\\/b * " ∧ back = "") ∧
      Text.replaced "**\\//*\\/ a*\\/b *" "*\\/" "*/" = "**//*/ a*/b *" := by
  intro tally vote
  have given : tally ∈ vote.operations := List.mem_singleton_self _
  have text : commentText tally.description = "**\\//*\\/ a*\\/b *" := by decide +kernel
  have plain : ¬"*\\/".toList <:+: tally.description.toList := by decide +kernel
  obtain ⟨emitted, -, once, back⟩ := remark_closes_once tally.description
  have line : docComment tally.description = "/** **\\//*\\/ a*\\/b * */" := by
    rw [docComment, text]
    decide +kernel
  refine ⟨given, line, emitted vote tally given rfl, ?_, ?_⟩
  · rw [← line]
    rw [text] at once
    exact once
  · rw [text] at back
    exact back.mpr plain

end ContractSurface.TypeScript
