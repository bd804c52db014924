import Mathlib.Data.String.Basic
import ContractSurface.Proofs.Files.Path
import ContractSurface.Proofs.Files.Tree

/-! # Walking through a tree

A walk through a tree whose directories are in order meets every file once, and the files in the
lexicographic order of their paths: what lies in a directory comes before every entry with a greater
name. The order of the siblings carries over to the paths because two paths first differ at the
names of two siblings.
-/
namespace ContractSurface

def Entry.walk (name : String) : Entry → List (List String × ByteArray)
  | .file content => [([name], content)]
  | .folder inside => inside.walk.map fun f => (name :: f.1, f.2)

namespace Tree

/-- The entries of a directory have different names, in every directory of the tree. -/
def WellFormed : Tree → Prop
  | empty => True
  | file n _ rest => IsName n ∧ n ∉ rest.names ∧ rest.WellFormed
  | folder n inside rest => IsName n ∧ n ∉ rest.names ∧ inside.WellFormed ∧ rest.WellFormed

instance decidableWellFormed : (t : Tree) → Decidable t.WellFormed
  | empty => isTrue trivial
  | file n _ rest =>
    have := decidableWellFormed rest
    inferInstanceAs (Decidable (IsName n ∧ n ∉ rest.names ∧ rest.WellFormed))
  | folder n inside rest =>
    have := decidableWellFormed inside
    have := decidableWellFormed rest
    inferInstanceAs (Decidable (IsName n ∧ n ∉ rest.names ∧ inside.WellFormed ∧ rest.WellFormed))

/-- The names of the entries ascend, in every directory of the tree. -/
def Ordered : Tree → Prop
  | empty => True
  | file n _ rest => (∀ m ∈ rest.names, n < m) ∧ rest.Ordered
  | folder n inside rest => (∀ m ∈ rest.names, n < m) ∧ inside.Ordered ∧ rest.Ordered

end Tree

def Entry.WellFormed : Entry → Prop
  | .file _ => True
  | .folder inside => inside.WellFormed

def Entry.Ordered : Entry → Prop
  | .file _ => True
  | .folder inside => inside.Ordered

namespace Tree

variable {t inside : Tree} {e : Entry} {name : String} {names : List String} {content : ByteArray}

theorem names_cons (name : String) (e : Entry) (rest : Tree) :
    (cons name e rest).names = name :: rest.names := by
  cases e <;> rfl

theorem walk_cons (name : String) (e : Entry) (rest : Tree) :
    (cons name e rest).walk = e.walk name ++ rest.walk := by
  cases e <;> rfl

theorem ordered_cons (name : String) (e : Entry) (rest : Tree) :
    (cons name e rest).Ordered ↔ (∀ m ∈ rest.names, name < m) ∧ e.Ordered ∧ rest.Ordered := by
  cases e with
  | file content => simp [cons, Ordered, Entry.Ordered]
  | folder inside => rfl

theorem insertByName_cons (name n : String) (e first : Entry) (rest : Tree) :
    (cons n first rest).insertByName name e =
      if name < n then cons name e (cons n first rest)
      else cons n first (rest.insertByName name e) := by
  cases first <;> rfl

theorem names_insertByName (name : String) (e : Entry) (t : Tree) :
    (t.insertByName name e).names.Perm (name :: t.names) := by
  induction t using induction_cons with
  | empty => rw [insertByName, names_cons]
  | cons n first rest ih =>
    rw [insertByName_cons]
    split
    · rw [names_cons]
    · rw [names_cons, names_cons]
      exact (ih.cons n).trans (.swap name n rest.names)

theorem walk_insertByName (name : String) (e : Entry) (t : Tree) :
    (t.insertByName name e).walk.Perm (e.walk name ++ t.walk) := by
  induction t using induction_cons with
  | empty => rw [insertByName, walk_cons]
  | cons n first rest ih =>
    rw [insertByName_cons]
    split
    · rw [walk_cons]
    · rw [walk_cons, walk_cons]
      exact (ih.append_left (first.walk n)).trans (List.perm_append_comm_assoc ..)

theorem ordered_insertByName (ht : t.Ordered) (he : e.Ordered) (new : name ∉ t.names) :
    (t.insertByName name e).Ordered := by
  induction t using induction_cons with
  | empty =>
    rw [insertByName, ordered_cons]
    exact ⟨by simp [names], he, ht⟩
  | cons n first rest ih =>
    obtain ⟨after, hfirst, hrest⟩ := (ordered_cons n first rest).mp ht
    rw [names_cons, List.mem_cons, not_or] at new
    rw [insertByName_cons]
    split
    · next before =>
      rw [ordered_cons, names_cons]
      refine ⟨?_, he, ht⟩
      intro m hm
      rcases List.mem_cons.mp hm with rfl | hm
      · exact before
      · exact before.trans (after m hm)
    · next behind =>
      rw [ordered_cons]
      refine ⟨?_, hfirst, ih hrest new.2⟩
      intro m hm
      rcases List.mem_cons.mp ((names_insertByName name e rest).mem_iff.mp hm) with rfl | hm
      · exact lt_of_le_of_ne (not_lt.mp behind) (Ne.symm new.1)
      · exact after m hm

theorem names_sorted (t : Tree) : t.sorted.names.Perm t.names := by
  induction t with
  | empty => exact .refl _
  | file n content rest ih => exact (names_insertByName n _ rest.sorted).trans (ih.cons n)
  | folder n inside rest _ ih => exact (names_insertByName n _ rest.sorted).trans (ih.cons n)

/-- Sorting changes the order in which the files are met, and nothing else. -/
theorem walk_sorted (t : Tree) : t.sorted.walk.Perm t.walk := by
  induction t with
  | empty => exact .refl _
  | file n content rest ih => exact (walk_insertByName n _ rest.sorted).trans (ih.append_left _)
  | folder n inside rest ihInside ih =>
    exact (walk_insertByName n _ rest.sorted).trans ((ihInside.map _).append ih)

/-- Sorting orders every directory of a well-formed tree. -/
theorem ordered_sorted (h : t.WellFormed) : t.sorted.Ordered := by
  induction t with
  | empty => exact trivial
  | file n content rest ih =>
    obtain ⟨-, new, hrest⟩ := h
    exact ordered_insertByName (ih hrest) trivial fun there =>
      new ((names_sorted rest).mem_iff.mp there)
  | folder n inside rest ihInside ih =>
    obtain ⟨-, new, hinside, hrest⟩ := h
    exact ordered_insertByName (ih hrest) (ihInside hinside) fun there =>
      new ((names_sorted rest).mem_iff.mp there)

theorem exists_of_mem_walk {f : List String × ByteArray} (h : f ∈ t.walk) :
    ∃ name ∈ t.names, ∃ below, f.1 = name :: below := by
  induction t with
  | empty => cases h
  | file n content rest ih =>
    rcases List.mem_cons.mp h with rfl | h
    · exact ⟨n, List.mem_cons_self, [], rfl⟩
    · obtain ⟨m, hm, there⟩ := ih h
      exact ⟨m, List.mem_cons_of_mem n hm, there⟩
  | folder n inside rest _ ih =>
    rcases List.mem_append.mp h with h | h
    · obtain ⟨g, -, rfl⟩ := List.mem_map.mp h
      exact ⟨n, List.mem_cons_self, g.1, rfl⟩
    · obtain ⟨m, hm, there⟩ := ih h
      exact ⟨m, List.mem_cons_of_mem n hm, there⟩

/-- In a tree in order the paths of the files ascend. -/
theorem pairwise_walk (h : t.Ordered) : t.walk.Pairwise fun f g => f.1 < g.1 := by
  induction t with
  | empty => exact .nil
  | file n content rest ih =>
    obtain ⟨after, hrest⟩ := h
    refine .cons ?_ (ih hrest)
    intro g hg
    obtain ⟨m, hm, below, path⟩ := exists_of_mem_walk hg
    rw [path]
    exact List.cons_lt_cons_iff.mpr (.inl (after m hm))
  | folder n inside rest ihInside ih =>
    obtain ⟨after, hinside, hrest⟩ := h
    refine List.pairwise_append.mpr ⟨?_, ih hrest, ?_⟩
    · rw [List.pairwise_map]
      exact (ihInside hinside).imp fun before => List.cons_lt_cons_iff.mpr (.inr ⟨rfl, before⟩)
    · intro f hf g hg
      obtain ⟨f, -, rfl⟩ := List.mem_map.mp hf
      obtain ⟨m, hm, below, path⟩ := exists_of_mem_walk hg
      rw [path]
      exact List.cons_lt_cons_iff.mpr (.inl (after m hm))

theorem wellFormed_cons (name : String) (e : Entry) (rest : Tree) :
    (cons name e rest).WellFormed ↔
      IsName name ∧ name ∉ rest.names ∧ e.WellFormed ∧ rest.WellFormed := by
  cases e with
  | file content => simp [cons, WellFormed, Entry.WellFormed]
  | folder inside => rfl

theorem wellFormed_of_entry (ht : t.WellFormed) (h : t.entry? name = some e) :
    IsName name ∧ e.WellFormed := by
  induction t using induction_cons with
  | empty => cases h
  | cons n first rest ih =>
    obtain ⟨hn, -, hfirst, hrest⟩ := (wellFormed_cons n first rest).mp ht
    rw [entry_cons] at h
    split at h
    · next same =>
      cases h
      exact ⟨same ▸ hn, hfirst⟩
    · exact ih hrest h

/-- What a path of names leads to is well formed, and the names are names. -/
theorem wellFormed_of_lookup (ht : t.WellFormed) (h : t.lookup names = some e) :
    (∀ name ∈ names, IsName name) ∧ e.WellFormed := by
  induction names generalizing t with
  | nil =>
    cases h
    exact ⟨fun _ inside => (List.not_mem_nil inside).elim, ht⟩
  | cons name names ih =>
    rw [lookup] at h
    split at h
    · next inside found =>
      obtain ⟨hname, hinside⟩ := wellFormed_of_entry ht found
      obtain ⟨hnames, he⟩ := ih hinside h
      exact ⟨List.forall_mem_cons.mpr ⟨hname, hnames⟩, he⟩
    · next content found =>
      obtain ⟨hname, -⟩ := wellFormed_of_entry ht found
      split at h
      · next last =>
        cases h
        exact ⟨by simpa [last] using hname, trivial⟩
      · cases h
    · cases h

/-- A path of names goes on where its first part ends. -/
theorem lookup_append (t : Tree) (names below : List String) :
    t.lookup (names ++ below) =
      match t.lookup names with
      | some (.folder inside) => inside.lookup below
      | some (.file content) => if below = [] then some (.file content) else none
      | none => none := by
  induction names generalizing t with
  | nil => rfl
  | cons name names ih =>
    rw [List.cons_append, lookup, lookup]
    cases t.entry? name with
    | none => rfl
    | some e =>
      cases e with
      | folder inside => exact ih inside
      | file content => by_cases last : names = [] <;> simp [last]

theorem not_mem_walk (h : name ∉ t.names) : (name :: names, content) ∉ t.walk := by
  intro met
  obtain ⟨n, hn, below, path⟩ := exists_of_mem_walk met
  exact h ((List.cons.inj path).1 ▸ hn)

theorem mem_walk_cons_of_ne {n : String} (ne : n ≠ name) (e : Entry) (rest : Tree) :
    (name :: names, content) ∈ (cons n e rest).walk ↔ (name :: names, content) ∈ rest.walk := by
  rw [walk_cons, List.mem_append]
  cases e <;> simp [Entry.walk, ne, Ne.symm ne]

/-- What has another name is met and looked up among the later entries. -/
theorem mem_walk_iff_of_ne {n : String} {rest : Tree} (ne : n ≠ name) (e : Entry)
    (h : (name :: names, content) ∈ rest.walk ↔
      rest.lookup (name :: names) = some (.file content)) :
    (name :: names, content) ∈ (cons n e rest).walk ↔
      (cons n e rest).lookup (name :: names) = some (.file content) := by
  have elsewhere : (cons n e rest).lookup (name :: names) = rest.lookup (name :: names) :=
    lookup_congr (by rw [entry_cons, if_neg ne]) names
  rw [mem_walk_cons_of_ne ne, elsewhere, h]

theorem nil_not_mem_walk (t : Tree) : ([], content) ∉ t.walk := by
  intro met
  obtain ⟨n, -, below, path⟩ := exists_of_mem_walk met
  cases path

/-- The files that a walk meets are those that their paths lead to. -/
theorem mem_walk_iff (ht : t.WellFormed) :
    (names, content) ∈ t.walk ↔ t.lookup names = some (.file content) := by
  induction t generalizing names with
  | empty => cases names <;> simp [walk, lookup, Tree.entry?]
  | file n held rest ih =>
    obtain ⟨-, new, hrest⟩ := ht
    cases names with
    | nil => exact iff_of_false (nil_not_mem_walk _) (by simp [lookup])
    | cons name names =>
      by_cases here : n = name
      · subst here
        rw [walk, List.mem_cons]
        simp [not_mem_walk new, lookup, Tree.entry?, eq_comm (a := content)]
      · exact mem_walk_iff_of_ne here (.file held) (ih hrest)
  | folder n inside rest ihInside ih =>
    obtain ⟨-, new, hinside, hrest⟩ := ht
    cases names with
    | nil => exact iff_of_false (nil_not_mem_walk _) (by simp [lookup])
    | cons name names =>
      by_cases here : n = name
      · subst here
        rw [walk, List.mem_append, or_iff_left (not_mem_walk new),
          lookup_cons_folder (by rw [Tree.entry?, if_pos rfl]), ← ihInside hinside]
        simp
      · exact mem_walk_iff_of_ne here (.folder inside) (ih hrest)

end Tree

end ContractSurface
