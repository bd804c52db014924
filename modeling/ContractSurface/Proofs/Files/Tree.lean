import ContractSurface.Files.Tree

/-! # What a change of a tree leaves as it is

A leaf that is put where no directory stands changes what lies at that place and nothing else: every
other file keeps its content, and every directory stays.
-/
namespace ContractSurface

def Entry.IsLeaf : Entry → Prop
  | .file _ => True
  | .folder inside => inside = .empty

def Entry.content? : Entry → Option ByteArray
  | .file content => some content
  | .folder _ => none

namespace Tree

variable {t : Tree} {e : Entry} {name : String} {names other : List String}

/-- What stands at the end of a path of names: nothing, a directory, or a file with its content. -/
def glance (t : Tree) (names : List String) : Option (Option ByteArray) :=
  (t.lookup names).map Entry.content?

def file? (t : Tree) (names : List String) : Option ByteArray :=
  (t.lookup names).bind Entry.content?

def HasFolder (t : Tree) (names : List String) : Prop :=
  ∃ inside, t.lookup names = some (.folder inside)

theorem file?_eq_join_glance (t : Tree) (names : List String) :
    t.file? names = (t.glance names).join := by
  rw [file?, glance]
  cases t.lookup names <;> rfl

theorem hasFolder_iff : t.HasFolder names ↔ t.glance names = some none := by
  rw [HasFolder, glance]
  cases t.lookup names with
  | none => simp
  | some e => cases e <;> simp [Entry.content?]

/-- A first entry is treated alike whether it is a file or a directory. -/
theorem induction_cons {motive : Tree → Prop} (empty : motive .empty)
    (cons : ∀ name e rest, motive rest → motive (.cons name e rest)) (t : Tree) : motive t := by
  induction t with
  | empty => exact empty
  | file name content rest ih => exact cons name (.file content) rest ih
  | folder name inside rest _ ih => exact cons name (.folder inside) rest ih

theorem entry_cons (name other : String) (e : Entry) (rest : Tree) :
    entry? other (cons name e rest) = if name = other then some e else rest.entry? other := by
  cases e <;> rfl

theorem set_cons (n name : String) (first e : Entry) (rest : Tree) :
    (cons n first rest).set name e =
      if n = name then cons name e rest else cons n first (rest.set name e) := by
  cases first <;> rfl

/-- Setting a name changes the entry of this name alone. -/
theorem entry_set (name other : String) (e : Entry) (t : Tree) :
    entry? other (t.set name e) = if name = other then some e else t.entry? other := by
  induction t using induction_cons with
  | empty => rw [set, entry_cons]
  | cons n first rest ih =>
    rw [set_cons, entry_cons]
    by_cases here : n = name
    · subst here
      rw [if_pos rfl, entry_cons]
      split <;> rfl
    · rw [if_neg here, entry_cons, ih]
      by_cases found : n = other
      · have apart : name ≠ other := fun same => here (found.trans same.symm)
        rw [if_pos found, if_pos found, if_neg apart]
      · rw [if_neg found, if_neg found]

theorem set_of_entry (h : t.entry? name = some e) : t.set name e = t := by
  induction t using induction_cons with
  | empty => cases h
  | cons n first rest ih =>
    rw [entry_cons] at h
    rw [set_cons]
    by_cases here : n = name
    · rw [if_pos here] at h ⊢
      rw [← Option.some.inj h, here]
    · rw [if_neg here] at h ⊢
      rw [ih h]

theorem lookup_cons_folder {inside : Tree} (h : t.entry? name = some (.folder inside))
    (names : List String) : t.lookup (name :: names) = inside.lookup names := by
  rw [lookup, h]

theorem lookup_cons_leaf (he : e.IsLeaf) (h : t.entry? name = some e) (ne : names ≠ []) :
    t.lookup (name :: names) = none := by
  rw [lookup, h]
  cases e with
  | file content => exact if_neg ne
  | folder inside =>
    obtain rfl : inside = .empty := he
    cases names with
    | nil => exact absurd rfl ne
    | cons n names => rfl

theorem lookup_congr {u : Tree} (h : t.entry? name = u.entry? name) (names : List String) :
    t.lookup (name :: names) = u.lookup (name :: names) := by
  rw [lookup, lookup, h]

theorem lookup_singleton (t : Tree) (name : String) : t.lookup [name] = t.entry? name := by
  rw [lookup]
  cases t.entry? name with
  | none => rfl
  | some e => cases e <;> rfl

/-- Nothing lies below a place where no directory stands. -/
theorem lookup_below_none (free : ¬t.HasFolder [name]) (ne : names ≠ []) :
    t.lookup (name :: names) = none := by
  cases found : t.entry? name with
  | none => rw [lookup, found]
  | some e =>
    cases e with
    | file content => exact lookup_cons_leaf (e := .file content) trivial found ne
    | folder inside => exact absurd ⟨inside, (lookup_singleton t name).trans found⟩ free

theorem put_cons_folder {inside : Tree} (h : t.entry? name = some (.folder inside))
    (ne : names ≠ []) (e : Entry) :
    t.put e (name :: names) = t.set name (.folder (inside.put e names)) := by
  cases names with
  | nil => exact absurd rfl ne
  | cons next names => rw [put, h]

theorem put_cons_of_not_folder (h : ¬t.HasFolder [name]) (ne : names ≠ []) (e : Entry) :
    t.put e (name :: names) = t := by
  cases names with
  | nil => exact absurd rfl ne
  | cons next names =>
    rw [put]
    split
    · next inside found => exact absurd ⟨inside, (lookup_singleton t name).trans found⟩ h
    · rfl

theorem glance_set_leaf (he : e.IsLeaf) (free : ¬t.HasFolder [name]) (ne : other ≠ [name]) :
    (t.set name e).glance other = t.glance other := by
  cases other with
  | nil => rfl
  | cons n below =>
    by_cases same : n = name
    · subst same
      have more : below ≠ [] := fun none => ne (none ▸ rfl)
      have put : entry? n (t.set n e) = some e := by rw [entry_set, if_pos rfl]
      rw [glance, glance, lookup_cons_leaf he put more, lookup_below_none free more]
    · have kept : entry? n (t.set name e) = t.entry? n := by
        rw [entry_set, if_neg (Ne.symm same)]
      rw [glance, glance, lookup_congr kept]

/-- A leaf put where no directory stands is seen from its own place only. -/
theorem glance_put (he : e.IsLeaf) (free : ¬t.HasFolder names) (ne : other ≠ names) :
    (t.put e names).glance other = t.glance other := by
  induction names generalizing t other with
  | nil => rfl
  | cons name names ih =>
    by_cases last : names = []
    · subst last
      exact glance_set_leaf he free ne
    by_cases way : t.HasFolder [name]
    · obtain ⟨inside, found⟩ := way
      rw [lookup_singleton] at found
      rw [put_cons_folder found last]
      cases other with
      | nil => rfl
      | cons n below =>
        by_cases same : n = name
        · subst same
          have put : entry? n (t.set n (.folder (inside.put e names))) =
              some (.folder (inside.put e names)) := by rw [entry_set, if_pos rfl]
          have free' : ¬inside.HasFolder names := by
            rwa [HasFolder, lookup_cons_folder found] at free
          have ne' : below ≠ names := fun same => ne (same ▸ rfl)
          have kept := ih free' ne'
          rw [glance, glance] at kept ⊢
          rw [lookup_cons_folder put, lookup_cons_folder found, kept]
        · have kept : entry? n (t.set name (.folder (inside.put e names))) = t.entry? n := by
            rw [entry_set, if_neg (Ne.symm same)]
          rw [glance, glance, lookup_congr kept]
    · rw [put_cons_of_not_folder way last]

/-- A leaf put right into a directory stands there afterwards. -/
theorem lookup_put {dir : List String} (there : t.HasFolder dir) :
    (t.put e (dir ++ [name])).lookup (dir ++ [name]) = some e := by
  induction dir generalizing t with
  | nil => rw [List.nil_append, put, lookup_singleton, entry_set, if_pos rfl]
  | cons n dir ih =>
    obtain ⟨inside, found⟩ := there
    have way : ∃ below, t.entry? n = some (.folder below) := by
      rw [lookup] at found
      split at found
      · next below h => exact ⟨below, h⟩
      · next content h => split at found <;> cases found
      · cases found
    obtain ⟨below, way⟩ := way
    rw [lookup_cons_folder way] at found
    have put : entry? n (t.set n (.folder (below.put e (dir ++ [name])))) =
        some (.folder (below.put e (dir ++ [name]))) := by rw [entry_set, if_pos rfl]
    rw [List.cons_append, put_cons_folder way (by simp), lookup_cons_folder put]
    exact ih ⟨inside, found⟩

/-- A new directory holds no bytes, also where it could not be put. -/
theorem file?_put_folder {inside : Tree} (h : t.lookup names = none) :
    (t.put (.folder inside) names).file? names = t.file? names := by
  have before : t.file? names = none := by
    rw [file?, h]
    rfl
  rw [before]
  clear before
  induction names generalizing t with
  | nil => cases h
  | cons name names ih =>
    by_cases last : names = []
    · subst last
      rw [put, file?, lookup_singleton, entry_set, if_pos rfl]
      rfl
    by_cases way : t.HasFolder [name]
    · obtain ⟨below, found⟩ := way
      rw [lookup_singleton] at found
      rw [lookup_cons_folder found] at h
      have there : entry? name (t.set name (.folder (below.put (.folder inside) names))) =
          some (.folder (below.put (.folder inside) names)) := by rw [entry_set, if_pos rfl]
      rw [put_cons_folder found last, file?, lookup_cons_folder there]
      exact ih h
    · rw [put_cons_of_not_folder way last, file?, h]
      rfl

/-- Putting a file over one with the same content changes nothing. -/
theorem put_of_lookup {content : ByteArray} (h : t.lookup names = some (.file content)) :
    t.put (.file content) names = t := by
  induction names generalizing t with
  | nil => rfl
  | cons name names ih =>
    by_cases last : names = []
    · subst last
      rw [lookup_singleton] at h
      exact set_of_entry h
    by_cases way : t.HasFolder [name]
    · obtain ⟨inside, found⟩ := way
      rw [lookup_singleton] at found
      rw [lookup_cons_folder found] at h
      rw [put_cons_folder found last, ih h, set_of_entry found]
    · exact put_cons_of_not_folder way last _

end Tree

end ContractSurface
