import ContractSurface.Files.Store
import ContractSurface.Proofs.Files.Path
import ContractSurface.Proofs.Files.Tree

/-! # What file operations leave as it is

A path that can be followed leads to the place that its segments spell. Making a directory changes
no file, and writing a file changes no other one; both keep every directory, so what could be
reached before is reached afterwards.
-/
namespace ContractSurface

namespace FileStore

variable {s t u : FileStore} {p dir name : Path} {place here : Place} {names : List String}

def file? (s : FileStore) (names : List String) : Option ByteArray := s.root.file? names

def HasDirectory (s : FileStore) (names : List String) : Prop := s.root.HasFolder names

/-- Goes on by one segment: a dot stays, two dots go back. -/
def move (names : List String) (segment : String) : List String :=
  if segment = "" ∨ segment = "." then names
  else if segment = ".." then names.dropLast
  else names ++ [segment]

def location (s : FileStore) (p : Path) : List String :=
  p.segments.foldl move (if p.isAbsolute then [] else s.current)

theorem requireDirectory_eq_ok_iff : s.requireDirectory names = .ok () ↔ s.HasDirectory names := by
  rw [requireDirectory, entryAt, HasDirectory, Tree.HasFolder]
  cases s.root.lookup names with
  | none => simp
  | some e => cases e <;> simp

/-- The names at the end of a way depend on its segments alone. -/
theorem follow_names {segments : List String} (h : s.follow here segments = .ok place) :
    place.names = segments.foldl move here.names := by
  induction segments generalizing here with
  | nil =>
    rw [follow] at h
    obtain rfl := Except.ok.inj h
    rfl
  | cons segment rest ih =>
    rw [follow] at h
    rw [List.foldl_cons, move]
    by_cases none : segment = ""
    · rw [if_pos none] at h
      rw [if_pos (Or.inl none), ih h]
    rw [if_neg none] at h
    split at h
    · cases h
    by_cases dot : segment = "."
    · rw [if_pos dot] at h
      rw [if_pos (Or.inr dot), ih h]
    rw [if_neg dot] at h
    rw [if_neg (by simp [none, dot])]
    by_cases up : segment = ".."
    · rw [if_pos up] at h ⊢
      exact ih h
    rw [if_neg up] at h ⊢
    split at h
    · cases h
    · exact ih h

/-- A path that can be followed names no place below a file. -/
theorem resolve_eq_ok_iff : s.resolve p = .ok place ↔
    p ≠ "" ∧ '\x00' ∉ p.toList ∧ p.utf8ByteSize ≤ longestPath ∧
      s.follow ⟨if p.isAbsolute then [] else s.current, true⟩ p.segments = .ok place := by
  rw [resolve]
  by_cases empty : p = ""
  · simp [empty]
  rw [if_neg empty]
  by_cases nul : '\x00' ∈ p.toList
  · simp [nul]
  rw [if_neg (by simpa using nul)]
  by_cases long : p.utf8ByteSize > longestPath
  · simp [long, Nat.not_le.mpr long]
  · simp [empty, nul, Nat.not_lt.mp long, long]

theorem resolve_names (h : s.resolve p = .ok place) : place.names = s.location p :=
  follow_names (resolve_eq_ok_iff.mp h).2.2.2

/-- A way can be gone in two parts. -/
theorem follow_append (xs ys : List String) :
    s.follow here (xs ++ ys) = (s.follow here xs).bind fun p => s.follow p ys := by
  induction xs generalizing here with
  | nil => rfl
  | cons segment xs ih =>
    rw [List.cons_append, follow, follow]
    by_cases none : segment = ""
    · rw [if_pos none, if_pos none, ih]
    rw [if_neg none, if_neg none]
    cases s.requireDirectory here.names with
    | error e => rfl
    | ok =>
      by_cases dot : segment = "."
      · simp only [if_pos dot, ih]
      by_cases up : segment = ".."
      · simp only [if_neg dot, if_pos up, ih]
      by_cases long : segment.utf8ByteSize > longestName
      · simp only [if_neg dot, if_neg up, if_pos long]
        rfl
      · simp only [if_neg dot, if_neg up, if_neg long, ih]

/-- What lies right in a directory is reached through the directory. -/
theorem resolve_below (plain : '/' ∉ name.toList) (named : name ≠ "" ∧ name ≠ "." ∧ name ≠ "..")
    (h : s.resolve (dir ++ "/" ++ name) = .ok place) (ne : dir ≠ "") :
    ∃ up, s.resolve dir = .ok up ∧ s.HasDirectory up.names ∧
      place = ⟨up.names ++ [name], false⟩ := by
  obtain ⟨-, nul, short, way⟩ := resolve_eq_ok_iff.mp h
  have absolute : (dir ++ "/" ++ name).isAbsolute = dir.isAbsolute := by
    rw [Path.isAbsolute_append (by simp), Path.isAbsolute_append ne]
  rw [absolute, Path.segments_below plain, follow_append] at way
  cases up? : s.follow ⟨if dir.isAbsolute then [] else s.current, true⟩ dir.segments with
  | error e =>
    rw [up?] at way
    cases way
  | ok up =>
    rw [up?] at way
    refine ⟨up, resolve_eq_ok_iff.mpr ⟨ne, ?_, ?_, up?⟩, ?_⟩
    · intro inside
      exact nul (by simp [inside])
    · simp only [String.utf8ByteSize_append] at short
      omega
    · change s.follow up [name] = .ok place at way
      rw [follow, if_neg named.1] at way
      split at way
      · cases way
      · next there =>
        rw [if_neg named.2.1, if_neg named.2.2] at way
        split at way
        · cases way
        · rw [follow] at way
          exact ⟨requireDirectory_eq_ok_iff.mp there, (Except.ok.inj way).symm⟩

/-- Every directory stays, and every file outside the given places keeps its content. -/
structure Keeps (exempt : List (List String)) (s t : FileStore) : Prop where
  current : t.current = s.current
  files : ∀ names, names ∉ exempt → t.file? names = s.file? names
  directories : ∀ names, s.HasDirectory names → t.HasDirectory names

theorem Keeps.refl (exempt : List (List String)) (s : FileStore) : Keeps exempt s s :=
  ⟨rfl, fun _ _ => rfl, fun _ h => h⟩

theorem Keeps.trans {before after : List (List String)} (first : Keeps before s t)
    (second : Keeps after t u) : Keeps (before ++ after) s u := by
  constructor
  · rw [second.current, first.current]
  · intro names apart
    rw [List.mem_append, not_or] at apart
    rw [second.files names apart.2, first.files names apart.1]
  · intro names there
    exact second.directories names (first.directories names there)

theorem Keeps.location_eq {exempt : List (List String)} (h : Keeps exempt s t) (p : Path) :
    t.location p = s.location p := by
  rw [location, location, h.current]

/-- What leads to a place still leads to it when all directories stay. -/
theorem Keeps.follow {exempt : List (List String)} (h : Keeps exempt s t) {segments : List String}
    (way : s.follow here segments = .ok place) : t.follow here segments = .ok place := by
  induction segments generalizing here with
  | nil => exact way
  | cons segment rest ih =>
    rw [FileStore.follow] at way ⊢
    by_cases none : segment = ""
    · rw [if_pos none] at way ⊢
      exact ih way
    rw [if_neg none] at way ⊢
    split at way
    · cases way
    · next there =>
      have there' : t.requireDirectory here.names = .ok () :=
        requireDirectory_eq_ok_iff.mpr
          (h.directories here.names (requireDirectory_eq_ok_iff.mp there))
      simp only [there']
      by_cases dot : segment = "."
      · rw [if_pos dot] at way ⊢
        exact ih way
      rw [if_neg dot] at way ⊢
      by_cases up : segment = ".."
      · rw [if_pos up] at way ⊢
        exact ih way
      rw [if_neg up] at way ⊢
      split at way
      · cases way
      · next short =>
        rw [if_neg short]
        exact ih way

theorem Keeps.resolve {exempt : List (List String)} (h : Keeps exempt s t)
    (way : s.resolve p = .ok place) : t.resolve p = .ok place := by
  rw [resolve_eq_ok_iff] at way ⊢
  rw [h.current]
  obtain ⟨ne, nul, short, way⟩ := way
  exact ⟨ne, nul, short, h.follow way⟩

/-- Putting a leaf changes one place at most. -/
theorem keeps_put {e : Entry} (he : e.IsLeaf) (free : ¬s.HasDirectory names) :
    Keeps [names] s (s.put names e) := by
  have kept : ∀ {other}, other ≠ names → (s.root.put e names).glance other = s.root.glance other :=
    fun ne => Tree.glance_put he free ne
  constructor
  · rfl
  · intro other apart
    rw [List.mem_singleton] at apart
    rw [file?, file?, put, Tree.file?_eq_join_glance, Tree.file?_eq_join_glance, kept apart]
  · intro other there
    have apart : other ≠ names := fun same => free (same ▸ there)
    rw [HasDirectory, Tree.hasFolder_iff] at there ⊢
    rw [put, kept apart, there]

theorem createDirectory_keeps (h : s.createDirectory p = .ok t) : Keeps [] s t := by
  rw [createDirectory] at h
  cases way : s.resolve p with
  | error e =>
    rw [way] at h
    cases h
  | ok place =>
    rw [way] at h
    cases found : s.entryAt place.names with
    | some e =>
      simp only [bind, Except.bind, found] at h
      cases h
    | none =>
      simp only [bind, Except.bind, found] at h
      obtain rfl := Except.ok.inj h
      have free : ¬s.HasDirectory place.names := by
        rintro ⟨inside, there⟩
        rw [entryAt] at found
        rw [found] at there
        cases there
      have step := keeps_put (e := .folder .empty) rfl free
      refine ⟨rfl, fun names _ => ?_, step.directories⟩
      by_cases same : names = place.names
      · rw [same, file?, file?, put, Tree.file?_put_folder found]
      · exact step.files names (by simpa using same)

theorem ensureDirectory_keeps (h : s.ensureDirectory p = .ok t) : Keeps [] s t := by
  rw [ensureDirectory] at h
  split at h
  · next made created =>
    obtain rfl := Except.ok.inj h
    exact createDirectory_keeps created
  · split at h
    · obtain rfl := Except.ok.inj h
      exact Keeps.refl [] s
    · cases h

/-- Whether or not the directories could all be made, no file has changed. -/
theorem createDirectoriesFrom_keeps {steps : Nat} {r : Except FileError Unit}
    (h : createDirectoriesFrom steps s p = (r, t)) : Keeps [] s t := by
  induction steps generalizing s t p r with
  | zero =>
    obtain rfl := (Prod.mk.inj h).2
    exact Keeps.refl [] s
  | succ steps ih =>
    rw [createDirectoriesFrom] at h
    split at h
    · obtain rfl := (Prod.mk.inj h).2
      exact Keeps.refl [] s
    split at h
    · next made ensured =>
      obtain rfl := (Prod.mk.inj h).2
      exact ensureDirectory_keeps ensured
    · split at h
      · obtain rfl := (Prod.mk.inj h).2
        exact Keeps.refl [] s
      · next up _ =>
        split at h
        · next e failed above =>
          obtain rfl := (Prod.mk.inj h).2
          exact ih above
        · next between above =>
          have first := ih above
          split at h
          · next made ensured =>
            obtain rfl := (Prod.mk.inj h).2
            exact first.trans (ensureDirectory_keeps ensured)
          · obtain rfl := (Prod.mk.inj h).2
            exact first
    · obtain rfl := (Prod.mk.inj h).2
      exact Keeps.refl [] s

theorem createDirectories_keeps {r : Except FileError Unit}
    (h : s.createDirectories p = (r, t)) : Keeps [] s t := by
  rw [createDirectories] at h
  exact createDirectoriesFrom_keeps h

/-- Making a directory that is there changes nothing. -/
theorem createDirectories_of_directory (way : s.resolve p = .ok place)
    (there : s.HasDirectory place.names) : s.createDirectories p = (.ok (), s) := by
  obtain ⟨inside, there⟩ := there
  have found : s.entryAt place.names = some (.folder inside) := there
  have ne : p ≠ "" := (resolve_eq_ok_iff.mp way).1
  have present : s.createDirectory p = .error .exists := by
    simp only [createDirectory, way, bind, Except.bind, found]
  have isThere : s.isDirectory p = true := by
    simp only [isDirectory, find, way, bind, Except.bind, found]
  have ensured : s.ensureDirectory p = .ok s := by
    simp only [ensureDirectory, present, isThere, if_true]
  rw [createDirectories, createDirectoriesFrom, if_neg ne]
  simp only [ensured]

/-- Writing puts the content at the end of the path. A device takes it and stays as it is. -/
theorem exists_of_writeBytes {content : ByteArray} (h : s.writeBytes p content = .ok t) :
    ∃ place, s.resolve p = .ok place ∧ ¬s.HasDirectory place.names ∧
      (t = s.put place.names (.file content) ∨ isDevice place.names = true ∧ t = s) := by
  rw [writeBytes] at h
  cases way : s.resolve p with
  | error e =>
    rw [way] at h
    cases h
  | ok place =>
    rw [way] at h
    refine ⟨place, rfl, ?_⟩
    rw [HasDirectory, Tree.HasFolder]
    cases found : s.root.lookup place.names with
    | none =>
      simp only [bind, Except.bind, entryAt, found] at h
      split at h
      · cases h
      · exact ⟨by simp, .inl (Except.ok.inj h).symm⟩
    | some e =>
      simp only [bind, Except.bind, entryAt, found] at h
      cases e with
      | folder inside => cases h
      | file before =>
        refine ⟨by simp, ?_⟩
        dsimp only at h
        split at h
        · cases h
        · split at h
          next device => exact .inr ⟨device, (Except.ok.inj h).symm⟩
          next => exact .inl (Except.ok.inj h).symm

/-- A file that was written in a directory: it holds what was written, and no other has changed. -/
theorem writeBytes_below {content : ByteArray} (plain : '/' ∉ name.toList)
    (named : name ≠ "" ∧ name ≠ "." ∧ name ≠ "..") (ne : dir ≠ "")
    (real : isDevice (s.location (dir ++ "/" ++ name)) = false)
    (h : s.writeBytes (dir ++ "/" ++ name) content = .ok t) :
    (∃ up, s.resolve dir = .ok up ∧ s.HasDirectory up.names) ∧
      s.resolve (dir ++ "/" ++ name) = .ok ⟨s.location (dir ++ "/" ++ name), false⟩ ∧
      s.Keeps [s.location (dir ++ "/" ++ name)] t ∧
      t.file? (s.location (dir ++ "/" ++ name)) = some content := by
  obtain ⟨place, way, free, changed⟩ := exists_of_writeBytes h
  obtain ⟨up, above, there, split⟩ := resolve_below plain named way ne
  have names := resolve_names way
  rw [← names] at real ⊢
  obtain rfl | ⟨device, -⟩ := changed
  case inr =>
    rw [real] at device
    cases device
  subst split
  refine ⟨⟨up, above, there⟩, way, keeps_put trivial free, ?_⟩
  rw [file?, put, Tree.file?, Tree.lookup_put there]
  rfl

theorem lookup_of_file? {content : ByteArray} (held : s.file? names = some content) :
    s.root.lookup names = some (.file content) := by
  rw [file?, Tree.file?] at held
  cases there : s.root.lookup names with
  | none =>
    rw [there] at held
    cases held
  | some e =>
    rw [there] at held
    cases e with
    | folder inside => cases held
    | file before => rw [Option.some.inj held]

theorem readBytes_of_file? {content : ByteArray} (way : s.resolve p = .ok place)
    (plain : place.asDirectory = false) (held : s.file? place.names = some content) :
    s.readBytes p = .ok content := by
  have found := lookup_of_file? held
  simp only [readBytes, find, way, bind, Except.bind, entryAt, found, plain, Bool.false_eq_true,
    if_false]

/-- Writing the content that a file has leaves everything as it is. -/
theorem writeBytes_again {content : ByteArray} (way : s.resolve p = .ok place)
    (plain : place.asDirectory = false) (held : s.file? place.names = some content) :
    s.writeBytes p content = .ok s := by
  have found := lookup_of_file? held
  have same : s.put place.names (.file content) = s := by
    rw [put, Tree.put_of_lookup found]
  simp only [writeBytes, way, bind, Except.bind, entryAt, found, plain, Bool.false_eq_true,
    if_false, same, ite_self]

end FileStore

end ContractSurface
