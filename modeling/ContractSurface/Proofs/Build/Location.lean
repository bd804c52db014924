import ContractSurface.Build.Pipeline
import ContractSurface.Proofs.Files.Store
import ContractSurface.Proofs.Files.Walk
import ContractSurface.Proofs.Text.ByteOrder

/-! # Which source is located

Without a configured source a build takes the first contract source that a walk through the contract
directory meets. Since the walk goes by the order of paths, that source is the least one at any
depth, and none is found only where there is none. Paths are compared name by name, so a directory
`a` with all that lies in it comes before a file `a.compact` next to it.
-/
namespace ContractSurface

/-- Paths have the order of their components, and those have the order of their bytes. -/
def Path.Precedes (p q : Path) : Prop :=
  p.components.map Text.utf8 < q.components.map Text.utf8

/-- A regular file stands at the end of the names below a path, or at the path if there are none. -/
def FileStore.HoldsFile (s : FileStore) (dir : Path) (names : List String) : Prop :=
  ∃ place content, s.resolve dir = .ok place ∧
    s.entryAt (place.names ++ names) = some (.file content) ∧
    isDevice (place.names ++ names) = false ∧ (names = [] → place.asDirectory = false)

structure SourceAt (s : FileStore) (dir : Path) (names : List String) (p : Path) : Prop where
  file : s.HoldsFile dir names
  path : p = pathBelow dir names
  extension : isContractSource p

/-- The directory in which the names end has a path that is short enough to be opened. -/
def InReach (dir : Path) (names : List String) : Prop :=
  (pathBelow dir names.dropLast).utf8ByteSize ≤ FileStore.longestPath

instance (dir : Path) (names : List String) : Decidable (InReach dir names) :=
  Nat.decLe _ _

def SourceBelow (s : FileStore) (dir p : Path) : Prop := ∃ names, SourceAt s dir names p

def SourceInReach (s : FileStore) (dir p : Path) : Prop :=
  ∃ names, InReach dir names ∧ SourceAt s dir names p

/-- The result is the first of the candidates, and an error where there are none. -/
structure LocatesFirst (candidate : Path → Prop) (dir : Path) (r : Except PipelineError Path) :
    Prop where
  found : ∀ p, r = .ok p ↔ candidate p ∧ ∀ q, candidate q → q ≠ p → p.Precedes q
  missing : r = .error (.sourceNotFound dir) ↔ ∀ p, ¬candidate p

variable {s : FileStore} {dir p q : Path} {names below : List String} {candidate : Path → Prop}
  {place : Place} {inside : Tree} {b : BuildSettings}

theorem Path.Precedes.asymm (h : p.Precedes q) : ¬q.Precedes p := List.lt_asymm h

theorem locatesFirst_ok (hp : candidate p) (least : ∀ q, candidate q → q ≠ p → p.Precedes q) :
    LocatesFirst candidate dir (.ok p) := by
  constructor
  · intro q
    constructor
    · intro same
      cases same
      exact ⟨hp, least⟩
    · rintro ⟨hq, leastq⟩
      by_contra apart
      have ne : q ≠ p := fun same => apart (by rw [same])
      exact (least q hq ne).asymm (leastq p hp ne.symm)
  · exact iff_of_false nofun fun none => none p hp

theorem locatesFirst_error (none : ∀ p, ¬candidate p) :
    LocatesFirst candidate dir (.error (.sourceNotFound dir)) :=
  ⟨fun p => iff_of_false nofun fun found => none p found.1, iff_of_true rfl none⟩

theorem pathBelow_concat (dir : Path) (names : List String) (name : String) :
    pathBelow dir (names ++ [name]) = (pathBelow dir names).join name := by
  simp [pathBelow]

theorem components_pathBelow (h : ∀ name ∈ names, IsName name) (dir : Path) :
    (pathBelow dir names).components = dir.components ++ names := by
  induction names generalizing dir with
  | nil => rw [pathBelow, List.foldl_nil, List.append_nil]
  | cons name names ih =>
    obtain ⟨hname, hnames⟩ := List.forall_mem_cons.mp h
    have rest := ih hnames (dir.join name)
    rw [pathBelow] at rest
    rw [pathBelow, List.foldl_cons, rest, Path.components_join hname, List.append_assoc,
      List.singleton_append]

theorem precedes_pathBelow (hnames : ∀ name ∈ names, IsName name)
    (hbelow : ∀ name ∈ below, IsName name) (h : names < below) (dir : Path) :
    (pathBelow dir names).Precedes (pathBelow dir below) := by
  rw [Path.Precedes, components_pathBelow hnames, components_pathBelow hbelow, List.map_append,
    List.map_append]
  exact List.append_left_lt (List.map_lt (fun _ _ => Text.utf8_lt_utf8) h)

def IsSourceNames (names : List String) : Prop :=
  (names.getLast?).bind Path.extensionOfName? = some sourceExtension

theorem isContractSource_pathBelow (h : ∀ name ∈ names, IsName name) (ne : names ≠ [])
    (dir : Path) : isContractSource (pathBelow dir names) ↔ IsSourceNames names := by
  obtain ⟨above, name, rfl⟩ := (List.eq_nil_or_concat' names).resolve_left ne
  have hname : IsName name := h name (by simp)
  rw [isContractSource, Path.extension?, pathBelow_concat, Path.fileName?_join hname,
    IsSourceNames, List.getLast?_concat, beq_iff_eq]

/-- What counts as a file is a regular one at the end of the path. -/
theorem isFile_iff : s.isFile p ↔ s.HoldsFile p [] := by
  rw [FileStore.isFile, FileStore.HoldsFile, FileStore.find]
  cases way : s.resolve p with
  | error e => simp
  | ok place =>
    cases found : s.entryAt place.names with
    | none => simp [bind, Except.bind, found]
    | some e =>
      cases e with
      | folder inside => simp [bind, Except.bind, found]
      | file content =>
        cases marked : place.asDirectory <;> simp [bind, Except.bind, found, marked]

theorem entryAt_of_find (way : s.resolve dir = .ok place)
    (there : s.find dir = .ok (.folder inside)) :
    s.entryAt place.names = some (.folder inside) := by
  simp only [FileStore.find, way, bind, Except.bind] at there
  split at there
  · cases there
  · split at there <;> cases there
  · next found =>
    cases there
    exact found

theorem holdsFile_iff_of_folder (way : s.resolve dir = .ok place)
    (there : s.find dir = .ok (.folder inside)) :
    s.HoldsFile dir names ↔ FileStore.isDevice (place.names ++ names) = false ∧
      ∃ content, inside.lookup names = some (.file content) := by
  have entry : s.entryAt (place.names ++ names) = inside.lookup names := by
    have here := entryAt_of_find way there
    rw [FileStore.entryAt] at here ⊢
    rw [Tree.lookup_append, here]
  constructor
  · rintro ⟨place', content, way', found, real, -⟩
    obtain rfl : place = place' := Except.ok.inj (way.symm.trans way')
    exact ⟨real, content, entry ▸ found⟩
  · rintro ⟨real, content, found⟩
    refine ⟨place, content, way, entry.trans found, real, ?_⟩
    rintro rfl
    cases found

/-- Nothing lies below what is no directory. -/
theorem eq_nil_of_holdsFile (none : ∀ inside, s.find dir ≠ .ok (.folder inside))
    (h : s.HoldsFile dir names) : names = [] := by
  obtain ⟨place, content, way, found, -⟩ := h
  rw [FileStore.entryAt, Tree.lookup_append] at found
  split at found
  · next inside here =>
    refine absurd ?_ (none inside)
    simp only [FileStore.find, way, bind, Except.bind, FileStore.entryAt, here]
  · by_contra ne
    rw [if_neg ne] at found
    cases found
  · cases found

theorem mem_metFiles_iff {files : List (List String × ByteArray)} {f : List String × ByteArray}
    {here : List String} : f ∈ metFiles dir here files ↔
      f ∈ files ∧ FileStore.isDevice (here ++ f.1) = false ∧ InReach dir f.1 := by
  simp [metFiles, InReach]

theorem firstSource?_eq_none_iff {files : List (List String × ByteArray)} :
    firstSource? files = none ↔ ∀ f ∈ files, ¬IsSourceNames f.1 := by
  simp [firstSource?, IsSourceNames]

/-- The first contract source of an ascending walk is the least of them. -/
theorem firstSource?_least {files : List (List String × ByteArray)}
    (ascending : files.Pairwise fun f g => f.1 < g.1) (found : firstSource? files = some names) :
    IsSourceNames names ∧ names ∈ files.map (·.1) ∧
      ∀ below ∈ files.map (·.1), IsSourceNames below → below ≠ names → names < below := by
  rw [firstSource?, List.find?_eq_some_iff_append] at found
  obtain ⟨named, before, after, whole, earlier⟩ := found
  have ascending : (before ++ names :: after).Pairwise (· < ·) :=
    whole ▸ List.pairwise_map.mpr ascending
  rw [whole]
  refine ⟨by simpa [IsSourceNames] using named, by simp, ?_⟩
  intro below met source ne
  rcases List.mem_append.mp met with first | later
  · exact absurd source (by simpa [IsSourceNames] using earlier below first)
  · have behind := (List.mem_cons.mp later).resolve_left ne
    exact List.rel_of_pairwise_cons (List.pairwise_append.mp ascending).2.1 behind

/-- A walk meets the regular files in the directories whose paths are short enough. -/
theorem mem_metFiles_walk_iff (formed : inside.WellFormed) (way : s.resolve dir = .ok place)
    (there : s.find dir = .ok (.folder inside)) :
    names ∈ (metFiles dir place.names inside.sorted.walk).map (·.1) ↔
      InReach dir names ∧ s.HoldsFile dir names := by
  have met {names : List String} (content : ByteArray) :
      (names, content) ∈ inside.sorted.walk ↔ inside.lookup names = some (.file content) :=
    (Tree.walk_sorted inside).mem_iff.trans (Tree.mem_walk_iff formed)
  rw [List.mem_map, holdsFile_iff_of_folder way there]
  constructor
  · rintro ⟨⟨names, content⟩, hf, rfl⟩
    obtain ⟨walked, real, near⟩ := mem_metFiles_iff.mp hf
    exact ⟨near, real, content, (met content).mp walked⟩
  · rintro ⟨near, real, content, found⟩
    exact ⟨(names, content), mem_metFiles_iff.mpr ⟨(met content).mpr found, real, near⟩, rfl⟩

theorem names_of_holdsFile (formed : inside.WellFormed) (way : s.resolve dir = .ok place)
    (there : s.find dir = .ok (.folder inside)) (held : s.HoldsFile dir names) :
    names ≠ [] ∧ ∀ name ∈ names, IsName name := by
  obtain ⟨-, content, found⟩ := (holdsFile_iff_of_folder way there).mp held
  refine ⟨?_, (Tree.wellFormed_of_lookup formed found).1⟩
  rintro rfl
  cases found

/-- The first source that a walk meets is the least one within reach. -/
theorem locatesFirst_of_folder (h : s.root.WellFormed) (unset : b.source = none)
    (way : s.resolve b.contractDir = .ok place)
    (there : s.find b.contractDir = .ok (.folder inside)) :
    LocatesFirst (SourceInReach s b.contractDir) b.contractDir (locateSource b s) := by
  have formed : inside.WellFormed :=
    (Tree.wellFormed_of_lookup h (entryAt_of_find way there)).2
  have ascending : (metFiles b.contractDir place.names inside.sorted.walk).Pairwise
      fun f g => f.1 < g.1 := (Tree.pairwise_walk (Tree.ordered_sorted formed)).filter _
  have named {names : List String} (held : s.HoldsFile b.contractDir names) :
      isContractSource (pathBelow b.contractDir names) ↔ IsSourceNames names := by
    obtain ⟨ne, valid⟩ := names_of_holdsFile formed way there held
    exact isContractSource_pathBelow valid ne _
  rw [locateSource]
  simp only [unset, way, there]
  cases first : firstSource? (metFiles b.contractDir place.names inside.sorted.walk) with
  | none =>
    refine locatesFirst_error ?_
    rintro p ⟨names, near, held, rfl, source⟩
    obtain ⟨f, hf, same⟩ := List.mem_map.mp
      ((mem_metFiles_walk_iff formed way there).mpr ⟨near, held⟩)
    exact firstSource?_eq_none_iff.mp first f hf (same ▸ (named held).mp source)
  | some names =>
    obtain ⟨source, met, least⟩ := firstSource?_least ascending first
    obtain ⟨near, held⟩ := (mem_metFiles_walk_iff formed way there).mp met
    refine locatesFirst_ok ⟨names, near, held, rfl, (named held).mpr source⟩ ?_
    rintro q ⟨below, near', held', rfl, source'⟩ apart
    have ne : below ≠ names := fun same => apart (by rw [same])
    have before := least below ((mem_metFiles_walk_iff formed way there).mpr ⟨near', held'⟩)
      ((named held').mp source') ne
    exact precedes_pathBelow (names_of_holdsFile formed way there held).2
      (names_of_holdsFile formed way there held').2 before _

theorem inReach_of_holdsFile (h : s.HoldsFile dir []) : InReach dir [] := by
  obtain ⟨place, -, way, -⟩ := h
  exact (FileStore.resolve_eq_ok_iff.mp way).2.2.1

/-- What is no directory is itself the only candidate. -/
theorem locatesFirst_of_not_folder (unset : b.source = none)
    (none : ∀ inside, s.find b.contractDir ≠ .ok (.folder inside)) :
    LocatesFirst (SourceInReach s b.contractDir) b.contractDir (locateSource b s) := by
  have result : locateSource b s =
      if s.isFile b.contractDir && isContractSource b.contractDir then .ok b.contractDir
      else .error (.sourceNotFound b.contractDir) := by
    rw [locateSource]
    simp only [unset]
    split
    · next there => exact absurd there (none _)
    · rfl
  rw [result]
  split
  · next both =>
    rw [Bool.and_eq_true, isFile_iff] at both
    refine locatesFirst_ok ⟨[], inReach_of_holdsFile both.1, both.1, rfl, both.2⟩ ?_
    rintro q ⟨names, -, held, rfl, -⟩ apart
    obtain rfl := eq_nil_of_holdsFile none held
    exact absurd rfl apart
  · next neither =>
    refine locatesFirst_error ?_
    rintro p ⟨names, -, held, rfl, source⟩
    obtain rfl := eq_nil_of_holdsFile none held
    rw [Bool.and_eq_true, isFile_iff] at neither
    exact neither ⟨held, source⟩

/-- Without a configured source the first one in reach is taken. -/
theorem locatesFirst_of_unset (h : s.root.WellFormed) (unset : b.source = none) :
    LocatesFirst (SourceInReach s b.contractDir) b.contractDir (locateSource b s) := by
  by_cases folder : ∃ inside, s.find b.contractDir = .ok (.folder inside)
  · obtain ⟨inside, there⟩ := folder
    cases way : s.resolve b.contractDir with
    | ok place => exact locatesFirst_of_folder h unset way there
    | error e =>
      rw [FileStore.find, way] at there
      cases there
  · exact locatesFirst_of_not_folder unset (not_exists.mp folder)

/-- If every directory that holds a file can be opened, no source is out of reach. -/
theorem sourceInReach_eq (opened : ∀ names, s.HoldsFile dir names → InReach dir names) :
    SourceInReach s dir = SourceBelow s dir := by
  funext p
  exact propext (exists_congr fun names =>
    and_iff_right_of_imp fun source => opened names source.file)

/-- The configured source is located if it is a file. Without one the least of the sources that the
walk can reach is located; if it can open every directory, that is the least of all. -/
theorem locateSource_first (b : BuildSettings) (s : FileStore) (h : s.root.WellFormed) :
    (∀ path, b.source = some path →
      (s.HoldsFile path [] → locateSource b s = .ok path) ∧
      (¬s.HoldsFile path [] → locateSource b s = .error (.sourceNotFound path))) ∧
    (b.source = none →
      LocatesFirst (SourceInReach s b.contractDir) b.contractDir (locateSource b s) ∧
      ((∀ names, s.HoldsFile b.contractDir names → InReach b.contractDir names) →
        LocatesFirst (SourceBelow s b.contractDir) b.contractDir (locateSource b s))) := by
  constructor
  · intro path set
    rw [← isFile_iff, locateSource, set]
    exact ⟨fun file => if_pos file, fun missing => if_neg missing⟩
  · intro unset
    have reached := locatesFirst_of_unset h unset
    exact ⟨reached, fun opened => sourceInReach_eq opened ▸ reached⟩

/-- A directory comes before what is next to it and has a longer name that begins like its name,
so the source in it is located. -/
theorem nested_source_located :
    let s : FileStore := ⟨.folder "contract" (.file "a.compact" .empty (.folder "x.compact" .empty
      (.folder "a" (.file "z.compact" .empty .empty) .empty))) .empty, []⟩
    let dir := BuildSettings.standard.contractDir
    s.root.WellFormed ∧ BuildSettings.standard.source = none ∧
      (∀ names, s.HoldsFile dir names → InReach dir names) ∧
      LocatesFirst (SourceBelow s dir) dir (locateSource .standard s) ∧
      locateSource .standard s = .ok "contract/a/z.compact" := by
  intro s dir
  have formed : s.root.WellFormed := by decide
  have opened : ∀ names, s.HoldsFile dir names → InReach dir names := by
    rintro names ⟨place, content, way, found, -⟩
    have here : s.resolve dir = .ok ⟨["contract"], false⟩ := by decide +kernel
    obtain rfl := Except.ok.inj (here.symm.trans way)
    have either : names = ["a.compact"] ∧ content = .empty ∨
        names = ["a", "z.compact"] ∧ content = .empty := by
      simpa [s, Tree.walk] using (Tree.mem_walk_iff formed).mpr found
    rcases either with ⟨rfl, -⟩ | ⟨rfl, -⟩ <;> decide
  have located := (locateSource_first .standard s formed).2 rfl
  exact ⟨formed, rfl, opened, located.2 opened, by decide +kernel⟩

end ContractSurface
