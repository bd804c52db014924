import ContractSurface.Proofs.Build.Writing
import ContractSurface.Proofs.Files.Store

/-! # What an emission leaves behind

The two modules lie right in one directory below the output directory. Making it changes no file,
and once the first module is written it is there for the second one.
-/
namespace ContractSurface
open TypeScript

def sourceDirectory (out : Path) : Path := Path.join out "src"

variable {out : Path} {s t : FileStore} {a : Artifact} {as : List Artifact} {name : String}

theorem sourceDirectory_cases (out : Path) :
    sourceDirectory out = "src" ∨ ∃ dir, sourceDirectory out = dir ++ "/" ++ "src" := by
  have relative : Path.isAbsolute "src" = false := rfl
  exact (Path.join_name relative out).imp And.right fun ⟨dir, _, whole⟩ => ⟨dir, whole⟩

theorem sourceDirectory_endsPlainly (out : Path) : (sourceDirectory out).EndsPlainly := by
  have src : Path.EndsPlainly "src" := ⟨'c', ['r', 's'], by decide⟩
  rcases sourceDirectory_cases out with whole | ⟨dir, whole⟩
  · rwa [whole]
  · rw [whole]
    exact src.append _

theorem sourceDirectory_ne (out : Path) : sourceDirectory out ≠ "" := by
  obtain ⟨c, cs, reversed, -⟩ := sourceDirectory_endsPlainly out
  intro none
  rw [none] at reversed
  cases reversed

theorem exists_location_sourceDirectory (s : FileStore) (out : Path) :
    ∃ above, s.location (sourceDirectory out) = above ++ ["src"] := by
  rcases sourceDirectory_cases out with whole | ⟨dir, whole⟩
  · refine ⟨if Path.isAbsolute "src" then [] else s.current, ?_⟩
    rw [whole, FileStore.location, Path.segments_of_name (by decide)]
    rfl
  · refine ⟨dir.segments.foldl FileStore.move
      (if (dir ++ "/" ++ "src").isAbsolute then [] else s.current), ?_⟩
    rw [whole, FileStore.location, Path.segments_below (by decide), List.foldl_append]
    rfl

structure LiesAs (a : Artifact) (name : String) : Prop where
  path : a.path = "src" ++ ("/" ++ name)
  plain : '/' ∉ name.toList
  named : name ≠ "" ∧ name ≠ "." ∧ name ≠ ".."
  ends : Path.EndsPlainly name

theorem LiesAs.pathIn_eq (h : LiesAs a name) (out : Path) :
    a.pathIn out = sourceDirectory out ++ "/" ++ name := by
  rw [Artifact.pathIn, h.path, Path.join_append (by decide), sourceDirectory, String.append_assoc]

theorem LiesAs.directoryIn_eq (h : LiesAs a name) (out : Path) :
    a.directoryIn out = sourceDirectory out := by
  rw [Artifact.directoryIn, h.pathIn_eq,
    Path.parent?_below h.plain (sourceDirectory_endsPlainly out) h.ends]
  rfl

theorem LiesAs.location_eq (h : LiesAs a name) (s : FileStore) (out : Path) :
    s.location (a.pathIn out) = s.location (sourceDirectory out) ++ [name] := by
  rw [h.pathIn_eq, FileStore.location, FileStore.location, Path.segments_below h.plain,
    List.foldl_append, Path.isAbsolute_append (by simp),
    Path.isAbsolute_append (sourceDirectory_ne out)]
  obtain ⟨empty, dot, dots⟩ := h.named
  simp [FileStore.move, empty, dot, dots]

theorem LiesAs.isDevice_eq (h : LiesAs a name) (s : FileStore) (out : Path) :
    FileStore.isDevice (s.location (a.pathIn out)) = false := by
  obtain ⟨above, whole⟩ := exists_location_sourceDirectory s out
  rw [h.location_eq, whole]
  rcases above with _ | ⟨first, _ | ⟨second, _ | _⟩⟩ <;> rfl

theorem LiesAs.location_ne {b : Artifact} {other : String} (ha : LiesAs a name)
    (hb : LiesAs b other) (apart : a.path ≠ b.path) (s : FileStore) (out : Path) :
    s.location (a.pathIn out) ≠ s.location (b.pathIn out) := by
  intro same
  rw [ha.location_eq, hb.location_eq, List.append_cancel_left_eq, List.singleton_inj] at same
  exact apart (by rw [ha.path, hb.path, same])

/-- The artifact is written: its directory is there, and its path leads to a file that holds it. -/
structure InPlace (out : Path) (a : Artifact) (s : FileStore) : Prop where
  directory : ∃ up, s.resolve (a.directoryIn out) = .ok up ∧ s.HasDirectory up.names
  reached : s.resolve (a.pathIn out) = .ok ⟨s.location (a.pathIn out), false⟩
  held : s.file? (s.location (a.pathIn out)) = some a.contents.toUTF8

theorem InPlace.keeps {exempt : List (List String)} (h : InPlace out a s)
    (kept : s.Keeps exempt t) (apart : s.location (a.pathIn out) ∉ exempt) : InPlace out a t := by
  obtain ⟨up, way, there⟩ := h.directory
  constructor
  · exact ⟨up, kept.resolve way, kept.directories _ there⟩
  · rw [kept.location_eq]
    exact kept.resolve h.reached
  · rw [kept.location_eq, kept.files _ apart, h.held]

theorem InPlace.createDirectories (h : InPlace out a s) :
    s.createDirectories (a.directoryIn out) = (.ok (), s) := by
  obtain ⟨up, way, there⟩ := h.directory
  exact FileStore.createDirectories_of_directory way there

theorem InPlace.readBytes (h : InPlace out a s) :
    s.readBytes (a.pathIn out) = .ok a.contents.toUTF8 :=
  FileStore.readBytes_of_file? h.reached rfl h.held

/-- A module that could be written is in place, and no other file has changed. -/
theorem LiesAs.inPlace (h : LiesAs a name) (hw : s.writeText (a.pathIn out) a.contents = .ok t) :
    InPlace out a t ∧ s.Keeps [s.location (a.pathIn out)] t := by
  have real := h.isDevice_eq s out
  rw [FileStore.writeText] at hw
  rw [h.pathIn_eq] at hw real
  obtain ⟨⟨up, above, there⟩, way, kept, held⟩ :=
    FileStore.writeBytes_below h.plain h.named (sourceDirectory_ne out) real hw
  rw [← h.pathIn_eq] at way kept held
  refine ⟨⟨⟨up, ?_, kept.directories _ there⟩, ?_, ?_⟩, kept⟩
  · rw [h.directoryIn_eq]
    exact kept.resolve above
  · rw [kept.location_eq]
    exact kept.resolve way
  · rw [kept.location_eq, held]

/-- Writing what is in place changes nothing. -/
theorem written_of_inPlace (h : ∀ a ∈ as, InPlace out a s) : Written out as s s := by
  induction as with
  | nil => exact .nothing
  | cons a rest ih =>
    have first := h a List.mem_cons_self
    have later := ih fun b hb => h b (List.mem_cons_of_mem _ hb)
    exact .next first.createDirectories (FileStore.writeBytes_again first.reached rfl first.held)
      later

/-- Whatever the files held before, all artifacts are in place in the end. -/
theorem Written.inPlace (lie : ∀ a ∈ as, ∃ name, LiesAs a name)
    (apart : as.Pairwise fun a b => a.path ≠ b.path) (h : Written out as s t) :
    (∀ a ∈ as, InPlace out a t) ∧ s.Keeps (as.map fun a => s.location (a.pathIn out)) t := by
  induction h with
  | nothing =>
    next s =>
    refine ⟨?_, FileStore.Keeps.refl _ s⟩
    intro a ha
    cases ha
  | next hd hf rest ih =>
    next a as s made put t =>
    rw [List.pairwise_cons] at apart
    obtain ⟨name, here⟩ := lie a List.mem_cons_self
    obtain ⟨others, after⟩ := ih (fun b hb => lie b (List.mem_cons_of_mem _ hb)) apart.2
    obtain ⟨first, now⟩ := here.inPlace hf
    have before := FileStore.createDirectories_keeps hd
    have elsewhere : put.location (a.pathIn out) ∉ as.map fun b => put.location (b.pathIn out) := by
      intro among
      obtain ⟨b, hb, same⟩ := List.mem_map.mp among
      obtain ⟨other, there⟩ := lie b (List.mem_cons_of_mem _ hb)
      exact here.location_ne there (apart.1 b hb) put out same.symm
    constructor
    · intro b hb
      rcases List.mem_cons.mp hb with rfl | hb
      · exact first.keeps after elsewhere
      · exact others b hb
    · have whole := (before.trans now).trans after
      simpa only [now.location_eq, before.location_eq, List.nil_append, List.map_cons,
        List.cons_append] using whole

/-- The second of two modules in one directory can only fail as a file. -/
theorem fails_pair {b : Artifact} {e : PipelineError} {other : String} (ha : LiesAs a name)
    (hb : LiesAs b other) (h : WritingFails out [a, b] s e t) :
    (∃ cause, s.createDirectories (a.directoryIn out) = (.error cause, t) ∧
      e = .generation (a.directoryIn out) cause) ∨
    (∃ cause, s.createDirectories (a.directoryIn out) = (.ok (), t) ∧
      t.writeText (a.pathIn out) a.contents = .error cause ∧
      e = .generation (a.pathIn out) cause) ∨
    ∃ made cause, s.createDirectories (a.directoryIn out) = (.ok (), made) ∧
      made.writeText (a.pathIn out) a.contents = .ok t ∧
      t.writeText (b.pathIn out) b.contents = .error cause ∧
      e = .generation (b.pathIn out) cause := by
  cases h with
  | directory hd => exact Or.inl ⟨_, hd, rfl⟩
  | file hd hf => exact Or.inr (Or.inl ⟨_, hd, hf, rfl⟩)
  | later hd hf rest =>
    -- the directory is there since the first artifact was written into it
    have ready := (ha.inPlace hf).1.createDirectories
    rw [ha.directoryIn_eq, ← hb.directoryIn_eq] at ready
    cases rest with
    | directory hd' =>
      rw [hd'] at ready
      cases ready
    | file hd' hf' =>
      rw [hd'] at ready
      obtain rfl := (Prod.mk.inj ready).2
      exact Or.inr (Or.inr ⟨_, _, hd, hf, hf', rfl⟩)
    | later hd' hf' rest' => cases rest'

/-- How the writing of two modules in one directory can end. -/
theorem pair_touches {b : Artifact} {other : String} (ha : LiesAs a name) (hb : LiesAs b other)
    (apart : a.path ≠ b.path) (out : Path) (s : FileStore) :
    (∃ t, writeArtifacts out s [a, b] = (.ok [a.pathIn out, b.pathIn out], t) ∧
      (∀ c ∈ [a, b], t.readBytes (c.pathIn out) = .ok c.contents.toUTF8 ∧
        t.file? (s.location (c.pathIn out)) = some c.contents.toUTF8) ∧
      s.Keeps [s.location (a.pathIn out), s.location (b.pathIn out)] t ∧
      writeArtifacts out t [a, b] = (.ok [a.pathIn out, b.pathIn out], t)) ∨
    (∃ cause t, s.createDirectories (sourceDirectory out) = (.error cause, t) ∧
      writeArtifacts out s [a, b] = (.error (.generation (sourceDirectory out) cause), t) ∧
      s.Keeps [] t) ∨
    (∃ made cause, s.createDirectories (sourceDirectory out) = (.ok (), made) ∧
      made.writeText (a.pathIn out) a.contents = .error cause ∧
      writeArtifacts out s [a, b] = (.error (.generation (a.pathIn out) cause), made) ∧
      s.Keeps [] made) ∨
    ∃ made put cause, s.createDirectories (sourceDirectory out) = (.ok (), made) ∧
      made.writeText (a.pathIn out) a.contents = .ok put ∧
      put.writeText (b.pathIn out) b.contents = .error cause ∧
      writeArtifacts out s [a, b] = (.error (.generation (b.pathIn out) cause), put) ∧
      put.file? (s.location (a.pathIn out)) = some a.contents.toUTF8 ∧
      s.Keeps [s.location (a.pathIn out)] put := by
  rw [← ha.directoryIn_eq]
  rcases written_or_fails out [a, b] s with ⟨t, whole⟩ | ⟨e, t, part⟩
  · left
    have lie : ∀ c ∈ [a, b], ∃ name, LiesAs c name := by
      simp only [List.forall_mem_cons]
      exact ⟨⟨name, ha⟩, ⟨other, hb⟩, by simp⟩
    obtain ⟨inPlace, kept⟩ := whole.inPlace lie (by simpa using apart)
    refine ⟨t, writeArtifacts_of_written whole, ?_, kept, ?_⟩
    · intro c hc
      rw [← kept.location_eq]
      exact ⟨(inPlace c hc).readBytes, (inPlace c hc).held⟩
    · exact writeArtifacts_of_written (written_of_inPlace inPlace)
  · right
    have failed := writeArtifacts_of_fails part
    rcases fails_pair ha hb part with
      ⟨cause, hd, rfl⟩ | ⟨cause, hd, hf, rfl⟩ | ⟨made, cause, hd, hf, hf', rfl⟩
    · left
      exact ⟨cause, t, hd, failed, FileStore.createDirectories_keeps hd⟩
    · right; left
      exact ⟨t, cause, hd, hf, failed, FileStore.createDirectories_keeps hd⟩
    · right; right
      have before := FileStore.createDirectories_keeps hd
      obtain ⟨written, now⟩ := ha.inPlace hf
      have kept := before.trans now
      have held := written.held
      rw [kept.location_eq] at held
      rw [before.location_eq] at kept
      exact ⟨made, t, cause, hd, hf, hf', failed, held, kept⟩

theorem liesAs_api (i : Interface) : LiesAs ⟨apiPath, (Api.ofInterface i).text⟩ "api.ts" :=
  ⟨rfl, by decide, by decide, 's', ['t', '.', 'i', 'p', 'a'], by decide⟩

theorem liesAs_cli (i : Interface) (options : SessionOptions) :
    LiesAs ⟨cliPath, (Cli.ofInterface i options).text⟩ "cli.ts" :=
  ⟨rfl, by decide, by decide, 's', ['t', '.', 'i', 'l', 'c'], by decide⟩

/-- Emitting writes the two modules whole and nothing else, or fails with the path at which it
stopped. A failure before the second module is written leaves that one as it was. -/
theorem emit_touches_modules (i : Interface) (options : SessionOptions) (out : Path)
    (s : FileStore) :
    (∃ t, emit i options out s = (.ok [Path.join out apiPath, Path.join out cliPath], t) ∧
      (∀ a ∈ generate i options, t.readBytes (a.pathIn out) = .ok a.contents.toUTF8 ∧
        t.file? (s.location (a.pathIn out)) = some a.contents.toUTF8) ∧
      s.Keeps [s.location (Path.join out apiPath), s.location (Path.join out cliPath)] t ∧
      emit i options out t = (.ok [Path.join out apiPath, Path.join out cliPath], t)) ∨
    (∃ cause t, s.createDirectories (sourceDirectory out) = (.error cause, t) ∧
      emit i options out s = (.error (.generation (sourceDirectory out) cause), t) ∧
      s.Keeps [] t) ∨
    (∃ made cause, s.createDirectories (sourceDirectory out) = (.ok (), made) ∧
      made.writeText (Path.join out apiPath) (Api.ofInterface i).text = .error cause ∧
      emit i options out s = (.error (.generation (Path.join out apiPath) cause), made) ∧
      s.Keeps [] made) ∨
    ∃ made put cause, s.createDirectories (sourceDirectory out) = (.ok (), made) ∧
      made.writeText (Path.join out apiPath) (Api.ofInterface i).text = .ok put ∧
      put.writeText (Path.join out cliPath) (Cli.ofInterface i options).text = .error cause ∧
      emit i options out s = (.error (.generation (Path.join out cliPath) cause), put) ∧
      put.file? (s.location (Path.join out apiPath)) =
        some (Api.ofInterface i).text.toUTF8 ∧
      s.Keeps [s.location (Path.join out apiPath)] put := by
  have apart : apiPath ≠ cliPath := by decide
  have whole := pair_touches (liesAs_api i) (liesAs_cli i options) apart out s
  -- both sides are unfolded by name: the texts are too long to be compared by computing them
  simp only [Artifact.pathIn] at whole
  simp only [emit, generate, Artifact.pathIn]
  exact whole

end ContractSurface
