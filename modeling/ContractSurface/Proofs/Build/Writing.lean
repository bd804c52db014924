import ContractSurface.Build.Pipeline

/-! # Writing artifacts

Artifacts are written one after the other, each into a directory that is made first. Either all of
them are written or the first one that fails ends the writing.
-/
namespace ContractSurface
open TypeScript

inductive Written (out : Path) : List Artifact → FileStore → FileStore → Prop where
  | nothing {s : FileStore} : Written out [] s s
  | next {a : Artifact} {rest : List Artifact} {s made put t : FileStore} :
      s.createDirectories (a.directoryIn out) = (.ok (), made) →
      made.writeText (a.pathIn out) a.contents = .ok put →
      Written out rest put t → Written out (a :: rest) s t

/-- Some artifacts were written, and then a directory or a file could not be. -/
inductive WritingFails (out : Path) :
    List Artifact → FileStore → PipelineError → FileStore → Prop where
  | directory {a : Artifact} {rest : List Artifact} {s t : FileStore} {cause : FileError} :
      s.createDirectories (a.directoryIn out) = (.error cause, t) →
      WritingFails out (a :: rest) s (.generation (a.directoryIn out) cause) t
  | file {a : Artifact} {rest : List Artifact} {s made : FileStore} {cause : FileError} :
      s.createDirectories (a.directoryIn out) = (.ok (), made) →
      made.writeText (a.pathIn out) a.contents = .error cause →
      WritingFails out (a :: rest) s (.generation (a.pathIn out) cause) made
  | later {a : Artifact} {rest : List Artifact} {s made put t : FileStore} {e : PipelineError} :
      s.createDirectories (a.directoryIn out) = (.ok (), made) →
      made.writeText (a.pathIn out) a.contents = .ok put →
      WritingFails out rest put e t → WritingFails out (a :: rest) s e t

variable {out : Path} {as : List Artifact} {s t : FileStore}

theorem writeArtifacts_of_written (h : Written out as s t) :
    writeArtifacts out s as = (.ok (as.map (·.pathIn out)), t) := by
  induction h with
  | nothing => rfl
  | next hd hf _ ih => simp only [writeArtifacts, writeArtifact, hd, hf, ih, List.map_cons]

theorem writeArtifacts_of_fails {e : PipelineError} (h : WritingFails out as s e t) :
    writeArtifacts out s as = (.error e, t) := by
  induction h with
  | directory hd => simp only [writeArtifacts, writeArtifact, hd]
  | file hd hf => simp only [writeArtifacts, writeArtifact, hd, hf]
  | later hd hf _ ih => simp only [writeArtifacts, writeArtifact, hd, hf, ih]

/-- Either all artifacts are written or there is a first one that fails. -/
theorem written_or_fails (out : Path) (as : List Artifact) (s : FileStore) :
    (∃ t, Written out as s t) ∨ ∃ e t, WritingFails out as s e t := by
  induction as generalizing s with
  | nil => exact Or.inl ⟨s, .nothing⟩
  | cons a rest ih =>
    cases hd : s.createDirectories (a.directoryIn out) with
    | mk made? made =>
      cases made? with
      | error cause => exact Or.inr ⟨_, _, .directory hd⟩
      | ok _ =>
        cases hf : made.writeText (a.pathIn out) a.contents with
        | error cause => exact Or.inr ⟨_, _, .file hd hf⟩
        | ok put =>
          rcases ih put with ⟨t, ht⟩ | ⟨e, t, ht⟩
          · exact Or.inl ⟨t, .next hd hf ht⟩
          · exact Or.inr ⟨e, t, .later hd hf ht⟩

end ContractSurface
