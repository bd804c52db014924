import ContractSurface.Proofs.Build.Order
import ContractSurface.Proofs.Files.Store
import ContractSurface.Shell.Run

/-! # What the steps of a build keep

A step that a shell runs takes no time, and ends with a byte or by a signal; one that does not start
leaves the files alone. The current directory stays in place, and so the paths of a build mean the
same from its first task to its last.
-/
namespace ContractSurface

namespace Shell

variable {step : ExternalStep} {files : FileStore}

theorem runner_time (step : ExternalStep) (files : FileStore) : (runner step files).1 = 0 := by
  unfold runner
  split <;> rfl

theorem runner_current (step : ExternalStep) (files : FileStore) :
    (runner step files).2.2.current = files.current := by
  unfold runner
  split <;> rfl

/-- A step that does not start leaves the files as they are. -/
theorem runner_of_error {reason : String} (h : (runner step files).2.1 = .error reason) :
    (runner step files).2.2 = files := by
  unfold runner at h ⊢
  split
  · rfl
  · next launched =>
    simp only [launched] at h
    cases h

theorem outcome_code (name : Raw) (act : Act Unit) (files : FileStore) :
    ∀ code ∈ (outcome name act files).1.code, 0 ≤ code ∧ code < 256 := by
  intro code hc
  unfold outcome at hc
  dsimp only at hc
  split at hc
  next leap m _ =>
    split at hc
    · cases hc
    · obtain rfl := Option.some.inj hc
      omega

theorem exists_outcome_of_start {name : String} {words : List String}
    {result : CommandOutput × FileStore} (h : start name words files = .ok result) :
    ∃ act, result = outcome name.toList act files := by
  unfold start at h
  dsimp only at h
  split at h
  · exact ⟨_, (Except.ok.inj h).symm⟩
  · cases h

theorem exists_outcome_of_launch {result : CommandOutput × FileStore}
    (h : launch step files = .ok result) :
    ∃ name act inside, result = outcome name act inside := by
  unfold launch at h
  split at h
  · cases h
  split at h
  · cases h
  · split at h
    · cases h
    · obtain ⟨act, ended⟩ := exists_outcome_of_start h
      exact ⟨_, act, _, ended⟩

/-- A program that ends by itself ends with a byte. -/
theorem runner_code {output : CommandOutput} (h : (runner step files).2.1 = .ok output) :
    ∀ code ∈ output.code, 0 ≤ code ∧ code < 256 := by
  unfold runner at h
  split at h
  · cases h
  · next result left launched =>
    obtain rfl := Except.ok.inj h
    obtain ⟨name, act, inside, ended⟩ := exists_outcome_of_launch launched
    have codes := outcome_code name act inside
    rw [← ended] at codes
    exact codes

end Shell

namespace FileStore

variable {s t : FileStore} {p : Path}

theorem writeBytes_current {content : ByteArray} (h : s.writeBytes p content = .ok t) :
    t.current = s.current := by
  obtain ⟨place, -, -, rfl | ⟨-, rfl⟩⟩ := exists_of_writeBytes h
  · rfl
  · rfl

end FileStore

variable {out : Path} {as : List TypeScript.Artifact} {s t : FileStore}

/-- Writing artifacts does not move the current directory, and neither does a failure to. -/
theorem Written.current (h : Written out as s t) : t.current = s.current := by
  induction h with
  | nothing => rfl
  | next made put _ ih =>
    rw [ih, FileStore.writeBytes_current put, (FileStore.createDirectories_keeps made).current]

theorem WritingFails.current {e : PipelineError} (h : WritingFails out as s e t) :
    t.current = s.current := by
  induction h with
  | directory failed => exact (FileStore.createDirectories_keeps failed).current
  | file made _ => exact (FileStore.createDirectories_keeps made).current
  | later made put _ ih =>
    rw [ih, FileStore.writeBytes_current put, (FileStore.createDirectories_keeps made).current]

section Course

variable {w : Works} (stays : ∀ step s, (w.runner step s).2.2.current = s.current)

include stays in
theorem Deed.left_current (d : Deed) : (d.left w).current = d.found.current := by
  obtain ⟨task, found⟩ := d
  cases task with
  | external step => exact stays step found
  | generate =>
    rcases written_or_fails w.out w.artifacts found with ⟨t, written⟩ | ⟨e, t, fails⟩
    · rw [(generate_of_written written).1]
      exact written.current
    · rw [(generate_of_fails fails).1]
      exact fails.current

include stays in
/-- Tasks whose steps stay in place stay in place together. -/
theorem Carries.current {tasks : List Task} {deeds : List Deed} {failure : Option PipelineError}
    (h : Carries w tasks s deeds t failure) : t.current = s.current := by
  induction h with
  | nothing => rfl
  | stop _ => exact Deed.left_current stays _
  | next _ _ ih => rw [ih, Deed.left_current stays _]

end Course

namespace Orchestrator

variable {runner : Runner}

/-- A build whose steps stay in place stays in place as a whole. -/
theorem build_current (stays : ∀ step s, (runner step s).2.2.current = s.current)
    (o : Orchestrator) : (o.build runner).2.files.current = o.files.current := by
  unfold build request
  cases o.flight.tryBegin o.now with
  | error reason => rfl
  | ok flight =>
    dsimp only
    rcases source_reads_or_fails o.settings o.files with ⟨source, text, reads⟩ | ⟨e, fails⟩
    · have seen : SeesThrough runner mostSteps
          { o with flight, executions := o.executions + 1 }
          (startJob o.settings o.options source text) o.files (o.settings.tasks source) :=
        seesThrough _ (o.settings.length_steps_le source)
      obtain ⟨deeds, failure, o', run, _, carries⟩ := seen
      rw [startBuild_of_reads reads, run]
      exact carries.current stays
    · obtain ⟨o', run, _, files⟩ := runAll_done runner mostSteps
        { o with flight, executions := o.executions + 1 } o.files (.error e)
      rw [startBuild_of_fails fails, run, files]

theorem build_shell_current (o : Orchestrator) :
    (o.build Shell.runner).2.files.current = o.files.current :=
  build_current Shell.runner_current o

end Orchestrator

end ContractSurface
