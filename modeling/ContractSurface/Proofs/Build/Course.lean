import ContractSurface.Build.Orchestrator
import ContractSurface.Proofs.Build.Writing

/-! # How a build goes

A build takes up its tasks in their order, each on the files that the one before it left, and ends
with the first one that fails. What is said of the course of a build is read off the deeds: the
tasks that were taken up, each with the files that it found.
-/
namespace ContractSurface
open TypeScript

structure Works where
  runner : Orchestrator.Runner
  interface : Interface
  options : SessionOptions
  out : Path

def Works.artifacts (w : Works) : List Artifact := generate w.interface w.options

structure Deed where
  task : Task
  found : FileStore

namespace Task

def step? : Task → Option ExternalStep
  | .external step => some step
  | .generate => none

def name : Task → String
  | .external step => step.name
  | .generate => "generate"

end Task

namespace Deed

def left (w : Works) (d : Deed) : FileStore :=
  match d.task with
  | .external step => (w.runner step d.found).2.2
  | .generate => (emit w.interface w.options w.out d.found).2

/-- The step ended with exit code 0, or all artifacts were written. -/
def Succeeds (w : Works) (d : Deed) : Prop :=
  match d.task with
  | .external step =>
    ∃ output, (w.runner step d.found).2.1 = .ok output ∧ output.code = some 0
  | .generate => Written w.out w.artifacts d.found (d.left w)

/-- The step did not start, or it ended in another way, or an artifact could not be written. -/
def Fails (w : Works) (d : Deed) (e : PipelineError) : Prop :=
  match d.task with
  | .external step =>
    (∃ cause, (w.runner step d.found).2.1 = .error cause ∧ e = .spawn step.name cause) ∨
    ∃ output, (w.runner step d.found).2.1 = .ok output ∧ output.code ≠ some 0 ∧
      e = .externalTool step.name output.code output.combined
  | .generate => WritingFails w.out w.artifacts d.found e (d.left w)

variable {w : Works} {d : Deed} {e : PipelineError}

theorem generate_of_written {s t : FileStore} (h : Written w.out w.artifacts s t) :
    Deed.left w ⟨.generate, s⟩ = t ∧ Deed.Succeeds w ⟨.generate, s⟩ := by
  have left : Deed.left w ⟨.generate, s⟩ = t := congrArg Prod.snd (writeArtifacts_of_written h)
  refine ⟨left, ?_⟩
  show Written w.out w.artifacts s (Deed.left w _)
  rw [left]
  exact h

theorem generate_of_fails {s t : FileStore} (h : WritingFails w.out w.artifacts s e t) :
    Deed.left w ⟨.generate, s⟩ = t ∧ Deed.Fails w ⟨.generate, s⟩ e := by
  have left : Deed.left w ⟨.generate, s⟩ = t := congrArg Prod.snd (writeArtifacts_of_fails h)
  refine ⟨left, ?_⟩
  show WritingFails w.out w.artifacts s e (Deed.left w _)
  rw [left]
  exact h

/-- A task that is taken up comes to one end or the other, whatever the files are. -/
theorem succeeds_or_fails (w : Works) (d : Deed) : d.Succeeds w ∨ ∃ e, d.Fails w e := by
  obtain ⟨task, s⟩ := d
  cases task with
  | external step =>
    cases replied : (w.runner step s).2.1 with
    | error cause => exact Or.inr ⟨_, Or.inl ⟨cause, replied, rfl⟩⟩
    | ok output =>
      by_cases code : output.code = some 0
      · exact Or.inl ⟨output, replied, code⟩
      · exact Or.inr ⟨_, Or.inr ⟨output, replied, code, rfl⟩⟩
  | generate =>
    rcases written_or_fails w.out w.artifacts s with ⟨t, written⟩ | ⟨e, t, fails⟩
    · exact Or.inl (generate_of_written written).2
    · exact Or.inr ⟨e, (generate_of_fails fails).2⟩

/-- No task succeeds and fails on the same files. -/
theorem not_fails_of_succeeds (h : d.Succeeds w) : ¬d.Fails w e := by
  intro hf
  obtain ⟨task, found⟩ := d
  cases task with
  | external step =>
    obtain ⟨output, ho, hc⟩ := h
    rcases hf with ⟨cause, hr, _⟩ | ⟨output', hr, hc', _⟩
    · rw [ho] at hr
      cases hr
    · rw [ho] at hr
      cases hr
      exact hc' hc
  | generate =>
    have written := writeArtifacts_of_written h
    have failed := writeArtifacts_of_fails hf
    rw [written] at failed
    cases failed

/-- The failure of a task is the only one that it can have. -/
theorem eq_of_fails {e' : PipelineError} (h : d.Fails w e) (h' : d.Fails w e') : e = e' := by
  obtain ⟨task, found⟩ := d
  cases task with
  | external step =>
    rcases h with ⟨cause, hr, rfl⟩ | ⟨output, hr, _, rfl⟩ <;>
    rcases h' with ⟨cause', hr', rfl⟩ | ⟨output', hr', _, rfl⟩ <;>
    rw [hr] at hr' <;> cases hr' <;> rfl
  | generate =>
    have failed := writeArtifacts_of_fails h
    rw [writeArtifacts_of_fails h'] at failed
    cases failed
    rfl

end Deed

/-- Tasks are carried out one after the other up to the first one that fails. -/
inductive Carries (w : Works) :
    List Task → FileStore → List Deed → FileStore → Option PipelineError → Prop where
  | nothing {s : FileStore} : Carries w [] s [] s none
  | stop {task : Task} {rest : List Task} {s : FileStore} {e : PipelineError} :
      Deed.Fails w ⟨task, s⟩ e →
      Carries w (task :: rest) s [⟨task, s⟩] (Deed.left w ⟨task, s⟩) (some e)
  | next {task : Task} {rest : List Task} {deeds : List Deed} {s t : FileStore}
      {failure : Option PipelineError} :
      Deed.Succeeds w ⟨task, s⟩ → Carries w rest (Deed.left w ⟨task, s⟩) deeds t failure →
      Carries w (task :: rest) s (⟨task, s⟩ :: deeds) t failure

namespace Carries

variable {w : Works} {tasks : List Task} {s t : FileStore} {deeds : List Deed}
  {failure : Option PipelineError}

/-- What is taken up is a front part of the tasks, in their order. -/
theorem tasks_initial (h : Carries w tasks s deeds t failure) : deeds.map (·.task) <+: tasks := by
  induction h with
  | nothing => exact List.nil_prefix
  | stop _ => exact List.prefix_append [_] _
  | next _ _ ih => exact List.cons_prefix_cons.mpr ⟨rfl, ih⟩

/-- The files that the deeds found, and the last ones, are the first ones and those they left. -/
theorem files_linked (h : Carries w tasks s deeds t failure) :
    deeds.map (·.found) ++ [t] = s :: deeds.map (·.left w) := by
  induction h with
  | nothing => rfl
  | stop _ => rfl
  | next _ _ ih => rw [List.map_cons, List.cons_append, ih, List.map_cons]

/-- All deeds but the last one succeeded. -/
theorem succeeds_before (h : Carries w tasks s deeds t failure) {earlier later : List Deed}
    {d : Deed} (hd : deeds = earlier ++ d :: later) : ∀ c ∈ earlier, c.Succeeds w := by
  induction h generalizing earlier with
  | nothing => exact absurd hd (by simp)
  | stop _ =>
    cases earlier with
    | nil => simp
    | cons c earlier => exact absurd hd (by simp)
  | next hs _ ih =>
    cases earlier with
    | nil => simp
    | cons c earlier =>
      obtain ⟨rfl, below⟩ := List.cons.inj hd
      intro c hc
      rcases List.mem_cons.mp hc with rfl | hc
      · exact hs
      · exact ih below c hc

/-- Without a failure every task is taken up and succeeds. -/
theorem complete (h : Carries w tasks s deeds t none) :
    deeds.map (·.task) = tasks ∧ ∀ d ∈ deeds, d.Succeeds w := by
  generalize hf : none = failure at h
  induction h with
  | nothing => exact ⟨rfl, by simp⟩
  | stop _ => cases hf
  | next hs _ ih =>
    obtain ⟨all, succeed⟩ := ih hf
    refine ⟨by rw [List.map_cons, all], ?_⟩
    intro d hd
    rcases List.mem_cons.mp hd with rfl | hd
    · exact hs
    · exact succeed d hd

/-- A failure is that of the last deed. -/
theorem last_fails {e : PipelineError} (h : Carries w tasks s deeds t (some e)) :
    ∃ d, deeds.getLast? = some d ∧ d.Fails w e := by
  generalize hf : some e = failure at h
  induction h with
  | nothing => cases hf
  | stop fails =>
    cases hf
    exact ⟨_, rfl, fails⟩
  | next _ _ ih =>
    obtain ⟨d, hd, fails⟩ := ih hf
    exact ⟨d, by rw [List.getLast?_cons, hd, Option.getD_some], fails⟩

theorem failure_eq_none_iff (h : Carries w tasks s deeds t failure) :
    failure = none ↔ ∀ d ∈ deeds, d.Succeeds w := by
  constructor
  · rintro rfl
    exact h.complete.2
  · intro succeed
    cases failure with
    | none => rfl
    | some e =>
      obtain ⟨d, hd, fails⟩ := h.last_fails
      exact absurd fails (Deed.not_fails_of_succeeds (succeed d (List.mem_of_getLast? hd)))

theorem failure_eq_some_iff {e : PipelineError} (h : Carries w tasks s deeds t failure) :
    failure = some e ↔ ∃ d, deeds.getLast? = some d ∧ d.Fails w e := by
  constructor
  · rintro rfl
    exact h.last_fails
  · rintro ⟨d, hd, fails⟩
    cases failure with
    | none =>
      have succeeds := h.complete.2 d (List.mem_of_getLast? hd)
      exact absurd fails (Deed.not_fails_of_succeeds succeeds)
    | some e' =>
      obtain ⟨d', hd', fails'⟩ := h.last_fails
      obtain rfl := Option.some.inj (hd.symm.trans hd')
      rw [Deed.eq_of_fails fails' fails]

end Carries

namespace Job

def works (j : Job) (runner : Orchestrator.Runner) : Works :=
  ⟨runner, j.interface, j.options, j.cliDir⟩

def conclude (j : Job) (tasks : List Task) : Option PipelineError → Except PipelineError BuildReport
  | some e => .error e
  | none =>
    .ok { j.report with
      artifacts :=
        if .generate ∈ tasks then
          (generate j.interface j.options).map (·.pathIn j.cliDir)
        else j.artifacts
      steps := j.steps ++ tasks.map Task.name }

variable {j : Job} {s : FileStore} {rest : List Task} {runner : Orchestrator.Runner}

theorem conclude_nil (j : Job) : j.conclude [] none = .ok j.report := by
  simp [conclude, report]

def written (j : Job) : Job :=
  withStep { j with artifacts := (generate j.interface j.options).map (·.pathIn j.cliDir) }
    "generate"

theorem conclude_written (j : Job) (rest : List Task) (failure : Option PipelineError) :
    j.written.conclude rest failure = j.conclude (.generate :: rest) failure := by
  cases failure with
  | some e => rfl
  | none => simp [conclude, written, report, withStep, Task.name]

theorem conclude_withStep (j : Job) (step : ExternalStep) (rest : List Task)
    (failure : Option PipelineError) :
    (j.withStep step.name).conclude rest failure = j.conclude (.external step :: rest) failure := by
  cases failure with
  | some e => rfl
  | none => simp [conclude, report, withStep, Task.name]

theorem proceed_written {t : FileStore}
    (h : Written j.cliDir (generate j.interface j.options) s t) :
    j.proceed s (.generate :: rest) = j.written.proceed t rest := by
  have emitted : emit j.interface j.options j.cliDir s = _ := writeArtifacts_of_written h
  simp only [proceed, emitted, written]

theorem proceed_fails {t : FileStore} {e : PipelineError}
    (h : WritingFails j.cliDir (generate j.interface j.options) s e t) :
    j.proceed s (.generate :: rest) = (.done (.error e), t) := by
  have emitted : emit j.interface j.options j.cliDir s = _ := writeArtifacts_of_fails h
  simp only [proceed, emitted]

theorem resume_succeeds {step : ExternalStep}
    (h : Deed.Succeeds (j.works runner) ⟨.external step, s⟩) :
    j.resume step rest (runner step s).2.1 (runner step s).2.2 =
      (j.withStep step.name).proceed (runner step s).2.2 rest := by
  obtain ⟨output, replied, code⟩ := h
  have replied : (runner step s).2.1 = .ok output := replied
  simp [resume, replied, CommandOutput.succeeded, code]

theorem resume_fails {step : ExternalStep} {e : PipelineError}
    (h : Deed.Fails (j.works runner) ⟨.external step, s⟩ e) :
    j.resume step rest (runner step s).2.1 (runner step s).2.2 =
      (.done (.error e), (runner step s).2.2) := by
  rcases h with ⟨cause, replied, rfl⟩ | ⟨output, replied, code, rfl⟩
  · have replied : (runner step s).2.1 = .error cause := replied
    rw [replied, resume]
  · have replied : (runner step s).2.1 = .ok output := replied
    simp [resume, replied, CommandOutput.succeeded, code]

end Job

namespace Orchestrator

variable {runner : Runner} {o : Orchestrator} {j : Job} {s : FileStore}

theorem runAll_done (runner : Runner) (steps : Nat) (o : Orchestrator) (s : FileStore)
    (result : Except PipelineError BuildReport) :
    ∃ o' : Orchestrator, runAll runner steps (o.settle (.done result, s)) =
        (some (result.map .completed), o') ∧
      o'.handed = o.handed ∧ o'.files = s := by
  refine ⟨(o.settle (.done result, s)).2, ?_, rfl, rfl⟩
  cases steps <;> rfl

/-- Running goes on with the step that is handed out, on the files that the step leaves. -/
theorem runAll_waiting (runner : Runner) (steps : Nat) (o : Orchestrator) (j : Job)
    (step : ExternalStep) (rest : List Task) (s : FileStore) :
    ∃ o' : Orchestrator, runAll runner (steps + 1) (o.settle (.waiting j step rest, s)) =
        runAll runner steps
          (o'.settle (j.resume step rest (runner step s).2.1 (runner step s).2.2)) ∧
      o'.handed = o.handed ++ [step] := by
  refine ⟨_, rfl, rfl⟩

/-- The build that goes on with the given tasks comes to a result, which is what carrying them out
comes to, and hands out the steps among them. -/
def SeesThrough (runner : Runner) (steps : Nat) (o : Orchestrator) (j : Job) (s : FileStore)
    (tasks : List Task) : Prop :=
  ∃ (deeds : List Deed) (failure : Option PipelineError) (o' : Orchestrator),
    runAll runner steps (o.settle (j.proceed s tasks)) =
      (some ((j.conclude tasks failure).map .completed), o') ∧
    o'.handed = o.handed ++ (deeds.map (·.task)).filterMap Task.step? ∧
    Carries (j.works runner) tasks s deeds o'.files failure

theorem seesThrough_nil (steps : Nat) : SeesThrough runner steps o j s [] := by
  obtain ⟨o', run, handed, files⟩ := runAll_done runner steps o s (.ok j.report)
  refine ⟨[], none, o', ?_, by simp [handed], ?_⟩
  · rw [j.conclude_nil]
    exact run
  · rw [files]
    exact .nothing

theorem seesThrough_generate {steps : Nat} {rest : List Task}
    (ih : ∀ t, SeesThrough runner steps o j.written t rest) :
    SeesThrough runner steps o j s (.generate :: rest) := by
  rcases written_or_fails j.cliDir (generate j.interface j.options) s with
    ⟨t, written⟩ | ⟨e, t, fails⟩
  · obtain ⟨left, succeeds⟩ := Deed.generate_of_written (w := j.works runner) written
    obtain ⟨deeds, failure, o', run, handed, carries⟩ := ih t
    refine ⟨⟨.generate, s⟩ :: deeds, failure, o', ?_, handed, .next succeeds ?_⟩
    · rw [Job.proceed_written written, run, j.conclude_written]
    · rw [left]
      exact carries
  · obtain ⟨left, fails'⟩ := Deed.generate_of_fails (w := j.works runner) fails
    obtain ⟨o', run, handed, files⟩ := runAll_done runner steps o t (.error e)
    refine ⟨[⟨.generate, s⟩], some e, o', ?_, by simp [handed, Task.step?], ?_⟩
    · rw [Job.proceed_fails fails]
      exact run
    · rw [files, ← left]
      exact .stop fails'

theorem seesThrough_external {steps : Nat} {step : ExternalStep} {rest : List Task}
    (ih : ∀ o t, SeesThrough runner steps o (j.withStep step.name) t rest) :
    SeesThrough runner (steps + 1) o j s (.external step :: rest) := by
  obtain ⟨waited, went, handed⟩ := runAll_waiting runner steps o j step rest s
  rcases Deed.succeeds_or_fails (j.works runner) ⟨.external step, s⟩ with succeeds | ⟨e, fails⟩
  · obtain ⟨deeds, failure, o', run, kept, carries⟩ := ih waited (runner step s).2.2
    refine ⟨⟨.external step, s⟩ :: deeds, failure, o', ?_, by simp [kept, handed, Task.step?],
      .next succeeds carries⟩
    rw [Job.proceed, went, Job.resume_succeeds succeeds, run, j.conclude_withStep]
  · obtain ⟨o', run, kept, files⟩ := runAll_done runner steps waited (runner step s).2.2 (.error e)
    refine ⟨[⟨.external step, s⟩], some e, o', ?_, by simp [kept, handed, Task.step?], ?_⟩
    · rw [Job.proceed, went, Job.resume_fails fails]
      exact run
    · rw [files]
      exact .stop fails

/-- A build is seen through when there are enough steps for its external tasks. -/
theorem seesThrough (tasks : List Task) {steps : Nat}
    (enough : (tasks.filterMap Task.step?).length ≤ steps) :
    SeesThrough runner steps o j s tasks := by
  induction tasks generalizing steps o j s with
  | nil => exact seesThrough_nil steps
  | cons task rest ih =>
    cases task with
    | generate => exact seesThrough_generate fun _ => ih enough
    | external step =>
      cases steps with
      | zero => exact absurd enough (Nat.not_succ_le_zero _)
      | succ steps => exact seesThrough_external fun _ _ => ih (Nat.le_of_succ_le_succ enough)

end Orchestrator

end ContractSurface
