import ContractSurface.Proofs.Build.Course

/-! # The order of a build

A request that starts a build is seen through to a result, whatever the replies of its steps are.
Compiling and building the contract package come before the modules are written, and building the
generated package comes after. The report is that of the source as it was read first.
-/
namespace ContractSurface
open TypeScript

def BuildSettings.earlySteps (b : BuildSettings) (source : Path) : List ExternalStep :=
  (match b.compiler with
    | [] => []
    | program :: arguments =>
      [⟨"compile", program, arguments ++ [source, b.compilerOutput], none⟩]) ++
  (match b.contractBuild with
    | [] => []
    | program :: arguments => [⟨"build contract", program, arguments, some b.contractDir⟩])

def BuildSettings.lateSteps (b : BuildSettings) : List ExternalStep :=
  match b.cliBuild with
  | [] => []
  | program :: arguments => [⟨"build cli", program, arguments, some b.cliDir⟩]

variable {b : BuildSettings} {source : Path}

theorem BuildSettings.tasks_eq (b : BuildSettings) (source : Path) :
    b.tasks source =
      (b.earlySteps source).map .external ++ .generate :: b.lateSteps.map .external := by
  unfold tasks earlySteps lateSteps
  cases b.compiler <;> cases b.contractBuild <;> cases b.cliBuild <;>
    simp [ExternalStep.ofCommand?, ExternalStep.withArgument]

theorem BuildSettings.names_sublist (b : BuildSettings) (source : Path) :
    ((b.earlySteps source ++ b.lateSteps).map (·.name)).Sublist
      ["compile", "build contract", "build cli"] := by
  unfold earlySteps lateSteps
  cases b.compiler <;> cases b.contractBuild <;> cases b.cliBuild <;>
    simp only [List.map_cons, List.map_nil, List.append_nil, List.nil_append,
      List.cons_append] <;>
    decide

theorem BuildSettings.nodup_steps (b : BuildSettings) (source : Path) :
    (b.earlySteps source ++ b.lateSteps).Nodup := by
  have names : ((b.earlySteps source ++ b.lateSteps).map (·.name)).Nodup :=
    (b.names_sublist source).nodup (by decide)
  exact List.Pairwise.of_map (·.name) (fun _ _ apart same => apart (congrArg _ same)) names

theorem BuildSettings.not_mem_earlySteps {step : ExternalStep} (h : step ∈ b.lateSteps) :
    step ∉ b.earlySteps source := by
  intro he
  have apart := (List.nodup_append.mp (b.nodup_steps source)).2.2
  exact apart step he step h rfl

theorem BuildSettings.filterMap_tasks (b : BuildSettings) (source : Path) :
    (b.tasks source).filterMap Task.step? = b.earlySteps source ++ b.lateSteps := by
  have steps : ∀ l : List ExternalStep, (l.map Task.external).filterMap Task.step? = l := by
    intro l
    induction l with
    | nil => rfl
    | cons step l ih => simp [Task.step?, ih]
  rw [b.tasks_eq, List.filterMap_append, steps, List.filterMap_cons_none rfl, steps]

theorem BuildSettings.length_steps_le (b : BuildSettings) (source : Path) :
    ((b.tasks source).filterMap Task.step?).length ≤ Orchestrator.mostSteps := by
  have shorter := (b.names_sublist source).length_le
  rwa [b.filterMap_tasks, ← List.length_map (·.name)]

theorem BuildSettings.names_tasks (b : BuildSettings) (source : Path) :
    (b.tasks source).map Task.name =
      (b.earlySteps source).map (·.name) ++ "generate" :: b.lateSteps.map (·.name) := by
  rw [b.tasks_eq, List.map_append, List.map_cons, List.map_map, List.map_map]
  rfl

structure SourceReads (b : BuildSettings) (s : FileStore) (source : Path) (text : String) :
    Prop where
  located : locateSource b s = .ok source
  read : s.readText source = .ok text

inductive SourceFails (b : BuildSettings) (s : FileStore) : PipelineError → Prop where
  | unlocated :
      locateSource b s = .error (.sourceNotFound (b.source.getD b.contractDir)) →
      SourceFails b s (.sourceNotFound (b.source.getD b.contractDir))
  | unread {source : Path} {cause : FileError} :
      locateSource b s = .ok source → s.readText source = .error cause →
      SourceFails b s (.sourceRead source cause)

theorem eq_of_locateSource_error {s : FileStore} {e : PipelineError}
    (h : locateSource b s = .error e) : e = .sourceNotFound (b.source.getD b.contractDir) := by
  unfold locateSource at h
  grind

theorem source_reads_or_fails (b : BuildSettings) (s : FileStore) :
    (∃ source text, SourceReads b s source text) ∨ ∃ e, SourceFails b s e := by
  cases located : locateSource b s with
  | error e =>
    have missing := eq_of_locateSource_error located
    exact Or.inr ⟨_, .unlocated (missing ▸ located)⟩
  | ok source =>
    cases read : s.readText source with
    | error cause => exact Or.inr ⟨_, .unread located read⟩
    | ok text => exact Or.inl ⟨source, text, located, read⟩

theorem startBuild_of_fails {options : SessionOptions} {s : FileStore} {e : PipelineError}
    (h : SourceFails b s e) : startBuild b options s = (.done (.error e), s) := by
  cases h with
  | unlocated located => rw [startBuild, located]
  | unread located read =>
    rw [startBuild, located]
    dsimp only
    rw [read]

def startJob (b : BuildSettings) (options : SessionOptions) (source : Path) (text : String) : Job :=
  ⟨options, b.cliDir, source, analyze text ((Path.fileName? source).getD ""), [], ["parse"]⟩

/-- A build whose source was read goes on with the tasks of its settings. -/
theorem startBuild_of_reads {options : SessionOptions} {s : FileStore} {text : String}
    (h : SourceReads b s source text) :
    startBuild b options s = (startJob b options source text).proceed s (b.tasks source) := by
  rw [startBuild, h.located]
  dsimp only
  rw [h.read]
  rfl

section Order

variable {early late : List ExternalStep} {xs ys : List Task}

/-- The modules are generated right after all early steps. -/
theorem eq_of_generate_taken
    (h : xs ++ .generate :: ys <+: early.map .external ++ .generate :: late.map .external) :
    xs = early.map .external := by
  induction early generalizing xs with
  | nil =>
    cases xs with
    | nil => rfl
    | cons x xs =>
      obtain ⟨rfl, below⟩ := List.cons_prefix_cons.mp h
      have twice : Task.generate ∈ late.map .external :=
        below.subset (List.mem_append_right xs List.mem_cons_self)
      simp at twice
  | cons step early ih =>
    cases xs with
    | nil =>
      have same := (List.cons_prefix_cons.mp h).1
      cases same
    | cons x xs =>
      obtain ⟨rfl, below⟩ := List.cons_prefix_cons.mp h
      rw [ih below, List.map_cons]

/-- A late step comes behind the generation of the modules. -/
theorem generate_mem_of_external_taken {step : ExternalStep} (apart : step ∉ early)
    (h : xs ++ .external step :: ys <+: early.map .external ++ .generate :: late.map .external) :
    .generate ∈ xs := by
  induction early generalizing xs with
  | nil =>
    cases xs with
    | nil =>
      have same := (List.cons_prefix_cons.mp h).1
      cases same
    | cons x xs =>
      obtain ⟨rfl, _⟩ := List.cons_prefix_cons.mp h
      exact List.mem_cons_self
  | cons first early ih =>
    cases xs with
    | nil =>
      have same := (List.cons_prefix_cons.mp h).1
      cases same
      exact absurd List.mem_cons_self apart
    | cons x xs =>
      obtain ⟨rfl, below⟩ := List.cons_prefix_cons.mp h
      exact List.mem_cons_of_mem _ (ih (fun later => apart (List.mem_cons_of_mem _ later)) below)

end Order

def stepsCalled (deeds : List Deed) : List ExternalStep :=
  (deeds.map (·.task)).filterMap Task.step?

theorem exists_of_mem_stepsCalled {step : ExternalStep} {deeds : List Deed}
    (h : step ∈ stepsCalled deeds) : ∃ d ∈ deeds, d.task = .external step := by
  obtain ⟨task, taken, external⟩ := List.mem_filterMap.mp h
  obtain ⟨d, hd, rfl⟩ := List.mem_map.mp taken
  refine ⟨d, hd, ?_⟩
  cases called : d.task with
  | generate =>
    rw [called] at external
    cases external
  | external other =>
    rw [called] at external
    rw [Option.some.inj external]

def fullReport (b : BuildSettings) (i : Interface) (source : Path) : BuildReport where
  source := source
  contractName := i.contractName
  operations := i.operations.length
  stateVariables := i.stateVariables.length
  artifacts := [Path.join b.cliDir apiPath, Path.join b.cliDir cliPath]
  steps := "parse" :: ((b.earlySteps source).map (·.name) ++
    "generate" :: b.lateSteps.map (·.name))

/-- How a build goes that has read its source: what it took up, what came of it, and the files that
are there in the end. -/
structure Course (b : BuildSettings) (w : Works) (source : Path) (s : FileStore)
    (deeds : List Deed) (t : FileStore) (result : Except PipelineError BuildReport) : Prop where
  /-- The steps come in their order, each once, as far as the build went. -/
  steps : stepsCalled deeds <+: b.earlySteps source ++ b.lateSteps
  once : (stepsCalled deeds).Nodup
  /-- Each deed finds the files that the one before it left, and the last ones stay. -/
  files : deeds.map (·.found) ++ [t] = s :: deeds.map (·.left w)
  /-- Nothing is taken up after a failure. -/
  succeeds_before : ∀ earlier d later, deeds = earlier ++ d :: later →
    ∀ c ∈ earlier, c.Succeeds w
  /-- The modules are written after all of the early steps. -/
  early_first : ∀ earlier d later, deeds = earlier ++ d :: later → d.task = .generate →
    earlier.map (·.task) = (b.earlySteps source).map .external
  /-- The late step is called after the modules were written. -/
  late_last : ∀ earlier d later step, deeds = earlier ++ d :: later → d.task = .external step →
    step ∈ b.lateSteps → ∃ c ∈ earlier, c.task = .generate ∧ c.Succeeds w
  /-- The build is completed when everything was taken up and succeeded. -/
  completes : (∃ report, result = .ok report) ↔
    stepsCalled deeds = b.earlySteps source ++ b.lateSteps ∧
      (∃ d ∈ deeds, d.task = .generate) ∧ ∀ d ∈ deeds, d.Succeeds w
  report : ∀ report, result = .ok report → report = fullReport b w.interface source
  /-- The build fails as its last deed does. -/
  fails : ∀ e, result = .error e ↔ ∃ d, deeds.getLast? = some d ∧ d.Fails w e

variable {options : SessionOptions} {text : String} {runner : Orchestrator.Runner}
  {s t : FileStore} {deeds : List Deed} {failure : Option PipelineError}

theorem startJob_conclude (failure : Option PipelineError) :
    (startJob b options source text).conclude (b.tasks source) failure =
      match failure with
      | some e => .error e
      | none => .ok (fullReport b (startJob b options source text).interface source) := by
  have generates : Task.generate ∈ b.tasks source := by simp [b.tasks_eq]
  cases failure with
  | some e => rfl
  | none =>
    rw [Job.conclude, if_pos generates, b.names_tasks]
    simp only [startJob, Job.report, fullReport, generate, Artifact.pathIn, List.map_cons,
      List.map_nil, List.cons_append, List.nil_append]

/-- What carries out the tasks of the settings is a course of the build. -/
theorem Carries.course (h : Carries ((startJob b options source text).works runner)
    (b.tasks source) s deeds t failure) :
    Course b ((startJob b options source text).works runner) source s deeds t
      ((startJob b options source text).conclude (b.tasks source) failure) := by
  have order := h.tasks_initial
  have initial : stepsCalled deeds <+: b.earlySteps source ++ b.lateSteps := by
    rw [← b.filterMap_tasks]
    exact order.filterMap _
  rw [b.tasks_eq] at order
  rw [startJob_conclude]
  exact {
    steps := initial
    once := initial.sublist.nodup (b.nodup_steps source)
    files := h.files_linked
    succeeds_before := fun earlier d later hd => h.succeeds_before hd
    early_first := by
      intro earlier d later hd generate
      rw [hd, List.map_append, List.map_cons, generate] at order
      exact eq_of_generate_taken order
    late_last := by
      intro earlier d later step hd external late
      rw [hd, List.map_append, List.map_cons, external] at order
      have generated := generate_mem_of_external_taken (b.not_mem_earlySteps late) order
      obtain ⟨c, hc, generate⟩ := List.mem_map.mp generated
      exact ⟨c, hc, generate, h.succeeds_before hd c hc⟩
    completes := by
      constructor
      · intro completed
        cases failure with
        | some e =>
          obtain ⟨report, completed⟩ := completed
          cases completed
        | none =>
          obtain ⟨all, succeed⟩ := h.complete
          have generates : Task.generate ∈ deeds.map (·.task) := by simp [all, b.tasks_eq]
          refine ⟨?_, List.mem_map.mp generates, succeed⟩
          rw [stepsCalled, all, b.filterMap_tasks]
      · rintro ⟨_, _, succeed⟩
        rw [h.failure_eq_none_iff.mpr succeed]
        exact ⟨_, rfl⟩
    report := by
      intro report completed
      cases failure with
      | some e => cases completed
      | none => exact (Except.ok.inj completed).symm
    fails := by
      intro e
      rw [← h.failure_eq_some_iff]
      cases failure with
      | some e' => simp
      | none => simp }

/-- A request that is not skipped gives a result. Without a source nothing is called and nothing is
written; with one the build takes its course over the interface of the text that was read. -/
theorem build_takes_course {o : Orchestrator} {flight : Flight}
    (ready : o.flight.tryBegin o.now = .ok flight) (runner : Orchestrator.Runner) :
    ∃ (result : Except PipelineError BuildReport) (deeds : List Deed) (o' : Orchestrator),
      o.build runner = (some (result.map .completed), o') ∧
      o'.handed = o.handed ++ stepsCalled deeds ∧
      ((∃ e, SourceFails o.settings o.files e ∧ deeds = [] ∧ o'.files = o.files ∧
          result = .error e) ∨
        ∃ source text, SourceReads o.settings o.files source text ∧
          Course o.settings
            ⟨runner, analyze text ((Path.fileName? source).getD ""), o.options, o.settings.cliDir⟩
            source o.files deeds o'.files result) := by
  rcases source_reads_or_fails o.settings o.files with ⟨source, text, reads⟩ | ⟨e, fails⟩
  · have seen : Orchestrator.SeesThrough runner Orchestrator.mostSteps
        { o with flight, executions := o.executions + 1 }
        (startJob o.settings o.options source text) o.files (o.settings.tasks source) :=
      Orchestrator.seesThrough _ (o.settings.length_steps_le source)
    obtain ⟨deeds, failure, o', run, handed, carries⟩ := seen
    refine ⟨_, deeds, o', ?_, handed, Or.inr ⟨source, text, reads, carries.course⟩⟩
    rw [Orchestrator.build, Orchestrator.request, ready]
    dsimp only
    rw [startBuild_of_reads reads, run]
  · obtain ⟨o', run, handed, files⟩ := Orchestrator.runAll_done runner Orchestrator.mostSteps
      { o with flight, executions := o.executions + 1 } o.files (.error e)
    refine ⟨.error e, [], o', ?_, by simp [handed, stepsCalled],
      Or.inl ⟨e, fails, rfl, files, rfl⟩⟩
    rw [Orchestrator.build, Orchestrator.request, ready]
    dsimp only
    rw [startBuild_of_fails fails, run]

def voteBuild : Orchestrator :=
  .ofSettings
    { BuildSettings.standard with
      source := some "vote.compact"
      compiler := []
      contractBuild := ["make"]
      cliBuild := ["npm", "test"] }
    .standard
    ⟨.folder "work" (.file "vote.compact" "export ledger votes: Counter;".toUTF8 .empty) .empty,
      ["work"]⟩

def voteRunner : Orchestrator.Runner := fun step s =>
  (1, .ok ⟨if step.program = "make" then some 0 else none, "", ""⟩, s)

/-- The modules stay although the step after them fails. -/
theorem voteBuild_fails_after_writing :
    voteBuild.flight.tryBegin voteBuild.now = .ok ⟨2000, true, none⟩ ∧
      ∃ (deeds : List Deed) (o' : Orchestrator) (i : Interface) (e : PipelineError),
        voteBuild.build voteRunner = (some (.error e), o') ∧
        (stepsCalled deeds).map (·.name) = ["build contract", "build cli"] ∧
        (∃ c ∈ deeds, c.task = .generate ∧ c.Succeeds ⟨voteRunner, i, .standard, "cli"⟩) ∧
        ∃ d, deeds.getLast? = some d ∧ d.Fails ⟨voteRunner, i, .standard, "cli"⟩ e := by
  have ready : voteBuild.flight.tryBegin voteBuild.now = .ok ⟨2000, true, none⟩ := rfl
  have called : (voteBuild.build voteRunner).2.handed =
      [⟨"build contract", "make", [], some "contract"⟩,
        ⟨"build cli", "npm", ["test"], some "cli"⟩] := by decide +kernel
  have failed : (voteBuild.build voteRunner).1.any Except.isOk = false := by decide +kernel
  obtain ⟨result, deeds, o', run, handed, course⟩ := build_takes_course ready voteRunner
  rw [run] at called failed
  have steps : stepsCalled deeds = [⟨"build contract", "make", [], some "contract"⟩,
      ⟨"build cli", "npm", ["test"], some "cli"⟩] := handed.symm.trans called
  rcases course with ⟨_, _, rfl, _⟩ | ⟨source, text, _, course⟩
  · cases steps
  cases result with
  | ok report => cases failed
  | error e =>
    have last : ⟨"build cli", "npm", ["test"], some "cli"⟩ ∈ stepsCalled deeds := by
      rw [steps]
      decide
    obtain ⟨d, hd, external⟩ := exists_of_mem_stepsCalled last
    obtain ⟨earlier, later, split⟩ := List.append_of_mem hd
    obtain ⟨c, hc, written⟩ := course.late_last earlier d later _ split external (by decide)
    refine ⟨ready, deeds, o', _, e, run, by rw [steps]; rfl, ⟨c, ?_, written⟩,
      (course.fails e).mp rfl⟩
    rw [split]
    exact List.mem_append_left _ hc

end ContractSurface
