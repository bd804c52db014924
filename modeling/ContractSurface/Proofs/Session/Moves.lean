import ContractSurface.Proofs.Call.Invocation
import ContractSurface.Proofs.Session.Effects

/-! # The moves of a session

A step first takes an answer, if its stage waits for one, and then makes a move: it says something
and goes on to a stage. What the move is depends on the answer and not on the console, so sessions
with different consoles can be followed side by side.
-/
namespace ContractSurface

/-- What a step shows: nothing, a text, or a text and then a prompt. -/
inductive Speech where
  | silent
  | tells (text : String)
  | asks (text promptText : String)
  deriving DecidableEq, Repr

namespace Speech

def written : Speech → List UInt8
  | .silent => []
  | .tells text => Text.utf8 text
  | .asks text _ => Text.utf8 text

def isAsk : Speech → Bool
  | .asks _ _ => true
  | _ => false

end Speech

structure Move where
  speech : Speech
  next : Stage
  contract : DryRun
  summary : Summary

namespace SessionState

variable {σ : Session} {s : SessionState}

/-- The move that is made at the stage of a state, after the given answer if the stage waits. -/
def move (σ : Session) (s : SessionState) (line : Option String) : Move :=
  match s.stage with
  | .menu => ⟨.asks σ.menuText menuPrompt, .choosing, s.contract, s.summary⟩
  | .choosing =>
    match line with
    | none => ⟨.silent, .leaving, s.contract, s.summary⟩
    | some line =>
      match σ.menu.select? line with
      | some item => ⟨.silent, stageOfAction σ.interface item.action, s.contract, s.summary⟩
      | none => ⟨.tells (σ.invalidOptionText line), .menu, s.contract, s.summary⟩
  | .collecting k arguments =>
    match σ.interface.operations[k]? with
    | none => ⟨.silent, .menu, s.contract, s.summary⟩
    | some o =>
      match o.parameters[arguments.length]? with
      | none => ⟨.silent, .dispatching k arguments, s.contract, s.summary⟩
      | some p =>
        let q := Question.ofParameter σ.options.choiceRules p
        ⟨.asks (q.introduction p) (q.prompt p), .answering k arguments p q, s.contract, s.summary⟩
  | .answering k arguments p q =>
    match line with
    | none => ⟨.silent, .leaving, s.contract, s.summary⟩
    | some line =>
      match q.interpret p line with
      | .ok a => ⟨.silent, .collecting k (arguments ++ [a]), s.contract, s.summary⟩
      | .error (.inputClosed _) => ⟨.silent, .leaving, s.contract, s.summary⟩
      | .error e =>
        match σ.interface.operations[k]? with
        | none => ⟨.silent, .menu, s.contract, s.summary⟩
        | some o => ⟨.tells (Session.rejectedAnswerText o e), .menu, s.contract, s.summary⟩
  | .dispatching k arguments =>
    match σ.interface.operations[k]? with
    | none => ⟨.silent, .menu, s.contract, s.summary⟩
    | some o =>
      let invoked := σ.capabilities.invoke o.name arguments s.contract
      ⟨.silent, .reporting k invoked.1, invoked.2,
        { s.summary with dispatched := s.summary.dispatched + 1 }⟩
  | .reporting k result =>
    let counted := if result.isOk then
        { s.summary with succeeded := s.summary.succeeded + 1 }
      else { s.summary with failed := s.summary.failed + 1 }
    match σ.interface.operations[k]? with
    | none => ⟨.silent, .menu, s.contract, counted⟩
    | some o => ⟨.tells (σ.resultText o result), .menu, s.contract, counted⟩
  | .showingState => ⟨.tells (σ.stateText s.contract.ledgerState), .menu, s.contract, s.summary⟩
  | .leaving => ⟨.tells "Goodbye.\n", .ended none, s.contract, s.summary⟩
  | .ended fault => ⟨.silent, .ended fault, s.contract, s.summary⟩

def hear (s : SessionState) : Option String × Console :=
  if s.stage.waits then s.console.receive else (none, s.console)

def perform (m : Move) (c : Console) : SessionState :=
  let s : SessionState := ⟨m.next, c, m.contract, m.summary⟩
  match m.speech with
  | .silent => s
  | .tells text => s.say text m.next
  | .asks text promptText => s.after (c.writeAndAsk text promptText) m.next

theorem choose_eq (σ : Session) (c : Console) (contract : DryRun) (summary : Summary) :
    choose σ ⟨.choosing, c, contract, summary⟩ =
      perform (move σ ⟨.choosing, c, contract, summary⟩ c.receive.1) c.receive.2 := by
  unfold choose move
  cases hr : c.receive with
  | mk line d =>
    cases line with
    | none => rfl
    | some line =>
      dsimp only
      cases σ.menu.select? line <;> rfl

theorem collectNext_eq (σ : Session) (c : Console) (contract : DryRun) (summary : Summary) (k : Nat)
    (arguments : List Argument) :
    collectNext σ ⟨.collecting k arguments, c, contract, summary⟩ k arguments =
      perform (move σ ⟨.collecting k arguments, c, contract, summary⟩ none) c := by
  unfold collectNext move
  dsimp only
  cases σ.interface.operations[k]? with
  | none => rfl
  | some o =>
    dsimp only
    cases o.parameters[arguments.length]? <;> rfl

theorem answer_eq (σ : Session) (c : Console) (contract : DryRun) (summary : Summary) (k : Nat)
    (arguments : List Argument) (p : Parameter) (q : Question) :
    answer σ ⟨.answering k arguments p q, c, contract, summary⟩ k arguments p q =
      perform (move σ ⟨.answering k arguments p q, c, contract, summary⟩ c.receive.1)
        c.receive.2 := by
  unfold answer move Question.take
  cases hr : c.receive with
  | mk line d =>
    cases line with
    | none => rfl
    | some line =>
      dsimp only
      cases q.interpret p line with
      | ok a => rfl
      | error e =>
        cases e with
        | inputClosed name => rfl
        | _ =>
          dsimp only
          cases σ.interface.operations[k]? <;> rfl

theorem dispatch_eq (σ : Session) (c : Console) (contract : DryRun) (summary : Summary) (k : Nat)
    (arguments : List Argument) :
    dispatch σ ⟨.dispatching k arguments, c, contract, summary⟩ k arguments =
      perform (move σ ⟨.dispatching k arguments, c, contract, summary⟩ none) c := by
  unfold dispatch move
  dsimp only
  cases σ.interface.operations[k]? <;> rfl

theorem report_eq (σ : Session) (c : Console) (contract : DryRun) (summary : Summary) (k : Nat)
    (result : Except InvocationError CallOutcome) :
    report σ ⟨.reporting k result, c, contract, summary⟩ k result =
      perform (move σ ⟨.reporting k result, c, contract, summary⟩ none) c := by
  unfold report move
  dsimp only
  cases σ.interface.operations[k]? <;> rfl

/-- A step is a move after what is heard. -/
theorem step_eq (σ : Session) (s : SessionState) :
    s.step σ = perform (s.move σ s.hear.1) s.hear.2 := by
  obtain ⟨stage, c, contract, summary⟩ := s
  cases stage with
  | menu => rfl
  | choosing => exact choose_eq σ c contract summary
  | collecting k arguments => exact collectNext_eq σ c contract summary k arguments
  | answering k arguments p q => exact answer_eq σ c contract summary k arguments p q
  | dispatching k arguments => exact dispatch_eq σ c contract summary k arguments
  | reporting k result => exact report_eq σ c contract summary k result
  | showingState => rfl
  | leaving => rfl
  | ended fault => rfl

end SessionState

namespace Console

structure Sound (c : Console) : Prop where
  room : c.room = none
  input : c.inputFailsAt = none

def said (c : Console) : Speech → Console
  | .silent => c
  | .tells text => { c with out := c.out ++ Text.utf8 text }
  | .asks text promptText => { c with out := c.out ++ Text.utf8 text, asked := some promptText }

variable {c : Console}

theorem Sound.said (h : c.Sound) (v : Speech) : (c.said v).Sound := by
  cases v <;> exact ⟨h.room, h.input⟩

theorem Sound.receive (h : c.Sound) : c.receive.2.Sound := by
  unfold Console.receive
  split <;> exact ⟨h.room, h.input⟩

@[simp] theorem exchanges_said (c : Console) (v : Speech) :
    (c.said v).exchanges = c.exchanges := by
  cases v <;> rfl

theorem written_said (c : Console) (v : Speech) :
    (c.said v).written = c.written ++ v.written := by
  cases v <;> simp [Console.said, Console.written, Speech.written]

theorem written_receive (c : Console) : c.receive.2.written = c.written := by
  unfold receive
  split <;> simp [written, finish]

/-- The exchange that ends when the waiting prompt gets its answer. -/
theorem exists_exchanges_receive (c : Console) :
    ∃ reply, c.receive.2.exchanges = c.exchanges ++ [⟨c.out, c.asked.getD "", reply⟩] := by
  rcases c.receive_cases with ⟨d, hr, hes⟩ | ⟨line, d, hr, hes⟩
  · exact ⟨_, by rw [hr, hes]⟩
  · exact ⟨_, by rw [hr, hes]⟩

end Console

namespace SessionState

variable {σ : Session} {s t : SessionState}

theorem perform_of_sound {c : Console} (h : c.Sound) (m : Move) :
    perform m c = ⟨m.next, c.said m.speech, m.contract, m.summary⟩ := by
  unfold perform
  cases m.speech with
  | silent => rfl
  | tells text => simp [say, after, Console.write, h.room, Console.said]
  | asks text promptText =>
    simp [after, Console.writeAndAsk, Console.write, Console.ask, h.room, h.input, Console.said]

theorem sound_hear (h : s.console.Sound) : s.hear.2.Sound := by
  unfold hear
  split
  · exact h.receive
  · exact h

theorem step_of_sound (h : s.console.Sound) :
    s.step σ =
      let m := s.move σ s.hear.1
      ⟨m.next, s.hear.2.said m.speech, m.contract, m.summary⟩ := by
  rw [step_eq, perform_of_sound (sound_hear h)]

theorem sound_step (h : s.console.Sound) : (s.step σ).console.Sound := by
  rw [step_of_sound h]
  exact (sound_hear h).said _

theorem Reaches.sound (hr : Reaches σ s t) (h : s.console.Sound) : t.console.Sound := by
  induction hr with
  | refl => exact h
  | step _ ih => exact sound_step ih

theorem written_hear (s : SessionState) : s.hear.2.written = s.console.written := by
  unfold hear
  split
  · exact s.console.written_receive
  · rfl

theorem exchanges_hear (s : SessionState) : s.console.exchanges <+: s.hear.2.exchanges := by
  unfold hear
  split
  · obtain ⟨reply, he⟩ := s.console.exists_exchanges_receive
    rw [he]
    exact List.prefix_append _ _
  · exact List.prefix_rfl

theorem written_step (h : s.console.Sound) :
    (s.step σ).console.written = s.console.written ++ (s.move σ s.hear.1).speech.written := by
  rw [step_of_sound h, Console.written_said, written_hear]

section Change

variable {f : Console → Console}

/-- A change of the console that does not touch the next answer does not touch what is heard. -/
theorem hear_change (hear : s.stage.waits = true →
      (f s.console).receive = (s.console.receive.1, f s.console.receive.2)) :
    SessionState.hear { s with console := f s.console } = (s.hear.1, f s.hear.2) := by
  unfold SessionState.hear
  by_cases waits : s.stage.waits = true
  · rw [if_pos waits, if_pos waits]
    exact hear waits
  · rw [if_neg waits, if_neg waits]

/-- Nor does it touch the step, on consoles that never break. -/
theorem step_change (h : s.console.Sound) (hf : (f s.console).Sound)
    (hear : s.stage.waits = true →
      (f s.console).receive = (s.console.receive.1, f s.console.receive.2))
    (said : ∀ c v, (f c).said v = f (c.said v)) :
    step σ { s with console := f s.console } =
      { s.step σ with console := f (s.step σ).console } := by
  have changed : SessionState.hear { s with console := f s.console } = (s.hear.1, f s.hear.2) :=
    hear_change hear
  have other : step σ { s with console := f s.console } = _ := step_of_sound hf
  rw [other, step_of_sound h, changed]
  dsimp only
  rw [said]
  rfl

end Change

/-- What a state does after what it hears: it goes on with the work of its stage, it takes its
leave, or it comes back to the menu. -/
inductive Moves (σ : Session) (s : SessionState) : Option String → Move → Prop where
  | opens {line : Option String} (stage : s.stage = .menu) :
      Moves σ s line ⟨.asks σ.menuText menuPrompt, .choosing, s.contract, s.summary⟩
  | selects {line : String} {item : MenuItem} {k : Nat} (stage : s.stage = .choosing)
      (selects : σ.menu.select? line = some item)
      (leads : stageOfAction σ.interface item.action = .collecting k []) :
      Moves σ s (some line) ⟨.silent, .collecting k [], s.contract, s.summary⟩
  | looks {line : String} {item : MenuItem} (stage : s.stage = .choosing)
      (selects : σ.menu.select? line = some item) (showState : item.action = .showState) :
      Moves σ s (some line) ⟨.silent, .showingState, s.contract, s.summary⟩
  | exits {line : String} {item : MenuItem} (stage : s.stage = .choosing)
      (selects : σ.menu.select? line = some item) (exit : item.action = .exit) :
      Moves σ s (some line) ⟨.silent, .leaving, s.contract, s.summary⟩
  | breaksOff (waits : s.stage.waits = true) :
      Moves σ s none ⟨.silent, .leaving, s.contract, s.summary⟩
  | asks {line : Option String} {k : Nat} {as : List Argument} {o : Operation} {p : Parameter}
      {q : Question} (stage : s.stage = .collecting k as)
      (operation : σ.interface.operations[k]? = some o)
      (parameter : o.parameters[as.length]? = some p)
      (question : Question.ofParameter σ.options.choiceRules p = q) :
      Moves σ s line
        ⟨.asks (q.introduction p) (q.prompt p), .answering k as p q, s.contract, s.summary⟩
  | accepts {line : String} {k : Nat} {as : List Argument} {p : Parameter} {q : Question}
      {a : Argument} (stage : s.stage = .answering k as p q) (read : q.interpret p line = .ok a) :
      Moves σ s (some line) ⟨.silent, .collecting k (as ++ [a]), s.contract, s.summary⟩
  | completes {line : Option String} {k : Nat} {as : List Argument} {o : Operation}
      (stage : s.stage = .collecting k as) (operation : σ.interface.operations[k]? = some o)
      (complete : o.parameters[as.length]? = none) :
      Moves σ s line ⟨.silent, .dispatching k as, s.contract, s.summary⟩
  | dispatches {line : Option String} {k : Nat} {as : List Argument} {o : Operation}
      (stage : s.stage = .dispatching k as) (operation : σ.interface.operations[k]? = some o) :
      Moves σ s line ⟨.silent, .reporting k (σ.capabilities.invoke o.name as s.contract).1,
        (σ.capabilities.invoke o.name as s.contract).2,
        { s.summary with dispatched := s.summary.dispatched + 1 }⟩
  | reports {line : Option String} {k : Nat} {result : Except InvocationError CallOutcome}
      {o : Operation} (stage : s.stage = .reporting k result)
      (operation : σ.interface.operations[k]? = some o) :
      Moves σ s line ⟨.tells (σ.resultText o result), .menu, s.contract,
        if result.isOk then { s.summary with succeeded := s.summary.succeeded + 1 }
        else { s.summary with failed := s.summary.failed + 1 }⟩
  -- no state of a session names an operation that is not there, so what is counted stays open
  | dropsReport {line : Option String} {k : Nat} {result : Except InvocationError CallOutcome}
      (summary : Summary) (stage : s.stage = .reporting k result)
      (missing : σ.interface.operations[k]? = none) :
      Moves σ s line ⟨.silent, .menu, s.contract, summary⟩
  -- a line that selects nothing, an answer that is refused, the ledger shown
  | returns {line : Option String} {speech : Speech} (quiet : speech.isAsk = false)
      (idle : ∀ k as, s.stage = .dispatching k as → σ.interface.operations[k]? = none)
      (unreported : ∀ k result, s.stage ≠ .reporting k result) :
      Moves σ s line ⟨speech, .menu, s.contract, s.summary⟩
  | takesLeave {line : Option String} (stage : s.stage = .leaving) :
      Moves σ s line ⟨.tells "Goodbye.\n", .ended none, s.contract, s.summary⟩
  | stays {line : Option String} {fault : Option Fault} (stage : s.stage = .ended fault) :
      Moves σ s line ⟨.silent, .ended fault, s.contract, s.summary⟩

/-- The selection of an entry leads to the stage of its action. -/
theorem moves_action {line : String} {item : MenuItem} (stage : s.stage = .choosing)
    (selects : σ.menu.select? line = some item) :
    Moves σ s (some line)
      ⟨.silent, stageOfAction σ.interface item.action, s.contract, s.summary⟩ := by
  cases action : item.action with
  | exit => exact .exits stage selects action
  | showState => exact .looks stage selects action
  | invoke name =>
    cases index : σ.interface.operationIndex? name with
    | none =>
      rw [stageOfAction, index]
      exact .returns rfl (by simp [stage]) (by simp [stage])
    | some k =>
      have leads : stageOfAction σ.interface (.invoke name) = .collecting k [] := by
        rw [stageOfAction, index]
      rw [leads]
      exact .selects stage selects (action ▸ leads)

/-- What a session does next is one of its moves. -/
theorem moves_move (σ : Session) (s : SessionState) (line : Option String) :
    Moves σ s line (s.move σ line) := by
  unfold move
  cases stage : s.stage with
  | menu => exact .opens stage
  | choosing =>
    cases line with
    | none => exact .breaksOff (by rw [stage]; rfl)
    | some line =>
      dsimp only
      cases selects : σ.menu.select? line with
      | none => exact .returns rfl (by simp [stage]) (by simp [stage])
      | some item => exact moves_action stage selects
  | collecting k arguments =>
    dsimp only
    cases operation : σ.interface.operations[k]? with
    | none => exact .returns rfl (by simp [stage]) (by simp [stage])
    | some o =>
      dsimp only
      cases parameter : o.parameters[arguments.length]? with
      | none => exact .completes stage operation parameter
      | some p => exact .asks stage operation parameter rfl
  | answering k arguments p q =>
    cases line with
    | none => exact .breaksOff (by rw [stage]; rfl)
    | some line =>
      dsimp only
      cases read : q.interpret p line with
      | ok a => exact .accepts stage read
      | error e =>
        cases e with
        | inputClosed name => exact absurd read (Question.interpret_ne_inputClosed p line name q)
        | _ =>
          dsimp only
          cases σ.interface.operations[k]? with
          | none => exact .returns rfl (by simp [stage]) (by simp [stage])
          | some o => exact .returns rfl (by simp [stage]) (by simp [stage])
  | dispatching k arguments =>
    dsimp only
    cases operation : σ.interface.operations[k]? with
    | none =>
      refine .returns rfl (fun k' as h => ?_) (by simp [stage])
      cases stage.symm.trans h
      exact operation
    | some o => exact .dispatches stage operation
  | reporting k result =>
    dsimp only
    cases operation : σ.interface.operations[k]? with
    | none => exact .dropsReport _ stage operation
    | some o => exact .reports stage operation
  | showingState => exact .returns rfl (by simp [stage]) (by simp [stage])
  | leaving => exact .takesLeave stage
  | ended fault => exact .stays stage

/-- Without an answer to its prompt a state takes its leave. -/
theorem move_none (waits : s.stage.waits = true) :
    s.move σ none = ⟨.silent, .leaving, s.contract, s.summary⟩ := by
  unfold move
  cases stage : s.stage with
  | choosing => rfl
  | answering k as p q => rfl
  | _ =>
    rw [stage] at waits
    cases waits

/-- A prompt is shown by moves to the stages that wait, and not after an answer; recorded calls
stay; no move leads to a fault. -/
structure MoveKeeps (s : SessionState) (m : Move) : Prop where
  waits : m.next.waits = m.speech.isAsk
  answered : s.stage.waits = true → m.speech.isAsk = false
  calls : s.contract.calls <+: m.contract.calls
  fault : ∀ f, m.next = .ended (some f) → s.stage = .ended (some f)

theorem moveKeeps_quiet {m : Move} (waits : m.next.waits = false) (ask : m.speech.isAsk = false)
    (calls : s.contract.calls <+: m.contract.calls) (fault : ∀ f, m.next ≠ .ended (some f)) :
    MoveKeeps s m :=
  ⟨waits.trans ask.symm, fun _ => ask, calls, fun f h => absurd h (fault f)⟩

theorem moveKeeps_asks {m : Move} (stage : s.stage.waits = false) (waits : m.next.waits = true)
    (ask : m.speech.isAsk = true) (calls : s.contract.calls <+: m.contract.calls)
    (fault : ∀ f, m.next ≠ .ended (some f)) : MoveKeeps s m :=
  ⟨waits.trans ask.symm, fun h => absurd (stage.symm.trans h) (by simp), calls,
    fun f h => absurd h (fault f)⟩

theorem calls_invoke (table : Capabilities) (name : String) (arguments : List Argument)
    (d : DryRun) : d.calls <+: (table.invoke name arguments d).2.calls := by
  cases hl : table.lookup name with
  | none => simp [Capabilities.invoke, hl]
  | some mutates =>
    rcases Capabilities.calls_invoke hl arguments d with same | taken
    · exact same ▸ List.prefix_rfl
    · exact taken ▸ List.prefix_append _ _

theorem Moves.keeps {line : Option String} {m : Move} (h : Moves σ s line m) : MoveKeeps s m := by
  have kept : s.contract.calls <+: s.contract.calls := List.prefix_rfl
  cases h with
  | opens stage => exact moveKeeps_asks (by rw [stage]; rfl) rfl rfl kept (by simp)
  | asks stage => exact moveKeeps_asks (by rw [stage]; rfl) rfl rfl kept (by simp)
  | dispatches => exact moveKeeps_quiet rfl rfl (calls_invoke _ _ _ _) (by simp)
  | returns quiet => exact moveKeeps_quiet rfl quiet kept (by simp)
  | stays stage => exact ⟨rfl, fun _ => rfl, kept, fun f h => stage.trans h⟩
  | _ => exact moveKeeps_quiet rfl rfl kept (by simp)

theorem moveKeeps_move (σ : Session) (s : SessionState) (line : Option String) :
    MoveKeeps s (s.move σ line) :=
  (moves_move σ s line).keeps

structure Grows (s t : SessionState) : Prop where
  written : s.console.written <+: t.console.written
  exchanges : s.console.exchanges <+: t.console.exchanges
  calls : s.contract.calls <+: t.contract.calls

theorem Grows.refl (s : SessionState) : Grows s s :=
  ⟨List.prefix_rfl, List.prefix_rfl, List.prefix_rfl⟩

theorem Grows.trans {u : SessionState} (h : Grows s t) (h' : Grows t u) : Grows s u :=
  ⟨h.written.trans h'.written, h.exchanges.trans h'.exchanges, h.calls.trans h'.calls⟩

theorem grows_step (h : s.console.Sound) : Grows s (s.step σ) := by
  refine ⟨?_, ?_, ?_⟩
  · rw [written_step h]
    exact List.prefix_append _ _
  · rw [step_of_sound h]
    simpa using exchanges_hear s
  · rw [step_of_sound h]
    exact (moveKeeps_move σ s _).calls

theorem Reaches.grows (hr : Reaches σ s t) (h : s.console.Sound) : Grows s t := by
  induction hr with
  | refl => exact Grows.refl s
  | step hr ih => exact ih.trans (grows_step (hr.sound h))

theorem isEnded_run (σ : Session) (s : SessionState) : (run σ s).stage.isEnded = true := by
  induction s using run.induct σ with
  | case1 s ended => rwa [run, if_pos ended]
  | case2 s running ih => rwa [run, if_neg running]

theorem run_of_ended (h : s.stage.isEnded = true) : run σ s = s := by
  rw [run, if_pos h]

theorem run_of_running (h : ¬s.stage.isEnded = true) : run σ s = run σ (s.step σ) := by
  rw [run, if_neg h]

theorem run_step (σ : Session) (s : SessionState) : run σ (s.step σ) = run σ s := by
  by_cases ended : s.stage.isEnded = true
  · obtain ⟨fault, hf⟩ := Stage.exists_eq_ended ended
    rw [step_ended hf]
  · rw [← run_of_running ended]

theorem Reaches.run_eq (hr : Reaches σ s t) : run σ t = run σ s := by
  induction hr with
  | refl => rfl
  | step _ ih => rw [run_step, ih]

/-- A session on a console that never breaks ends well. -/
theorem result_run (h : s.console.Sound) (hs : ∀ f, s.stage ≠ .ended (some f)) :
    (run σ s).result = .ok (run σ s).summary := by
  have kept : ∀ t, Reaches σ s t → ∀ f, t.stage ≠ .ended (some f) := by
    intro t hr
    induction hr with
    | refl => exact hs
    | @step t hr ih =>
      intro f hf
      rw [step_of_sound (hr.sound h)] at hf
      exact ih f ((moveKeeps_move σ t _).fault f hf)
  have ended := kept _ (reaches_run σ s)
  unfold result
  split
  · next fault hf => exact absurd hf (ended fault)
  · rfl

end SessionState

end ContractSurface
