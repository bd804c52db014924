import ContractSurface.Call.Capabilities
import ContractSurface.Session.Collector
import ContractSurface.Session.Menu

/-! # Sessions

A session shows the menu, collects the parameters of the selected operation one by one, invokes it
and reports the outcome, until it is left or the input ends. Whatever goes wrong within one action
leads back to the menu; only a broken console ends the session with a fault.

The session is a machine whose stages are listed below. Two of them wait for a line of input and
every other one goes on by itself, so a run ends: each step uses up an answer or moves to a stage
of lower rank.
-/
namespace ContractSurface

structure Session where
  interface : Interface
  menu : Menu
  capabilities : Capabilities
  options : SessionOptions

def Session.ofInterface (i : Interface) (options : SessionOptions) : Session :=
  ⟨i, .ofInterface i, .bind i, options⟩

structure Summary where
  dispatched : Nat
  succeeded : Nat
  failed : Nat
  deriving DecidableEq, Repr

/-- Operations are named by their position in the interface. -/
inductive Stage where
  | menu
  | choosing
  | collecting (operation : Nat) (arguments : List Argument)
  | answering (operation : Nat) (arguments : List Argument) (p : Parameter) (q : Question)
  | dispatching (operation : Nat) (arguments : List Argument)
  | reporting (operation : Nat) (result : Except InvocationError CallOutcome)
  | showingState
  | leaving
  | ended (fault : Option Fault)

structure SessionState where
  stage : Stage
  console : Console
  contract : DryRun
  summary : Summary

def menuPrompt : String := "Select an option: "

namespace Session

def menuText (σ : Session) : String :=
  s!"\n{σ.interface.contractName} contract\n" ++
    String.join (σ.menu.map fun item => item.label ++ "\n")

def invalidOptionText (σ : Session) (line : String) : String :=
  s!"✗ Invalid option \"{Text.trimmed line}\", choose 1-{σ.menu.length}\n"

def rejectedAnswerText (o : Operation) (e : ParameterError) : String :=
  s!"✗ {o.name}: {e.message}\n"

def resultText (σ : Session) (o : Operation) : Except InvocationError CallOutcome → String
  | .ok (.receipt r) => s!"✓ {o.name} submitted: tx {r.transactionId} at block {r.blockHeight}\n"
  | .ok (.value j) => s!"✓ {o.name} returned: {j.compact}\n"
  | .error e =>
    s!"✗ {o.name} failed: {e.message}\n" ++
      match hintFor? σ.options.errorHints e.message with
      | some h => s!"  hint: {h.hint}\n"
      | none => ""

def stateLine (ledger : List (String × Json)) (v : StateVariable) : String :=
  let value := ((ledger.lookup v.name).map Json.compact).getD "<unavailable>"
  s!"  {v.name} ({v.declaredType}): {value}\n"

def stateText (σ : Session) (ledger : List (String × Json)) : String :=
  "Contract state:\n" ++ String.join (σ.interface.stateVariables.map (stateLine ledger))

end Session

namespace SessionState

/-- Goes on to a stage after an effect on the console, unless the effect failed. -/
def after (s : SessionState) (effect : Except Fault Unit × Console) (next : Stage) :
    SessionState :=
  match effect with
  | (.ok (), c) => { s with console := c, stage := next }
  | (.error fault, c) => { s with console := c, stage := .ended (some fault) }

def say (s : SessionState) (text : String) (next : Stage) : SessionState :=
  s.after (s.console.write text) next

def stageOfAction (i : Interface) : MenuAction → Stage
  | .exit => .leaving
  | .showState => .showingState
  | .invoke name =>
    match i.operationIndex? name with
    | some k => .collecting k []
    | none => .menu

def choose (σ : Session) (s : SessionState) : SessionState :=
  match s.console.receive with
  | (none, c) => { s with console := c, stage := .leaving }
  | (some line, c) =>
    let s := { s with console := c }
    match σ.menu.select? line with
    | some item => { s with stage := stageOfAction σ.interface item.action }
    | none => s.say (σ.invalidOptionText line) .menu

def collectNext (σ : Session) (s : SessionState) (k : Nat) (arguments : List Argument) :
    SessionState :=
  match σ.interface.operations[k]? with
  | none => { s with stage := .menu }
  | some o =>
    match o.parameters[arguments.length]? with
    | none => { s with stage := .dispatching k arguments }
    | some p =>
      let q := Question.ofParameter σ.options.choiceRules p
      s.after (q.put p s.console) (.answering k arguments p q)

def answer (σ : Session) (s : SessionState) (k : Nat) (arguments : List Argument)
    (p : Parameter) (q : Question) : SessionState :=
  let (result, c) := q.take p s.console
  let s := { s with console := c }
  match result with
  | .ok a => { s with stage := .collecting k (arguments ++ [a]) }
  | .error (.inputClosed _) => { s with stage := .leaving }
  | .error e =>
    match σ.interface.operations[k]? with
    | none => { s with stage := .menu }
    | some o => s.say (Session.rejectedAnswerText o e) .menu

def dispatch (σ : Session) (s : SessionState) (k : Nat) (arguments : List Argument) :
    SessionState :=
  match σ.interface.operations[k]? with
  | none => { s with stage := .menu }
  | some o =>
    let (result, contract) := σ.capabilities.invoke o.name arguments s.contract
    { s with
      stage := .reporting k result
      contract := contract
      summary := { s.summary with dispatched := s.summary.dispatched + 1 } }

def report (σ : Session) (s : SessionState) (k : Nat)
    (result : Except InvocationError CallOutcome) : SessionState :=
  let counted := if result.isOk then
      { s.summary with succeeded := s.summary.succeeded + 1 }
    else { s.summary with failed := s.summary.failed + 1 }
  let s := { s with summary := counted }
  match σ.interface.operations[k]? with
  | none => { s with stage := .menu }
  | some o => s.say (σ.resultText o result) .menu

def step (σ : Session) (s : SessionState) : SessionState :=
  match s.stage with
  | .menu => s.after (s.console.writeAndAsk σ.menuText menuPrompt) .choosing
  | .choosing => s.choose σ
  | .collecting k arguments => s.collectNext σ k arguments
  | .answering k arguments p q => s.answer σ k arguments p q
  | .dispatching k arguments => s.dispatch σ k arguments
  | .reporting k result => s.report σ k result
  | .showingState => s.say (σ.stateText s.contract.ledgerState) .menu
  | .leaving => s.say "Goodbye.\n" (.ended none)
  | .ended _ => s

end SessionState

namespace Stage

def isEnded : Stage → Bool
  | .ended _ => true
  | _ => false

def waits : Stage → Bool
  | .choosing => true
  | .answering _ _ _ _ => true
  | _ => false

/-- Stages that follow each other without input go down in rank. -/
def rank : Stage → Nat
  | .collecting _ _ => 7
  | .dispatching _ _ => 6
  | .showingState => 6
  | .reporting _ _ => 5
  | .menu => 4
  | .choosing => 3
  | .answering _ _ _ _ => 3
  | .leaving => 2
  | .ended _ => 1

end Stage

theorem Console.answers_write (c : Console) (text : String) :
    (c.write text).2.answers = c.answers := by
  unfold Console.write; split <;> rfl

theorem Console.answers_ask (c : Console) (text : String) :
    (c.ask text).2.answers = c.answers := by
  unfold Console.ask; split <;> rfl

theorem Console.answers_writeAndAsk (c : Console) (text promptText : String) :
    (c.writeAndAsk text promptText).2.answers = c.answers := by
  have written := c.answers_write text
  unfold Console.writeAndAsk
  split
  · next d heq => rw [heq] at written; rw [Console.answers_ask]; exact written
  · next d heq => rw [heq] at written; exact written

theorem Console.answers_of_receive_none {c d : Console} (h : c.receive = (none, d)) :
    c.answers = [] ∧ d.answers = [] := by
  unfold Console.receive at h
  split at h
  · next empty => cases h; exact ⟨empty, empty⟩
  · cases h

theorem Console.answers_of_receive_some {c d : Console} {line : String}
    (h : c.receive = (some line, d)) : c.answers = line :: d.answers := by
  unfold Console.receive at h
  split at h
  · cases h
  · next answers => cases h; exact answers

namespace SessionState

/-- How much is left to do: the unread answers, and then the rank of the stage. -/
def measure (s : SessionState) : Nat × Nat := (s.console.answers.length, s.stage.rank)

abbrev Before (a b : Nat × Nat) : Prop := Prod.Lex (· < ·) (· < ·) a b

theorem before_of_rank {s t : SessionState} (answers : t.console.answers = s.console.answers)
    (rank : t.stage.rank < s.stage.rank) : Before t.measure s.measure := by
  simp only [measure, answers]
  exact Prod.Lex.right _ rank

theorem before_of_answers {s t : SessionState}
    (answers : t.console.answers.length < s.console.answers.length) :
    Before t.measure s.measure :=
  Prod.Lex.left _ _ answers

theorem answers_after (s : SessionState) (effect : Except Fault Unit × Console) (next : Stage) :
    (s.after effect next).console.answers = effect.2.answers := by
  unfold after; split <;> rfl

theorem answers_say (s : SessionState) (text : String) (next : Stage) :
    (s.say text next).console.answers = s.console.answers := by
  rw [say, answers_after, Console.answers_write]

theorem rank_after_le (s : SessionState) (effect : Except Fault Unit × Console) (next : Stage) :
    (s.after effect next).stage.rank ≤ max next.rank 1 := by
  unfold after
  split
  · exact Nat.le_max_left _ _
  · exact Nat.le_max_right _ _

theorem before_choose (σ : Session) (s : SessionState) (stage : s.stage = .choosing) :
    Before (s.choose σ).measure s.measure := by
  unfold choose
  split
  · next c heq =>
    have ⟨before, after⟩ := Console.answers_of_receive_none heq
    exact before_of_rank (by simp [before, after]) (by simp [stage, Stage.rank])
  · next line c heq =>
    have answers := Console.answers_of_receive_some heq
    apply before_of_answers
    simp only
    split
    · simp [answers]
    · rw [answers_say]; simp [answers]

theorem before_collectNext (σ : Session) (s : SessionState) (k : Nat) (arguments : List Argument)
    (stage : s.stage = .collecting k arguments) :
    Before (s.collectNext σ k arguments).measure s.measure := by
  unfold collectNext
  split
  · exact before_of_rank rfl (by simp [stage, Stage.rank])
  · split
    · exact before_of_rank rfl (by simp [stage, Stage.rank])
    · refine before_of_rank ?_ ?_
      · rw [answers_after, Question.put, Console.answers_writeAndAsk]
      · have := rank_after_le s
        rw [stage]
        exact Nat.lt_of_le_of_lt (this _ _) (by simp [Stage.rank])

theorem before_answer (σ : Session) (s : SessionState) (k : Nat) (arguments : List Argument)
    (p : Parameter) (q : Question) (stage : s.stage = .answering k arguments p q) :
    Before (s.answer σ k arguments p q).measure s.measure := by
  match hr : s.console.receive with
  | (none, c) =>
    have ⟨before, after⟩ := Console.answers_of_receive_none hr
    simp only [answer, Question.take, hr]
    exact before_of_rank (by simp [before, after]) (by simp [stage, Stage.rank])
  | (some line, c) =>
    have answers := Console.answers_of_receive_some hr
    have shorter : c.answers.length < s.console.answers.length := by simp [answers]
    apply before_of_answers
    simp only [answer, Question.take, hr]
    split
    · exact shorter
    · exact shorter
    · split
      · exact shorter
      · rw [answers_say]; exact shorter

/-- A step of a running session leaves less to do. -/
theorem before_step (σ : Session) (s : SessionState) (running : s.stage.isEnded = false) :
    Before (s.step σ).measure s.measure := by
  unfold step
  split
  · next stage =>
    refine before_of_rank ?_ ?_
    · rw [answers_after, Console.answers_writeAndAsk]
    · rw [stage]; exact Nat.lt_of_le_of_lt (rank_after_le _ _ _) (by simp [Stage.rank])
  · next stage => exact before_choose σ s stage
  · next k arguments stage => exact before_collectNext σ s k arguments stage
  · next k arguments p q stage => exact before_answer σ s k arguments p q stage
  · next k arguments stage =>
    unfold dispatch
    split <;> exact before_of_rank rfl (by simp [stage, Stage.rank])
  · next k result stage =>
    unfold report
    simp only
    split
    · exact before_of_rank rfl (by simp [stage, Stage.rank])
    · refine before_of_rank (answers_say _ _ _) ?_
      rw [stage]; exact Nat.lt_of_le_of_lt (rank_after_le _ _ _) (by simp [Stage.rank])
  · next stage =>
    refine before_of_rank (answers_say _ _ _) ?_
    rw [stage]; exact Nat.lt_of_le_of_lt (rank_after_le _ _ _) (by simp [Stage.rank])
  · next stage =>
    refine before_of_rank (answers_say _ _ _) ?_
    rw [stage]; exact Nat.lt_of_le_of_lt (rank_after_le _ _ _) (by simp [Stage.rank])
  · next stage => simp [stage, Stage.isEnded] at running

def run (σ : Session) (s : SessionState) : SessionState :=
  if s.stage.isEnded then s else run σ (s.step σ)
termination_by s.measure
decreasing_by next h => exact before_step σ s (by simpa using h)

def start (console : Console) (contract : DryRun) : SessionState :=
  ⟨.menu, console, contract, ⟨0, 0, 0⟩⟩

def result (s : SessionState) : Except Fault Summary :=
  match s.stage with
  | .ended (some fault) => .error fault
  | _ => .ok s.summary

end SessionState

end ContractSurface
