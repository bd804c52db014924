import ContractSurface.Proofs.Session.Input

/-! # The accounts of a session

A session counts what it dispatches and what came of it, the contract records the calls that it
takes, and the output has a report of each outcome. The three agree after every step, whatever the
console does, and when a session ends well its reports are those of its dispatches, in their order.
-/
namespace ContractSurface

def Stage.isReporting : Stage → Bool
  | .reporting _ _ => true
  | _ => false

def Stage.reportsSuccess : Stage → Bool
  | .reporting _ result => result.isOk
  | _ => false

/-- The report of a call that was taken, at the height that the contract has after it. -/
def callLine (height : Nat) (c : RecordedCall) : String :=
  if c.isTransaction then
    s!"✓ {c.name} submitted: tx {DryRun.transactionId height c.name} at block {height}\n"
  else s!"✓ {c.name} returned: null\n"

def callLines (d : DryRun) : List RecordedCall → List String
  | [] => []
  | c :: cs => callLine (d.taking c).blockHeight c :: callLines (d.taking c) cs

theorem callLines_append (d : DryRun) (cs : List RecordedCall) (c : RecordedCall) :
    callLines d (cs ++ [c]) =
      callLines d cs ++ [callLine ((cs.foldl DryRun.taking d).taking c).blockHeight c] := by
  induction cs generalizing d with
  | nil => rfl
  | cons b cs ih =>
    rw [List.cons_append, callLines, callLines, ih, List.foldl_cons, List.cons_append]

theorem length_callLines (d : DryRun) (cs : List RecordedCall) :
    (callLines d cs).length = cs.length := by
  induction cs generalizing d with
  | nil => rfl
  | cons c cs ih => rw [callLines, List.length_cons, ih, List.length_cons]

theorem calls_foldl_taking (d : DryRun) (cs : List RecordedCall) :
    (cs.foldl DryRun.taking d).calls = d.calls ++ cs := by
  induction cs generalizing d with
  | nil => simp
  | cons c cs ih =>
    rw [List.foldl_cons, ih]
    simp [DryRun.taking]

/-- A contract refuses an invocation and stays as it is, or it takes a call of that name, and the
outcome tells how it stands afterwards. -/
theorem Capabilities.invoke_cases (table : Capabilities) (name : String)
    (arguments : List Argument) (d : DryRun) :
    (∃ e, table.invoke name arguments d = (.error e, d)) ∨
    (∃ c : RecordedCall, c.name = name ∧ c.isTransaction = true ∧
      table.invoke name arguments d =
        (.ok (.receipt ⟨DryRun.transactionId (d.taking c).blockHeight name,
          (d.taking c).blockHeight⟩), d.taking c)) ∨
    ∃ c : RecordedCall, c.name = name ∧ c.isTransaction = false ∧
      table.invoke name arguments d = (.ok (.value .null), d.taking c) := by
  unfold invoke
  cases table.lookup name with
  | none => exact .inl ⟨_, rfl⟩
  | some mutates =>
    cases refused : d.refusal? name with
    | some e =>
      left
      cases mutates with
      | true => exact ⟨e, by simp [DryRun.callTx, refused, Except.map]⟩
      | false => exact ⟨e, by simp [DryRun.query, refused, Except.map]⟩
    | none =>
      right
      cases mutates with
      | true =>
        refine .inl ⟨⟨name, arguments, true⟩, rfl, rfl, ?_⟩
        simp [DryRun.callTx, refused, Except.map, Receipt.ofTransaction]
      | false =>
        refine .inr ⟨⟨name, arguments, false⟩, rfl, rfl, ?_⟩
        simp [DryRun.query, refused, Except.map]

/-- An operation that was invoked, and what came of it. -/
structure Dispatch where
  operation : Operation
  result : Except InvocationError CallOutcome

def Dispatch.text (σ : Session) (d : Dispatch) : String := σ.resultText d.operation d.result

def Dispatch.succeeded (d : Dispatch) : Bool := d.result.isOk

/-- A call that is taken is recorded and reported at its own height. -/
theorem text_of_invoke {σ : Session} {o : Operation} {arguments : List Argument} {d d' : DryRun}
    {outcome : CallOutcome}
    (h : σ.capabilities.invoke o.name arguments d = (.ok outcome, d')) :
    ∃ c : RecordedCall, d' = d.taking c ∧ c.name = o.name ∧
      σ.resultText o (.ok outcome) = callLine d'.blockHeight c := by
  rcases σ.capabilities.invoke_cases o.name arguments d with
    ⟨e, refused⟩ | ⟨c, name, tx, taken⟩ | ⟨c, name, tx, taken⟩
  · rw [refused] at h
    cases h
  · rw [taken] at h
    cases h
    refine ⟨c, rfl, name, ?_⟩
    rw [callLine, if_pos tx, name]
    rfl
  · rw [taken] at h
    cases h
    refine ⟨c, rfl, name, ?_⟩
    have null : Json.null.compact = "null" := rfl
    have returned : " returned: null\n" = " returned: " ++ "null" ++ "\n" := by decide +kernel
    have shown : ∀ s : String, toString s = s := fun _ => rfl
    rw [callLine, if_neg (by simp [tx]), name, returned]
    unfold Session.resultText
    simp only [null, shown, String.append_assoc]

namespace SessionState

variable {σ : Session} {s t u : SessionState}

structure Utterance where
  stage : Stage
  speech : Speech

def utterance (σ : Session) (u : SessionState) : Utterance :=
  ⟨u.stage, (u.move σ u.hear.1).speech⟩

def dispatch? (σ : Session) (u : SessionState) : Option Dispatch :=
  match u.stage with
  | .dispatching k arguments => σ.interface.operations[k]?.map fun o =>
      ⟨o, (σ.capabilities.invoke o.name arguments u.contract).1⟩
  | _ => none

def waiting (σ : Session) (u : SessionState) : List Dispatch :=
  match u.stage with
  | .reporting k result => (σ.interface.operations[k]?.map fun o => ⟨o, result⟩).toList
  | _ => []

def utterances (σ : Session) (s : SessionState) (n : Nat) : List Utterance :=
  (List.range n).map fun j => utterance σ (Nat.repeat (step σ) j s)

def reports (σ : Session) (s : SessionState) (n : Nat) : List Speech :=
  ((utterances σ s n).filter (·.stage.isReporting)).map (·.speech)

def dispatches (σ : Session) (s : SessionState) (n : Nat) : List Dispatch :=
  (List.range n).filterMap fun j => dispatch? σ (Nat.repeat (step σ) j s)

theorem utterances_succ (σ : Session) (s : SessionState) (n : Nat) :
    utterances σ s (n + 1) = utterances σ s n ++ [utterance σ (Nat.repeat (step σ) n s)] := by
  rw [utterances, List.range_succ, List.map_append]
  rfl

theorem dispatches_succ (σ : Session) (s : SessionState) (n : Nat) :
    dispatches σ s (n + 1) =
      dispatches σ s n ++ (dispatch? σ (Nat.repeat (step σ) n s)).toList := by
  rw [dispatches, List.range_succ, List.filterMap_append, dispatches, List.filterMap_cons,
    List.filterMap_nil]
  cases dispatch? σ (Nat.repeat (step σ) n s) <;> rfl

theorem reports_succ (σ : Session) (s : SessionState) (n : Nat) :
    reports σ s (n + 1) = reports σ s n ++
      if (Nat.repeat (step σ) n s).stage.isReporting then
        [(utterance σ (Nat.repeat (step σ) n s)).speech] else [] := by
  have stage : (utterance σ (Nat.repeat (step σ) n s)).stage = (Nat.repeat (step σ) n s).stage :=
    rfl
  rw [reports, utterances_succ, List.filter_append, List.map_append, reports, List.filter_cons,
    stage]
  split <;> rfl

theorem written_write {c d : Console} {text : String} (h : c.write text = (.ok (), d)) :
    d.written = c.written ++ Text.utf8 text := by
  unfold Console.write at h
  cases hr : c.room with
  | none =>
    rw [hr] at h
    cases h
    simp [Console.written]
  | some n =>
    rw [hr] at h
    dsimp only at h
    split at h
    · next fits =>
      cases h
      simp [Console.written, List.take_of_length_le fits]
    · cases h

theorem written_writeAndAsk {c d : Console} {text promptText : String}
    (h : c.writeAndAsk text promptText = (.ok (), d)) : d.written = c.written ++ Text.utf8 text := by
  unfold Console.writeAndAsk at h
  split at h
  · next e written =>
    rw [← written_write written]
    unfold Console.ask at h
    split at h
    · cases h
    · cases h
      rfl
  · cases h

/-- A move lands on its stage with all it says written, or the console breaks while it is said. -/
theorem perform_cases (m : Move) (c : Console) :
    ∃ stage d, perform m c = ⟨stage, d, m.contract, m.summary⟩ ∧
      (stage = m.next ∧ d.written = c.written ++ m.speech.written ∨
        m.speech ≠ .silent ∧ ∃ fault, stage = .ended (some fault)) := by
  unfold perform
  cases m.speech with
  | silent => exact ⟨_, _, rfl, .inl ⟨rfl, by simp [Speech.written]⟩⟩
  | tells text =>
    unfold say after
    dsimp only
    cases written : c.write text with
    | mk answer d =>
      cases answer with
      | ok _ => exact ⟨_, _, rfl, .inl ⟨rfl, written_write written⟩⟩
      | error fault => exact ⟨_, _, rfl, .inr ⟨by simp, fault, rfl⟩⟩
  | asks text promptText =>
    unfold after
    dsimp only
    cases written : c.writeAndAsk text promptText with
    | mk answer d =>
      cases answer with
      | ok _ => exact ⟨_, _, rfl, .inl ⟨rfl, written_writeAndAsk written⟩⟩
      | error fault => exact ⟨_, _, rfl, .inr ⟨by simp, fault, rfl⟩⟩

/-- A move that dispatches, one that reports, and any other. -/
inductive Books (σ : Session) (u : SessionState) : Move → Prop where
  | dispatches {k : Nat} {as : List Argument} {o : Operation} (stage : u.stage = .dispatching k as)
      (operation : σ.interface.operations[k]? = some o) :
      Books σ u ⟨.silent, .reporting k (σ.capabilities.invoke o.name as u.contract).1,
        (σ.capabilities.invoke o.name as u.contract).2,
        { u.summary with dispatched := u.summary.dispatched + 1 }⟩
  | reports {k : Nat} {result : Except InvocationError CallOutcome} {o : Operation}
      (stage : u.stage = .reporting k result) (operation : σ.interface.operations[k]? = some o) :
      Books σ u ⟨.tells (σ.resultText o result), .menu, u.contract,
        if result.isOk then { u.summary with succeeded := u.summary.succeeded + 1 }
        else { u.summary with failed := u.summary.failed + 1 }⟩
  | other {m : Move} (dispatch : dispatch? σ u = none) (report : u.stage.isReporting = false)
      (next : m.next.isReporting = false) (contract : m.contract = u.contract)
      (summary : m.summary = u.summary) : Books σ u m

theorem Books.aside {m : Move} (idle : dispatch? σ u = none)
    (unreported : ∀ k result, u.stage ≠ .reporting k result) (next : m.next.isReporting = false)
    (contract : m.contract = u.contract) (summary : m.summary = u.summary) : Books σ u m := by
  refine .other idle ?_ next contract summary
  cases stage : u.stage with
  | reporting k result => exact absurd stage (unreported k result)
  | _ => rfl

/-- Every move dispatches, reports, or does neither. -/
theorem Moves.books {line : Option String} {m : Move} (h : Moves σ u line m)
    (valid : ∀ k result, u.stage = .reporting k result → ∃ o, σ.interface.operations[k]? = some o) :
    Books σ u m := by
  cases h with
  | dispatches stage operation => exact .dispatches stage operation
  | reports stage operation => exact .reports stage operation
  | dropsReport summary stage missing =>
    obtain ⟨o, operation⟩ := valid _ _ stage
    rw [missing] at operation
    cases operation
  | returns quiet idle unreported =>
    refine .aside ?_ unreported rfl rfl rfl
    unfold dispatch?
    split
    · next k as stage => rw [idle k as stage, Option.map_none]
    · rfl
  | breaksOff waits =>
    cases stage : u.stage with
    | choosing => exact .aside (by simp [dispatch?, stage]) (by simp [stage]) rfl rfl rfl
    | answering k as p q => exact .aside (by simp [dispatch?, stage]) (by simp [stage]) rfl rfl rfl
    | _ =>
      rw [stage] at waits
      cases waits
  | _ => exact .aside (by simp [dispatch?, *]) (by simp [*]) rfl rfl rfl

/-- The output is what was said, one speech after the other. -/
theorem written_repeat (σ : Session) (s : SessionState) (n : Nat)
    (sound : ∀ fault, (Nat.repeat (step σ) n s).stage ≠ .ended (some fault)) :
    (Nat.repeat (step σ) n s).console.written =
      s.console.written ++ (utterances σ s n).flatMap (·.speech.written) := by
  induction n with
  | zero => simp [utterances, Nat.repeat]
  | succ n ih =>
    rw [Nat.repeat] at sound ⊢
    generalize hu : Nat.repeat (step σ) n s = u at sound ih ⊢
    have before : ∀ fault, u.stage ≠ .ended (some fault) := by
      intro fault ended
      rw [step_ended ended] at sound
      exact sound fault ended
    obtain ⟨stage, d, performed, landed⟩ := perform_cases (u.move σ u.hear.1) u.hear.2
    rw [← step_eq] at performed
    rw [performed] at sound ⊢
    rcases landed with ⟨_, written⟩ | ⟨_, fault, broken⟩
    · rw [utterances_succ, List.flatMap_append, ← List.append_assoc, ← ih before, written,
        written_hear, hu]
      simp [utterance]
    · exact absurd broken (sound fault)

/-- After `n` steps the contract has taken the calls of the dispatches that succeeded, each
dispatch is counted, and each is reported or waits to be. -/
structure Accounts (σ : Session) (s : SessionState) (n : Nat) (u : SessionState) : Prop where
  valid : ∀ k result, u.stage = .reporting k result → ∃ o, σ.interface.operations[k]? = some o
  recorded : ∃ recorded, u.contract = recorded.foldl DryRun.taking s.contract ∧
    ((dispatches σ s n).filter (·.succeeded)).map (·.text σ) = callLines s.contract recorded
  dispatched : u.summary.dispatched = s.summary.dispatched + (dispatches σ s n).length
  succeeded : u.summary.succeeded + ((waiting σ u).filter (·.succeeded)).length =
    s.summary.succeeded + ((dispatches σ s n).filter (·.succeeded)).length
  failed : u.summary.failed + ((waiting σ u).filter (!·.succeeded)).length =
    s.summary.failed + ((dispatches σ s n).filter (!·.succeeded)).length
  reported : reports σ s n ++ (waiting σ u).map (.tells <| ·.text σ) =
    (dispatches σ s n).map (.tells <| ·.text σ)

theorem waiting_of_not_reporting (h : u.stage.isReporting = false) : waiting σ u = [] := by
  unfold waiting
  split
  · next stage =>
    rw [stage] at h
    cases h
  · rfl

theorem waiting_of_reporting {k : Nat} {result : Except InvocationError CallOutcome} {o : Operation}
    (stage : u.stage = .reporting k result) (operation : σ.interface.operations[k]? = some o) :
    waiting σ u = [⟨o, result⟩] := by
  unfold waiting
  rw [stage]
  dsimp only
  rw [operation]
  rfl

theorem accounts_start (σ : Session) (c : Console) (contract : DryRun) :
    Accounts σ (start c contract) 0 (start c contract) :=
  ⟨fun _ _ h => (nomatch h), ⟨[], rfl, rfl⟩, rfl, rfl, rfl, rfl⟩

/-- A dispatch adds itself to the dispatches, and the call to the calls if it is taken. -/
theorem accounts_dispatch {n k : Nat} {as : List Argument} {o : Operation} {d : Console}
    (h : Accounts σ s n u) (stage : u.stage = .dispatching k as)
    (operation : σ.interface.operations[k]? = some o)
    (made : dispatches σ s (n + 1) = dispatches σ s n ++ (dispatch? σ u).toList)
    (told : reports σ s (n + 1) = reports σ s n) :
    Accounts σ s (n + 1) ⟨.reporting k (σ.capabilities.invoke o.name as u.contract).1, d,
      (σ.capabilities.invoke o.name as u.contract).2,
      { u.summary with dispatched := u.summary.dispatched + 1 }⟩ := by
  have new : dispatch? σ u =
      some ⟨o, (σ.capabilities.invoke o.name as u.contract).1⟩ := by
    simp [dispatch?, stage, operation]
  have idle : waiting σ u = [] := waiting_of_not_reporting (by rw [stage]; rfl)
  obtain ⟨recorded, contract, lines⟩ := h.recorded
  have succeeded := h.succeeded
  have failed := h.failed
  have reported := h.reported
  rw [idle] at succeeded failed reported
  cases invoked : σ.capabilities.invoke o.name as u.contract with
  | mk result after =>
    have busy : waiting σ ⟨.reporting k result, d, after,
        { u.summary with dispatched := u.summary.dispatched + 1 }⟩ = [⟨o, result⟩] :=
      waiting_of_reporting rfl operation
    rw [new, invoked] at made
    simp only [Option.toList_some] at made
    refine ⟨?_, ?_, ?_, ?_, ?_, ?_⟩
    · intro k' result' reporting
      cases reporting
      exact ⟨o, operation⟩
    · rw [made, List.filter_append, List.map_append, lines]
      cases result with
      | error e =>
        rcases σ.capabilities.invoke_cases o.name as u.contract with
          ⟨e', refused⟩ | ⟨c, _, _, taken⟩ | ⟨c, _, _, taken⟩
        · rw [invoked] at refused
          cases refused
          exact ⟨recorded, contract, List.append_nil _⟩
        · rw [invoked] at taken
          cases taken
        · rw [invoked] at taken
          cases taken
      | ok outcome =>
        obtain ⟨c, rfl, _, text⟩ := text_of_invoke invoked
        refine ⟨recorded ++ [c], by rw [List.foldl_append, ← contract]; rfl, ?_⟩
        rw [callLines_append, ← contract, ← text]
        rfl
    · rw [made, List.length_append, ← Nat.add_assoc, ← h.dispatched]
      rfl
    · rw [busy, made, List.filter_append, List.length_append, ← Nat.add_assoc, ← succeeded]
      rfl
    · rw [busy, made, List.filter_append, List.length_append, ← Nat.add_assoc, ← failed]
      rfl
    · rw [busy, made, told, List.map_append, ← reported]
      simp

/-- A report passes the outcome that waits to the counts. -/
theorem accounts_report {n k : Nat} {result : Except InvocationError CallOutcome} {o : Operation}
    {next : Stage} {d : Console} (h : Accounts σ s n u) (stage : u.stage = .reporting k result)
    (operation : σ.interface.operations[k]? = some o) (idle : next.isReporting = false)
    (made : dispatches σ s (n + 1) = dispatches σ s n)
    (told : reports σ s (n + 1) = reports σ s n ++ [.tells (σ.resultText o result)]) :
    Accounts σ s (n + 1) ⟨next, d, u.contract,
      if result.isOk then { u.summary with succeeded := u.summary.succeeded + 1 }
      else { u.summary with failed := u.summary.failed + 1 }⟩ := by
  have busy := waiting_of_reporting stage operation
  have succeeded := h.succeeded
  have failed := h.failed
  have reported := h.reported
  rw [busy] at succeeded failed reported
  have done : waiting σ ⟨next, d, u.contract,
      if result.isOk then { u.summary with succeeded := u.summary.succeeded + 1 }
      else { u.summary with failed := u.summary.failed + 1 }⟩ = [] :=
    waiting_of_not_reporting idle
  refine ⟨?_, made ▸ h.recorded, ?_, ?_, ?_, ?_⟩
  · intro k' result' reporting
    cases reporting
    cases idle
  · rw [made, ← h.dispatched]
    split <;> rfl
  · rw [done, made, ← succeeded]
    cases result <;> rfl
  · rw [done, made, ← failed]
    cases result <;> rfl
  · rw [done, made, told, ← reported]
    simp [Dispatch.text]

/-- What neither dispatches nor reports leaves the accounts as they are. -/
theorem accounts_aside {n : Nat} {next : Stage} {d : Console} (h : Accounts σ s n u)
    (unreported : u.stage.isReporting = false) (idle : next.isReporting = false)
    (made : dispatches σ s (n + 1) = dispatches σ s n)
    (told : reports σ s (n + 1) = reports σ s n) :
    Accounts σ s (n + 1) ⟨next, d, u.contract, u.summary⟩ := by
  have before : waiting σ u = [] := waiting_of_not_reporting unreported
  have after : waiting σ ⟨next, d, u.contract, u.summary⟩ = [] := waiting_of_not_reporting idle
  have succeeded := h.succeeded
  have failed := h.failed
  have reported := h.reported
  rw [before] at succeeded failed reported
  refine ⟨?_, made ▸ h.recorded, made ▸ h.dispatched, ?_, ?_, ?_⟩
  · intro k result reporting
    cases reporting
    cases idle
  · rw [after, made]
    exact succeeded
  · rw [after, made]
    exact failed
  · rw [after, made, told]
    exact reported

/-- A step keeps the accounts. -/
theorem accounts_step {n : Nat} (hu : Nat.repeat (step σ) n s = u) (h : Accounts σ s n u) :
    Accounts σ s (n + 1) (u.step σ) := by
  obtain ⟨stage, d, performed, landed⟩ := perform_cases (u.move σ u.hear.1) u.hear.2
  rw [← step_eq] at performed
  have said : (utterance σ u).speech = (u.move σ u.hear.1).speech := rfl
  have books : Books σ u (u.move σ u.hear.1) := (moves_move σ u u.hear.1).books h.valid
  have made := dispatches_succ σ s n
  have told := reports_succ σ s n
  rw [hu] at made told
  rw [said] at told
  rw [performed]
  generalize u.move σ u.hear.1 = m at books landed told
  cases books with
  | dispatches dispatching operation =>
    have quiet : ¬u.stage.isReporting = true := by simp [dispatching, Stage.isReporting]
    rw [if_neg quiet, List.append_nil] at told
    rcases landed with ⟨rfl, _⟩ | ⟨loud, _⟩
    · exact accounts_dispatch h dispatching operation made told
    · exact absurd rfl loud
  | reports reporting operation =>
    rw [if_pos (by rw [reporting]; rfl)] at told
    have none : dispatch? σ u = none := by simp [dispatch?, reporting]
    rw [none, Option.toList_none, List.append_nil] at made
    have idle : stage.isReporting = false := by
      rcases landed with ⟨rfl, _⟩ | ⟨_, fault, rfl⟩ <;> rfl
    exact accounts_report h reporting operation idle made told
  | other dispatch report next contract summary =>
    rw [if_neg (by simp [report]), List.append_nil] at told
    rw [dispatch, Option.toList_none, List.append_nil] at made
    have idle : stage.isReporting = false := by
      rcases landed with ⟨rfl, _⟩ | ⟨_, fault, rfl⟩
      · exact next
      · rfl
    rw [contract, summary]
    exact accounts_aside h report idle made told

theorem accounts_repeat (σ : Session) (c : Console) (contract : DryRun) (n : Nat) :
    Accounts σ (start c contract) n (Nat.repeat (step σ) n (start c contract)) := by
  induction n with
  | zero => exact accounts_start σ c contract
  | succ n ih => exact accounts_step rfl ih

theorem Accounts.length_waiting {n : Nat} (h : Accounts σ s n u) :
    (waiting σ u).length = (if u.stage.isReporting then 1 else 0) ∧
      ((waiting σ u).filter (·.succeeded)).length = if u.stage.reportsSuccess then 1 else 0 := by
  cases hs : u.stage with
  | reporting k result =>
    obtain ⟨o, operation⟩ := h.valid k result hs
    rw [waiting_of_reporting hs operation]
    cases result <;> exact ⟨rfl, rfl⟩
  | _ =>
    rw [waiting_of_not_reporting (by rw [hs]; rfl)]
    exact ⟨rfl, rfl⟩

/-- A failure is reported with its message, and with a hint or none. -/
theorem text_of_error (σ : Session) (o : Operation) (e : InvocationError) :
    ∃ hint, (hint = "" ∨ ∃ h ∈ σ.options.errorHints, hint = s!"  hint: {h.hint}\n") ∧
      σ.resultText o (.error e) = s!"✗ {o.name} failed: {e.message}\n" ++ hint := by
  cases found : hintFor? σ.options.errorHints e.message with
  | none => exact ⟨"", .inl rfl, by simp only [Session.resultText, found]⟩
  | some h =>
    refine ⟨_, .inr ⟨h, List.mem_of_find?_eq_some found, rfl⟩, ?_⟩
    simp only [Session.resultText, found]

section

variable (i : Interface) (options : SessionOptions)

/-- In every state of a session, on any console, the dispatches are the successes, the failures and
the outcome that waits; and the contract has recorded a call for each success. When a session has
ended well its output has the reports of the dispatches in their order: the successes are those of
the calls, each with its name and, for a transaction, its height, and the others tell of a
failure. -/
theorem accounts_agree (answers : List String) (room inputFailsAt : Option Nat)
    (contract : DryRun) :
    let σ := Session.ofInterface i options
    let s := start (.ofAnswers answers room inputFailsAt) contract
    (∀ u, Reaches σ s u →
      u.summary.dispatched = u.summary.succeeded + u.summary.failed +
        (if u.stage.isReporting then 1 else 0) ∧
      ∃ recorded, u.contract.calls = contract.calls ++ recorded ∧
        u.summary.succeeded + (if u.stage.reportsSuccess then 1 else 0) = recorded.length) ∧
    ∀ n, let t := Nat.repeat (step σ) n s
      t.stage = .ended none → run σ s = t ∧
        t.console.written = (utterances σ s n).flatMap (·.speech.written) ∧
        reports σ s n = (dispatches σ s n).map (fun d => .tells (d.text σ)) ∧
        (∃ recorded, t.contract.calls = contract.calls ++ recorded ∧
          t.contract = recorded.foldl DryRun.taking contract ∧
          ((dispatches σ s n).filter (·.succeeded)).map (·.text σ) =
            callLines contract recorded) ∧
        ((dispatches σ s n).filter (·.succeeded)).length = t.summary.succeeded ∧
        ((dispatches σ s n).filter (!·.succeeded)).length = t.summary.failed ∧
        ∀ d ∈ dispatches σ s n, d.succeeded = false → ∃ e hint, d.result = .error e ∧
          (hint = "" ∨ ∃ h ∈ options.errorHints, hint = s!"  hint: {h.hint}\n") ∧
          d.text σ = s!"✗ {d.operation.name} failed: {e.message}\n" ++ hint := by
  intro σ s
  refine ⟨fun u reached => ?_, fun n => ?_⟩
  · obtain ⟨n, rfl⟩ := reached.exists_repeat
    have accounts := accounts_repeat σ (.ofAnswers answers room inputFailsAt) contract n
    generalize Nat.repeat (step σ) n s = u at accounts ⊢
    obtain ⟨waits, waitsWell⟩ := accounts.length_waiting
    obtain ⟨recorded, same, lines⟩ := accounts.recorded
    have dispatched : u.summary.dispatched = (dispatches σ s n).length :=
      accounts.dispatched.trans (Nat.zero_add _)
    have succeeded : u.summary.succeeded + ((waiting σ u).filter (·.succeeded)).length =
        ((dispatches σ s n).filter (·.succeeded)).length :=
      accounts.succeeded.trans (Nat.zero_add _)
    have failed : u.summary.failed + ((waiting σ u).filter (!·.succeeded)).length =
        ((dispatches σ s n).filter (!·.succeeded)).length :=
      accounts.failed.trans (Nat.zero_add _)
    have all := List.length_eq_length_filter_add (l := dispatches σ s n) (·.succeeded)
    have waitsAll := List.length_eq_length_filter_add (l := waiting σ u) (·.succeeded)
    have counted : ((dispatches σ s n).filter (·.succeeded)).length = recorded.length := by
      have := congrArg List.length lines
      rwa [List.length_map, length_callLines] at this
    refine ⟨?_, recorded, ?_, ?_⟩
    · rw [← waits]
      omega
    · rw [same, calls_foldl_taking]
      rfl
    · rw [← waitsWell, succeeded, counted]
  · intro t ended
    have accounts := accounts_repeat σ (.ofAnswers answers room inputFailsAt) contract n
    have idle : waiting σ t = [] := waiting_of_not_reporting (by rw [ended]; rfl)
    obtain ⟨recorded, same, lines⟩ := accounts.recorded
    have succeeded := accounts.succeeded.trans (Nat.zero_add _)
    have failed := accounts.failed.trans (Nat.zero_add _)
    have reported := accounts.reported
    rw [show waiting σ (Nat.repeat _ n _) = [] from idle] at succeeded failed reported
    refine ⟨run_eq_repeat (by rw [show (Nat.repeat _ n s).stage = _ from ended]; rfl), ?_, ?_,
      ⟨recorded, ?_, same, lines⟩, succeeded.symm, failed.symm, ?_⟩
    · have written := written_repeat σ s n fun fault broken => by
        rw [show (Nat.repeat _ n s).stage = _ from ended] at broken
        cases broken
      exact written
    · rw [← reported, List.map_nil, List.append_nil]
    · rw [show t.contract = _ from same, calls_foldl_taking]
      rfl
    · intro d _ failed
      obtain ⟨o, result⟩ := d
      cases result with
      | ok outcome => cases failed
      | error e =>
        obtain ⟨hint, hinted, text⟩ := text_of_error σ o e
        exact ⟨e, hint, rfl, hinted, text⟩

end

/-- Someone pays, asks for the balance, and cannot pay again. -/
theorem fundSession_accounts_agree :
    let σ := Session.ofInterface fund .standard
    let s := start (.ofAnswers ["2", "0xabcd", "30", "1", "2", "0xab", "5"] none none)
      (.fresh [] [] ["pay"])
    let t := Nat.repeat (step σ) 26 s
    t.stage = .ended none ∧ t.summary = ⟨3, 2, 1⟩ ∧
    reports σ s 26 = [
      .tells "✓ pay submitted: tx 0000000000000001706179 at block 1\n",
      .tells "✓ balance returned: null\n",
      .tells ("✗ pay failed: failed assert: pay already performed\n" ++
        "  hint: this action is only allowed once and has already been performed.\n")] ∧
    ∃ recorded, t.contract.calls = recorded ∧ recorded.length = 2 := by
  intro σ s t
  have summary : t.summary = ⟨3, 2, 1⟩ := by decide +kernel
  have texts : (dispatches σ s 26).map (·.text σ) = [
      "✓ pay submitted: tx 0000000000000001706179 at block 1\n",
      "✓ balance returned: null\n",
      "✗ pay failed: failed assert: pay already performed\n" ++
        "  hint: this action is only allowed once and has already been performed.\n"] := by
    decide +kernel
  have reached : Reaches σ s t := by
    rw [show t = run σ s from (run_eq_repeat (by decide +kernel)).symm]
    exact reaches_run σ s
  have ended : t.stage.isEnded = true := by decide +kernel
  obtain ⟨fault, stage⟩ := Stage.exists_eq_ended ended
  obtain ⟨rfl, _⟩ := reached.farewell ⟨rfl, rfl⟩ rfl stage
  obtain ⟨everywhere, atEnd⟩ := accounts_agree fund .standard
    ["2", "0xabcd", "30", "1", "2", "0xab", "5"] none none (.fresh [] [] ["pay"])
  obtain ⟨_, recorded, calls, counted⟩ := everywhere t reached
  obtain ⟨_, _, reported, _⟩ := atEnd 26 stage
  refine ⟨stage, summary, ?_, recorded, calls, ?_⟩
  · have pairs : (dispatches σ s 26).map (fun d => Speech.tells (d.text σ)) =
        ((dispatches σ s 26).map (·.text σ)).map Speech.tells := by
      rw [List.map_map]
      rfl
    rw [texts] at pairs
    exact reported.trans pairs
  · rw [← counted, summary, show t.stage = _ from stage]
    rfl

end SessionState

end ContractSurface
