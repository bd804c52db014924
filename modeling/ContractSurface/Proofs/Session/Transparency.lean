import Mathlib.Data.List.Forall2
import ContractSurface.Proofs.Session.Moves
import ContractSurface.Proofs.Session.Origin

/-! # Actions that come to nothing

What a session does from one of its states on does not depend on what was said before. An action
that is not completed leads from the menu back to the menu, with the same contract and the same
counts; so the session goes on as it would have without it.
-/
namespace ContractSurface

namespace Console

def feed (more : List String) (c : Console) : Console := { c with answers := c.answers ++ more }

def behind (earlier : List Exchange) (c : Console) : Console :=
  { c with exchanges := earlier ++ c.exchanges }

variable {c : Console} {earlier : List Exchange} {more : List String}

theorem said_feed (v : Speech) : (c.feed more).said v = (c.said v).feed more := by
  cases v <;> rfl

theorem said_behind (v : Speech) : (c.behind earlier).said v = (c.said v).behind earlier := by
  cases v <;> rfl

theorem receive_feed (h : c.answers ≠ []) :
    (c.feed more).receive = (c.receive.1, c.receive.2.feed more) := by
  obtain ⟨answers, _⟩ := c
  cases answers with
  | nil => exact absurd rfl h
  | cons line rest => rfl

theorem receive_behind :
    (c.behind earlier).receive = (c.receive.1, c.receive.2.behind earlier) := by
  obtain ⟨answers, _⟩ := c
  cases answers <;> simp [receive, behind, finish]

theorem transcript_behind :
    (c.behind earlier).transcript =
      earlier.flatMap (fun e => e.out ++ Text.utf8 e.promptText) ++ c.transcript := by
  simp [transcript, behind]

end Console

namespace SessionState

variable {σ : Session} {s t : SessionState} {earlier : List Exchange} {more : List String}

def feed (more : List String) (s : SessionState) : SessionState :=
  { s with console := s.console.feed more }

theorem step_feed (hs : s.console.Sound) (h : s.stage.waits = true → s.console.answers ≠ []) :
    (s.feed more).step σ = (s.step σ).feed more :=
  step_change hs ⟨hs.room, hs.input⟩ (fun waits => Console.receive_feed (h waits))
    (fun _ => Console.said_feed)

/-- A session whose input is used up only takes its leave. -/
theorem step_of_used_up (hs : s.console.Sound) (waits : s.stage.waits = true)
    (empty : s.console.answers = []) : (s.step σ).stage = .leaving := by
  have silence : s.hear.1 = none := by
    rw [hear, if_pos waits, Console.receive, empty]
  rw [step_of_sound hs, silence, move_none waits]

def IsLeaving (s : SessionState) : Prop := s.stage = .leaving ∨ ∃ fault, s.stage = .ended fault

theorem IsLeaving.step (h : s.IsLeaving) (hs : s.console.Sound) : (s.step σ).IsLeaving := by
  rcases h with leaving | ⟨fault, ended⟩
  · right
    refine ⟨none, ?_⟩
    rw [step_of_sound hs]
    simp only [move, leaving]
  · rw [step_ended ended]
    exact Or.inr ⟨fault, ended⟩

/-- A state that does not take its leave is reached with more input as well. -/
theorem Reaches.feed (hr : Reaches σ s t) (hs : s.console.Sound) (more : List String) :
    Reaches σ (s.feed more) (t.feed more) ∨ t.IsLeaving := by
  induction hr with
  | refl => exact Or.inl .refl
  | @step t hr ih =>
    have sound := hr.sound hs
    rcases ih with fed | leaving
    · -- more input makes a difference only where the end of the input would be met
      by_cases used : t.stage.waits = true ∧ t.console.answers = []
      · exact Or.inr (Or.inl (step_of_used_up sound used.1 used.2))
      · left
        rw [← step_feed sound fun waits empty => used ⟨waits, empty⟩]
        exact fed.step
    · exact Or.inr (leaving.step sound)

def behind (earlier : List Exchange) (s : SessionState) : SessionState :=
  { s with console := s.console.behind earlier }

theorem step_behind (hs : s.console.Sound) :
    (s.behind earlier).step σ = (s.step σ).behind earlier :=
  step_change hs ⟨hs.room, hs.input⟩ (fun _ => Console.receive_behind)
    (fun _ => Console.said_behind)

/-- What was said before stays, and makes no other difference. -/
theorem run_behind (hs : s.console.Sound) (earlier : List Exchange) :
    run σ (s.behind earlier) = (run σ s).behind earlier := by
  induction s using run.induct σ with
  | case1 s ended =>
    rw [run_of_ended ended, run_of_ended (show (s.behind earlier).stage.isEnded = true from ended)]
  | case2 s running ih =>
    rw [run_of_running running,
      run_of_running (show ¬(s.behind earlier).stage.isEnded = true from running),
      step_behind hs, ih (sound_step hs)]

def atMenu (unread : List String) (exchanges : List Exchange) (out : List UInt8)
    (contract : DryRun) (summary : Summary) : SessionState :=
  ⟨.choosing, ⟨unread, none, none, exchanges, out, some menuPrompt⟩, contract, summary⟩

theorem exists_hear_atMenu (unread : List String) (contract : DryRun) (summary : Summary) :
    ∃ line reply rest, ∀ exchanges out,
      (atMenu unread exchanges out contract summary).hear =
        (line, Console.behind (exchanges ++ [⟨out, menuPrompt, reply⟩])
          ⟨rest, none, none, [], [], none⟩) := by
  cases unread with
  | nil =>
    refine ⟨none, .closed, [], fun exchanges out => ?_⟩
    simp [atMenu, hear, Stage.waits, Console.receive, Console.finish, Console.behind]
  | cons line rest =>
    refine ⟨some line, .line line, rest, fun exchanges out => ?_⟩
    simp [atMenu, hear, Stage.waits, Console.receive, Console.finish, Console.behind]

/-- What a session does from its menu on depends on the contract, the counts and the input. -/
theorem exists_run_atMenu (σ : Session) (unread : List String) (contract : DryRun)
    (summary : Summary) :
    ∃ reply later, ∀ exchanges out,
      run σ (atMenu unread exchanges out contract summary) =
        behind (exchanges ++ [⟨out, menuPrompt, reply⟩]) later := by
  obtain ⟨line, reply, rest, heard⟩ := exists_hear_atMenu unread contract summary
  let m := (atMenu unread [] [] contract summary).move σ line
  let quiet : Console := ⟨rest, none, none, [], [], none⟩
  have sound : quiet.Sound := ⟨rfl, rfl⟩
  refine ⟨reply, run σ ⟨m.next, quiet.said m.speech, m.contract, m.summary⟩, ?_⟩
  intro exchanges out
  have menu : (atMenu unread exchanges out contract summary).console.Sound := ⟨rfl, rfl⟩
  rw [← run_step, step_of_sound menu, heard, ← run_behind (sound.said _)]
  dsimp only
  rw [Console.said_behind]
  rfl

def questionExchange (rules : List ChoiceRule) (p : Parameter) (line : String) : Exchange :=
  let q := Question.ofParameter rules p
  ⟨Text.utf8 (q.introduction p), q.prompt p, .line line⟩

def Accepts (rules : List ChoiceRule) (p : Parameter) (line : String) : Prop :=
  ∃ a, (Question.ofParameter rules p).interpret p line = .ok a

/-- What a person types at the menu without bringing an action to its end: a line that selects
nothing, the selection of the state, or the selection of an operation with answers to its first
parameters of which the last one is refused. The exchanges are the ones after the one at the menu,
and the text is what is shown at last. -/
inductive Aside (σ : Session) (ledger : List (String × Json)) :
    String → List String → List Exchange → String → Prop where
  | invalid {line : String} : σ.menu.select? line = none →
    Aside σ ledger line [] [] (σ.invalidOptionText line)
  | showState {line : String} {item : MenuItem} : σ.menu.select? line = some item →
    item.action = .showState → Aside σ ledger line [] [] (σ.stateText ledger)
  | refused {line : String} {item : MenuItem} {k : Nat} {o : Operation} {ps more : List Parameter}
      {p : Parameter} {lines : List String} {bad : String} {e : ParameterError} :
    σ.menu.select? line = some item → item.action = .invoke o.name →
    σ.interface.operations[k]? = some o → o.parameters = ps ++ p :: more →
    List.Forall₂ (Accepts σ.options.choiceRules) ps lines →
    (Question.ofParameter σ.options.choiceRules p).interpret p bad = .error e →
    Aside σ ledger line (lines ++ [bad])
      (List.zipWith (questionExchange σ.options.choiceRules) ps lines ++
        [questionExchange σ.options.choiceRules p bad])
      (Session.rejectedAnswerText o e)

section Steps

variable {unread : List String} {exchanges : List Exchange} {out : List UInt8}
  {contract : DryRun} {summary : Summary}

theorem run_menu (asked : Option String) :
    run σ ⟨.menu, ⟨unread, none, none, exchanges, out, asked⟩, contract, summary⟩ =
      run σ (atMenu unread exchanges (out ++ Text.utf8 σ.menuText) contract summary) := by
  rw [← run_step, step_of_sound ⟨rfl, rfl⟩]
  rfl

theorem run_atMenu_cons (line : String) :
    run σ (atMenu (line :: unread) exchanges out contract summary) =
      run σ (perform ((atMenu unread exchanges out contract summary).move σ (some line))
        ⟨unread, none, none, exchanges ++ [⟨out, menuPrompt, .line line⟩], [], none⟩) := by
  rw [← run_step, step_eq]
  rfl

theorem run_selecting {line : String} {item : MenuItem} (h : σ.menu.select? line = some item) :
    run σ (atMenu (line :: unread) exchanges out contract summary) =
      run σ ⟨stageOfAction σ.interface item.action,
        ⟨unread, none, none, exchanges ++ [⟨out, menuPrompt, .line line⟩], [], none⟩, contract,
        summary⟩ := by
  rw [run_atMenu_cons]
  simp only [atMenu, move, h]
  rfl

theorem run_mistyping {line : String} (h : σ.menu.select? line = none) :
    run σ (atMenu (line :: unread) exchanges out contract summary) =
      run σ (atMenu unread (exchanges ++ [⟨out, menuPrompt, .line line⟩])
        (Text.utf8 (σ.invalidOptionText line) ++ Text.utf8 σ.menuText) contract summary) := by
  rw [run_atMenu_cons, perform_of_sound ⟨rfl, rfl⟩, ← run_menu none]
  simp only [atMenu, move, h, Console.said, List.nil_append]

theorem run_showing :
    run σ ⟨.showingState, ⟨unread, none, none, exchanges, [], none⟩, contract, summary⟩ =
      run σ (atMenu unread exchanges
        (Text.utf8 (σ.stateText contract.ledgerState) ++ Text.utf8 σ.menuText) contract
        summary) := by
  rw [← run_step, step_of_sound ⟨rfl, rfl⟩, ← run_menu none]
  rfl

/-- A question that is put and answered. -/
theorem run_asking {k : Nat} {o : Operation} {as : List Argument} {p : Parameter} (line : String)
    (ho : σ.interface.operations[k]? = some o) (hp : o.parameters[as.length]? = some p) :
    let asked : SessionState := ⟨.answering k as p (.ofParameter σ.options.choiceRules p),
      ⟨unread, none, none, exchanges, [], none⟩, contract, summary⟩
    run σ ⟨.collecting k as, ⟨line :: unread, none, none, exchanges, [], none⟩, contract, summary⟩ =
      run σ (perform (asked.move σ (some line)) ⟨unread, none, none,
        exchanges ++ [questionExchange σ.options.choiceRules p line], [], none⟩) := by
  intro asked
  let q := Question.ofParameter σ.options.choiceRules p
  have put : step σ ⟨.collecting k as, ⟨line :: unread, none, none, exchanges, [], none⟩, contract,
      summary⟩ = ⟨.answering k as p q, ⟨line :: unread, none, none, exchanges,
        Text.utf8 (q.introduction p), some (q.prompt p)⟩, contract, summary⟩ := by
    rw [step_of_sound ⟨rfl, rfl⟩]
    simp only [move, ho, hp]
    rfl
  rw [← run_step, put, ← run_step, step_eq]
  rfl

theorem run_accepting {k : Nat} {o : Operation} {as : List Argument} {p : Parameter}
    {line : String} {a : Argument} (ho : σ.interface.operations[k]? = some o)
    (hp : o.parameters[as.length]? = some p)
    (ha : (Question.ofParameter σ.options.choiceRules p).interpret p line = .ok a) :
    run σ ⟨.collecting k as, ⟨line :: unread, none, none, exchanges, [], none⟩, contract, summary⟩ =
      run σ ⟨.collecting k (as ++ [a]), ⟨unread, none, none,
        exchanges ++ [questionExchange σ.options.choiceRules p line], [], none⟩, contract,
        summary⟩ := by
  rw [run_asking line ho hp]
  simp only [move, ha]
  rfl

/-- An answer that is refused leads back to the menu. -/
theorem run_refusing {k : Nat} {o : Operation} {as : List Argument} {p : Parameter}
    {line : String} {e : ParameterError} (ho : σ.interface.operations[k]? = some o)
    (hp : o.parameters[as.length]? = some p)
    (he : (Question.ofParameter σ.options.choiceRules p).interpret p line = .error e) :
    run σ ⟨.collecting k as, ⟨line :: unread, none, none, exchanges, [], none⟩, contract, summary⟩ =
      run σ (atMenu unread (exchanges ++ [questionExchange σ.options.choiceRules p line])
        (Text.utf8 (Session.rejectedAnswerText o e) ++ Text.utf8 σ.menuText) contract
        summary) := by
  rw [run_asking line ho hp, ← run_menu none]
  simp only [move, ho, he]
  cases e with
  | inputClosed name => exact absurd he (Question.interpret_ne_inputClosed p line name _)
  | _ => rfl

/-- The answers to the first parameters are taken one by one. -/
theorem run_collecting {k : Nat} {o : Operation} {ps more : List Parameter} {lines : List String}
    (ho : σ.interface.operations[k]? = some o) {taken : List Parameter} {as : List Argument}
    (hps : o.parameters = taken ++ ps ++ more) (hl : as.length = taken.length)
    (ha : List.Forall₂ (Accepts σ.options.choiceRules) ps lines) :
    ∃ bs : List Argument, bs.length = (taken ++ ps).length ∧
      run σ ⟨.collecting k as, ⟨lines ++ unread, none, none, exchanges, [], none⟩, contract,
          summary⟩ =
        run σ ⟨.collecting k bs, ⟨unread, none, none,
          exchanges ++ List.zipWith (questionExchange σ.options.choiceRules) ps lines, [], none⟩,
          contract, summary⟩ := by
  induction ha generalizing taken as exchanges with
  | nil => exact ⟨as, by simpa using hl, by simp⟩
  | @cons p line ps lines hp _ ih =>
    obtain ⟨a, ha⟩ := hp
    have next : o.parameters[as.length]? = some p := by simp [hps, hl]
    have split : o.parameters = taken ++ [p] ++ ps ++ more := by simp [hps]
    have more_taken : (as ++ [a]).length = (taken ++ [p]).length := by simp [hl]
    obtain ⟨bs, hbs, run_rest⟩ := ih split more_taken
    refine ⟨bs, by simpa using hbs, ?_⟩
    rw [List.cons_append, run_accepting ho next ha, run_rest]
    simp

end Steps

/-- An aside leads from the menu to the menu. -/
theorem run_aside (hd : (σ.interface.operations.map (·.name)).Nodup) {line : String}
    {answers : List String} {questions : List Exchange} {message : String} {contract : DryRun}
    (aside : Aside σ contract.ledgerState line answers questions message) (unread : List String)
    (exchanges : List Exchange) (out : List UInt8) (summary : Summary) :
    run σ (atMenu (line :: answers ++ unread) exchanges out contract summary) =
      run σ (atMenu unread (exchanges ++ ⟨out, menuPrompt, .line line⟩ :: questions)
        (Text.utf8 message ++ Text.utf8 σ.menuText) contract summary) := by
  cases aside with
  | invalid h => exact run_mistyping h
  | showState h ha =>
    rw [List.cons_append, run_selecting h, ha]
    exact run_showing
  | @refused item k o ps more p lines bad e h ha ho hps accepted refused =>
    have stage : stageOfAction σ.interface item.action = .collecting k [] := by
      rw [ha, stageOfAction, Interface.operationIndex?_name hd ho]
    have params : o.parameters = [] ++ ps ++ p :: more := hps
    have untaken : ([] : List Argument).length = ([] : List Parameter).length := rfl
    obtain ⟨bs, hbs, collected⟩ := run_collecting ho params untaken accepted
    have next : o.parameters[bs.length]? = some p := by simp [hps, hbs]
    rw [List.cons_append, run_selecting h, stage, List.append_assoc, collected,
      List.singleton_append, run_refusing ho next refused]
    simp

/-- A session that waits at the menu is given by what was said and recorded. -/
theorem feed_eq_atMenu (hs : s.console.Sound) (stage : s.stage = .choosing)
    (asked : s.console.asked = some menuPrompt) (consumed : s.console.answers = []) :
    s.feed more = atMenu more s.console.exchanges s.console.out s.contract s.summary := by
  obtain ⟨stage', ⟨answers, room, inputFailsAt, exchanges, out, asked'⟩, contract, summary⟩ := s
  obtain ⟨hr, hf⟩ := hs
  dsimp only at stage asked consumed hr hf
  rw [stage, asked, consumed, hr, hf]
  rfl

section Asides

variable {i : Interface} {options : SessionOptions} {before : List String}

theorem Reaches.asked (hd : (i.operations.map (·.name)).Nodup) {c : Console} {contract : DryRun}
    (unsaid : c.exchanges = []) (fresh : contract.calls = [])
    (reached : Reaches (.ofInterface i options) (start c contract) t)
    (stage : t.stage = .choosing) : t.console.asked = some menuPrompt := by
  have invariant := reached.invariant hd (invariant_start c contract unsaid fresh)
  unfold Invariant at invariant
  rw [stage] at invariant
  exact invariant.2

/-- A session that waits at its menu when its input is used up goes on from there with more. -/
theorem run_start_append (hd : (i.operations.map (·.name)).Nodup) {contract : DryRun}
    (fresh : contract.calls = [])
    (reached : Reaches (.ofInterface i options) (start (.ofAnswers before none none) contract) t)
    (stage : t.stage = .choosing) (consumed : t.console.answers = []) (more : List String) :
    run (.ofInterface i options) (start (.ofAnswers (before ++ more) none none) contract) =
      run (.ofInterface i options)
        (atMenu more t.console.exchanges t.console.out t.contract t.summary) := by
  have sound : (start (.ofAnswers before none none) contract).console.Sound := ⟨rfl, rfl⟩
  have asked := reached.asked hd rfl fresh stage
  rw [← feed_eq_atMenu (reached.sound sound) stage asked consumed]
  rcases reached.feed sound more with fed | leaving | ⟨fault, ended⟩
  · exact fed.run_eq.symm
  · rw [stage] at leaving
    cases leaving
  · rw [stage] at ended
    cases ended

/-- An aside is as good as nothing. A session that makes one at its menu comes to the same end, with
the same calls and the same input left over, and what it shows differs by the questions and the
message of the aside, and one more menu. -/
theorem run_with_aside (hd : (i.operations.map (·.name)).Nodup) (ledger : List (String × Json))
    (rejections : List (String × String)) (onceOnly : List String)
    (reached : Reaches (.ofInterface i options)
      (start (.ofAnswers before none none) (.fresh ledger rejections onceOnly)) t)
    (stage : t.stage = .choosing) (consumed : t.console.answers = []) {line message : String}
    {answers : List String} {questions : List Exchange}
    (aside : Aside (.ofInterface i options) t.contract.ledgerState line answers questions message)
    (after : List String) :
    let σ := Session.ofInterface i options
    let begun := fun answers =>
      start (.ofAnswers answers none none) (.fresh ledger rejections onceOnly)
    let plain := run σ (begun (before ++ after))
    let longer := run σ (begun (before ++ line :: answers ++ after))
    longer.result = plain.result ∧ longer.summary = plain.summary ∧
    longer.contract = plain.contract ∧ longer.console.answers = plain.console.answers ∧
    ∃ reply said seen,
      plain.console.exchanges = t.console.exchanges ++ ⟨t.console.out, menuPrompt, reply⟩ :: said ∧
      longer.console.exchanges = t.console.exchanges ++
        ⟨t.console.out, menuPrompt, .line line⟩ ::
          (questions ++ ⟨Text.utf8 message ++ Text.utf8 σ.menuText, menuPrompt, reply⟩ :: said) ∧
      plain.console.transcript = t.console.transcript ++ seen ∧
      longer.console.transcript = t.console.transcript ++
        (questions.flatMap (fun e => e.out ++ Text.utf8 e.promptText) ++
          (Text.utf8 message ++ Text.utf8 σ.menuText ++ Text.utf8 menuPrompt)) ++ seen := by
  intro σ begun plain longer
  obtain ⟨reply, later, rest⟩ := exists_run_atMenu σ after t.contract t.summary
  have plain_eq : plain = behind (t.console.exchanges ++ [⟨t.console.out, menuPrompt, reply⟩])
      later := by
    rw [← rest]
    exact run_start_append hd rfl reached stage consumed after
  have longer_eq : longer = behind (t.console.exchanges ++
      ⟨t.console.out, menuPrompt, .line line⟩ :: questions ++
        [⟨Text.utf8 message ++ Text.utf8 σ.menuText, menuPrompt, reply⟩]) later := by
    rw [← rest, ← run_aside hd aside]
    have := run_start_append hd rfl reached stage consumed (line :: answers ++ after)
    rwa [← List.append_assoc] at this
  have seen : t.console.transcript =
      t.console.exchanges.flatMap (fun e => e.out ++ Text.utf8 e.promptText) ++ t.console.out ++
        Text.utf8 menuPrompt := by
    rw [Console.transcript, reached.asked hd rfl rfl stage]
    rfl
  rw [plain_eq, longer_eq, seen]
  refine ⟨rfl, rfl, rfl, rfl, reply, later.console.exchanges, later.console.transcript, ?_, ?_, ?_,
    ?_⟩
  · simp [behind, Console.behind]
  · simp [behind, Console.behind]
  · simp [behind, Console.transcript_behind]
  · simp [behind, Console.transcript_behind]

end Asides

def fund : Interface where
  contractName := "fund"
  operations := [
    ⟨"balance", [], "Uint<64>", false, ""⟩,
    ⟨"pay", [⟨"to", "Bytes<2>"⟩, ⟨"amount", "Uint<8>"⟩], "[]", true, ""⟩]
  stateVariables := [⟨"paid", "Uint<64>"⟩]

/-- Someone asks for the balance, offers too much, and then pays. -/
theorem fundSession_forgets_excess :
    let σ := Session.ofInterface fund .standard
    let begun := fun answers => start (.ofAnswers answers none none) (.fresh [] [] [])
    let plain := run σ (begun ["1", "2", "0xabcd", "30"])
    let longer := run σ (begun ["1", "2", "0xabcd", "300", "2", "0xabcd", "30"])
    plain.contract.calls.map (·.arguments) = [[], [.bytes [0xab, 0xcd], .integer 30]] ∧
    longer.contract = plain.contract ∧ longer.result = plain.result := by
  intro σ begun plain longer
  have calls : plain.contract.calls.map (·.arguments) =
      [[], [.bytes [0xab, 0xcd], .integer 30]] := by
    rw [show plain = _ from run_eq_repeat (n := 20) (by decide +kernel)]
    decide +kernel
  have distinct : (fund.operations.map (·.name)).Nodup := by decide
  have reached : Reaches σ (begun ["1"]) (Nat.repeat (step σ) 6 (begun ["1"])) :=
    Reaches.refl.step.step.step.step.step.step
  have selected : σ.menu.select? "2" =
      some ⟨2, "2. Pay(2 params)", "", false, .invoke "pay"⟩ := by decide +kernel
  have accepted : List.Forall₂ (Accepts σ.options.choiceRules) [⟨"to", "Bytes<2>"⟩] ["0xabcd"] :=
    .cons ⟨.bytes [0xab, 0xcd], by rfl⟩ .nil
  have refused : (Question.ofParameter σ.options.choiceRules ⟨"amount", "Uint<8>"⟩).interpret
      ⟨"amount", "Uint<8>"⟩ "300" = .error (.outOfRange "amount" ⟨0, some 255⟩ 300) := by rfl
  have aside : Aside σ (Nat.repeat (step σ) 6 (begun ["1"])).contract.ledgerState "2"
      (["0xabcd"] ++ ["300"]) _ _ :=
    .refused selected rfl (k := 1) rfl rfl accepted refused
  obtain ⟨result, _, contract, _⟩ := run_with_aside distinct [] [] [] reached rfl
    (by decide +kernel) aside ["2", "0xabcd", "30"]
  exact ⟨calls, contract, result⟩

end SessionState

end ContractSurface
