import ContractSurface.Proofs.Session.Transparency

/-! # What a session does with its answers

On a console that never breaks a session uses its answers one after the other, one for each prompt,
and it ends because its menu was left or because there was no answer to a prompt. An action that is
in hand when the answers run out has dispatched nothing.
-/
namespace ContractSurface

namespace Stage

def isOver : Stage → Bool
  | .leaving => true
  | .ended _ => true
  | _ => false

def inHand : Stage → Option (Nat × List Argument)
  | .collecting k as => some (k, as)
  | .answering k as _ _ => some (k, as)
  | .dispatching k as => some (k, as)
  | _ => none

theorem isOver_of_waits {stage : Stage} (h : stage.waits = true) : stage.isOver = false := by
  cases stage <;> first | rfl | cases h

theorem isOver_of_inHand {stage : Stage} {k : Nat} {as : List Argument}
    (h : stage.inHand = some (k, as)) : stage.isOver = false := by
  cases stage <;> first | rfl | cases h

theorem exists_answering {stage : Stage} {k : Nat} {as : List Argument}
    (waits : stage.waits = true) (h : stage.inHand = some (k, as)) :
    ∃ p q, stage = .answering k as p q := by
  cases stage with
  | answering k as p q =>
    cases h
    exact ⟨p, q, rfl⟩
  | choosing => cases h
  | _ => cases waits

end Stage

namespace SessionState

variable {σ : Session} {s t u v : SessionState} {answers : List String}

theorem hear_of_not_waits (h : u.stage.waits = false) : u.hear = (none, u.console) := by
  rw [hear, if_neg (by simp [h])]

theorem hear_of_nil (waits : u.stage.waits = true) (empty : u.console.answers = []) :
    u.hear = (none, u.console.finish (u.console.asked.getD "") .closed) := by
  rw [hear, if_pos waits, Console.receive, empty]

theorem hear_of_cons (waits : u.stage.waits = true) {line : String} {rest : List String}
    (next : u.console.answers = line :: rest) :
    u.hear = (some line,
      { u.console.finish (u.console.asked.getD "") (.line line) with answers := rest }) := by
  rw [hear, if_pos waits, Console.receive, next]

theorem answers_of_hear {line : String} (heard : u.hear.1 = some line) :
    u.console.answers = line :: u.hear.2.answers := by
  cases waits : u.stage.waits with
  | false =>
    rw [hear_of_not_waits waits] at heard
    cases heard
  | true =>
    cases next : u.console.answers with
    | nil =>
      rw [hear_of_nil waits next] at heard
      cases heard
    | cons first rest =>
      rw [hear_of_cons waits next] at heard ⊢
      cases heard
      rfl

@[simp] theorem answers_said (c : Console) (v : Speech) : (c.said v).answers = c.answers := by
  cases v <;> rfl

theorem answers_step (h : u.console.Sound) : (u.step σ).console.answers = u.hear.2.answers := by
  rw [step_of_sound h]
  simp

theorem exchanges_step (h : u.console.Sound) :
    (u.step σ).console.exchanges = u.hear.2.exchanges := by
  rw [step_of_sound h]
  simp

/-- How the operation in hand and its arguments come out of a state and what it hears. -/
inductive Carries (σ : Session) (u : SessionState) : Option String → Nat → List Argument → Prop where
  | selected {line : String} {item : MenuItem} {k : Nat} (stage : u.stage = .choosing)
      (selects : σ.menu.select? line = some item)
      (leads : stageOfAction σ.interface item.action = .collecting k []) :
      Carries σ u (some line) k []
  | kept {k : Nat} {as : List Argument} (inHand : u.stage.inHand = some (k, as))
      (waits : u.stage.waits = false) (line : Option String) : Carries σ u line k as
  | given {line : String} {k : Nat} {as : List Argument} (a : Argument)
      (inHand : u.stage.inHand = some (k, as)) (waits : u.stage.waits = true) :
      Carries σ u (some line) k (as ++ [a])

def ExitsOn (σ : Session) (line : String) : Prop :=
  ∃ item, σ.menu.select? line = some item ∧ item.action = .exit

/-- The stages before a stage: the menu before its prompt; an exit, or no answer, before the end;
and before an operation with arguments what it comes out of. -/
structure MoveLeads (σ : Session) (u : SessionState) (line : Option String) (m : Move) : Prop where
  choosing : m.next = .choosing → u.stage = .menu
  closes : m.next.isOver = true → u.stage.isOver = true ∨
    u.stage.waits = true ∧ ∀ l, line = some l → u.stage = .choosing ∧ ExitsOn σ l
  ended : ∀ fault, m.next = .ended fault → u.stage = .leaving ∨ u.stage = .ended fault
  inHand : ∀ k as, m.next.inHand = some (k, as) →
    Carries σ u line k as ∧ m.contract = u.contract ∧ m.summary = u.summary

theorem moveLeads_aside {line : Option String} {m : Move} (choosing : m.next ≠ .choosing)
    (closes : m.next.isOver = false) (inHand : m.next.inHand = none) : MoveLeads σ u line m := by
  refine ⟨fun h => absurd h choosing, fun h => ?_, fun fault h => ?_, fun k as h => ?_⟩
  · rw [closes] at h
    cases h
  · rw [h] at closes
    cases closes
  · rw [inHand] at h
    cases h

theorem moveLeads_carries {line : Option String} {m : Move} {k : Nat} {as : List Argument}
    (inHand : m.next.inHand = some (k, as)) (carries : Carries σ u line k as)
    (contract : m.contract = u.contract) (summary : m.summary = u.summary) :
    MoveLeads σ u line m := by
  refine ⟨fun h => ?_, fun h => ?_, fun fault h => ?_, fun k' as' h => ?_⟩
  · rw [h] at inHand
    cases inHand
  · rw [Stage.isOver_of_inHand inHand] at h
    cases h
  · rw [h] at inHand
    cases inHand
  · rw [inHand] at h
    cases h
    exact ⟨carries, contract, summary⟩

theorem moveLeads_leaving {line : Option String} {m : Move} (leaving : m.next = .leaving)
    (waits : u.stage.waits = true)
    (exits : ∀ l, line = some l → u.stage = .choosing ∧ ExitsOn σ l) : MoveLeads σ u line m := by
  refine ⟨fun h => ?_, fun _ => .inr ⟨waits, exits⟩, fun fault h => ?_, fun k as h => ?_⟩
  · rw [leaving] at h
    cases h
  · rw [leaving] at h
    cases h
  · rw [leaving] at h
    cases h

/-- Every move leads as the stages are ordered. -/
theorem Moves.leads {line : Option String} {m : Move} (h : Moves σ u line m) :
    MoveLeads σ u line m := by
  cases h with
  | opens stage =>
    exact ⟨fun _ => stage, fun h => (by cases h), fun _ h => (by cases h),
      fun _ _ h => (by cases h)⟩
  | selects stage selects leads =>
    exact moveLeads_carries rfl (.selected stage selects leads) rfl rfl
  | exits stage selects exit =>
    refine moveLeads_leaving rfl (by rw [stage]; rfl) fun l h => ?_
    cases h
    exact ⟨stage, _, selects, exit⟩
  | breaksOff waits => exact moveLeads_leaving rfl waits fun _ h => by cases h
  | asks stage =>
    exact moveLeads_carries rfl (.kept (by rw [stage]; rfl) (by rw [stage]; rfl) line) rfl rfl
  | @accepts _ _ _ _ _ a stage =>
    exact moveLeads_carries rfl (.given a (by rw [stage]; rfl) (by rw [stage]; rfl)) rfl rfl
  | completes stage =>
    exact moveLeads_carries rfl (.kept (by rw [stage]; rfl) (by rw [stage]; rfl) line) rfl rfl
  | takesLeave stage =>
    exact ⟨fun h => (by cases h), fun _ => .inl (by rw [stage]; rfl), fun _ _ => .inl stage,
      fun _ _ h => (by cases h)⟩
  | stays stage =>
    exact ⟨fun h => (by cases h), fun _ => .inl (by rw [stage]; rfl), fun _ h => .inr (stage.trans h),
      fun _ _ h => (by cases h)⟩
  | _ => exact moveLeads_aside (by simp) rfl rfl

theorem moveLeads_step (h : u.console.Sound) :
    MoveLeads σ u u.hear.1 ⟨.silent, (u.step σ).stage, (u.step σ).contract, (u.step σ).summary⟩ := by
  have leads := (moves_move σ u u.hear.1).leads
  rw [step_of_sound h]
  exact ⟨leads.choosing, leads.closes, leads.ended, leads.inHand⟩

structure TakesLeave (σ : Session) (v : SessionState) (line : String) (rest : List String) :
    Prop where
  stage : v.stage = .choosing
  asked : v.console.asked = some menuPrompt
  answers : v.console.answers = line :: rest
  exits : ExitsOn σ line

/-- The action in hand was selected at `v` and has got an argument for each answer since then, and
nothing was dispatched. -/
structure BegunAt (σ : Session) (v u : SessionState) (k : Nat) (as : List Argument) : Prop where
  stage : v.stage = .choosing
  reaches : Reaches σ v u
  selected : ∃ line item given, v.console.answers = line :: (given ++ u.console.answers) ∧
    given.length = as.length ∧ σ.menu.select? line = some item ∧
    stageOfAction σ.interface item.action = .collecting k []
  contract : u.contract = v.contract
  summary : u.summary = v.summary

theorem Reaches.exists_repeat (h : Reaches σ s u) : ∃ n, Nat.repeat (SessionState.step σ) n s = u := by
  induction h with
  | refl => exact ⟨0, rfl⟩
  | step _ ih =>
    obtain ⟨n, rfl⟩ := ih
    exact ⟨n + 1, rfl⟩

theorem Reaches.menuPrompt_of_choosing (h : Reaches σ s u) (hs : s.console.Sound)
    (begun : s.stage = .menu) (choosing : u.stage = .choosing) :
    u.console.asked = some menuPrompt := by
  cases h with
  | refl =>
    rw [begun] at choosing
    cases choosing
  | @step t h =>
    have menu := (moveLeads_step (h.sound hs)).choosing choosing
    rw [step_of_sound (h.sound hs)]
    simp only [move, menu]
    rfl

/-- An operation in hand was selected at the menu, and its arguments come from the answers since. -/
theorem Reaches.exists_begunAt (h : Reaches σ s u) (hs : s.console.Sound)
    (begun : s.stage = .menu) {k : Nat} {as : List Argument}
    (inHand : u.stage.inHand = some (k, as)) : ∃ v, Reaches σ s v ∧ BegunAt σ v u k as := by
  induction h generalizing k as with
  | refl =>
    rw [begun] at inHand
    cases inHand
  | @step t h ih =>
    have sound := h.sound hs
    obtain ⟨carries, contract, summary⟩ := (moveLeads_step sound).inHand k as inHand
    generalize heard : t.hear.1 = line at carries
    have answers := answers_step (σ := σ) sound
    cases carries with
    | @selected line item _ stage selects leads =>
      refine ⟨t, h, stage, Reaches.refl.step, ⟨line, item, [], ?_, rfl, selects, leads⟩,
        contract, summary⟩
      rw [answers_of_hear heard, answers, List.nil_append]
    | kept before waits =>
      obtain ⟨v, hv, since⟩ := ih before
      rw [hear_of_not_waits waits] at answers
      refine ⟨v, hv, since.stage, since.reaches.step, ?_, contract.trans since.contract,
        summary.trans since.summary⟩
      rw [answers]
      exact since.selected
    | @given line _ as' a before =>
      obtain ⟨v, hv, since⟩ := ih before
      obtain ⟨selection, item, given, taken, length, selects, leads⟩ := since.selected
      refine ⟨v, hv, since.stage, since.reaches.step,
        ⟨selection, item, given ++ [line], ?_, by simp [length], selects, leads⟩,
        contract.trans since.contract, summary.trans since.summary⟩
      rw [taken, answers, answers_of_hear heard]
      simp

/-- What a session says last. -/
theorem Reaches.farewell (h : Reaches σ s u) (hs : s.console.Sound) (begun : s.stage = .menu)
    {fault : Option Fault} (ended : u.stage = .ended fault) :
    fault = none ∧ Text.utf8 "Goodbye.\n" <:+ u.console.written := by
  induction h with
  | refl =>
    rw [begun] at ended
    cases ended
  | @step t h ih =>
    have sound := h.sound hs
    rcases (moveLeads_step sound).ended fault ended with leaving | already
    · have move : t.move σ t.hear.1 = ⟨.tells "Goodbye.\n", .ended none, t.contract, t.summary⟩ := by
        simp only [SessionState.move, leaving]
      rw [step_of_sound sound, move] at ended
      refine ⟨(Stage.ended.inj ended).symm, ?_⟩
      rw [written_step sound, move]
      exact List.suffix_append _ _
    · rw [step_ended already]
      exact ih already

/-- What closed a session, with the replies that came after the answers. -/
inductive Closing (σ : Session) (s u : SessionState) : List Reply → Prop where
  | running (goesOn : u.stage.isOver = false) : Closing σ s u []
  | left {v : SessionState} {line : String} (closes : u.stage.isOver = true) (reached : Reaches σ s v)
      (leaves : TakesLeave σ v line u.console.answers) : Closing σ s u []
  | usedUp (closes : u.stage.isOver = true) (empty : u.console.answers = []) :
      Closing σ s u [.closed]

theorem Closing.eq_nil {closing : List Reply} (h : Closing σ s u closing)
    (goesOn : u.stage.isOver = false) : closing = [] := by
  cases h with
  | usedUp closes =>
    rw [goesOn] at closes
    cases closes
  | _ => rfl

/-- A session that is over stays so. -/
theorem isOver_step (h : u.console.Sound) (closes : u.stage.isOver = true) :
    (u.step σ).stage.isOver = true := by
  rw [step_of_sound h]
  cases hs : u.stage with
  | leaving => simp [move, hs, Stage.isOver]
  | ended fault => simp [move, hs, Stage.isOver]
  | _ =>
    rw [hs] at closes
    cases closes

/-- The answers that a session has used are the replies it got, in their order, up to what closed
it. -/
def UsesAnswers (σ : Session) (s u : SessionState) : Prop :=
  ∃ used closing, used ++ u.console.answers = s.console.answers ∧
    u.console.exchanges.map (·.reply) = used.map .line ++ closing ∧ Closing σ s u closing

/-- A step that finds no answer closes the input. -/
theorem UsesAnswers.step_of_nil (h : UsesAnswers σ s u) (hu : u.console.Sound)
    (waits : u.stage.waits = true) (empty : u.console.answers = []) :
    UsesAnswers σ s (u.step σ) := by
  obtain ⟨used, closing, all, replies, closed⟩ := h
  obtain rfl := closed.eq_nil (Stage.isOver_of_waits waits)
  have answers := answers_step (σ := σ) hu
  have exchanges := exchanges_step (σ := σ) hu
  rw [hear_of_nil waits empty] at answers exchanges
  have spent : (u.step σ).console.answers = [] := answers.trans empty
  have leaving : (u.step σ).stage.isOver = true := by
    rw [step_of_used_up hu waits empty]
    rfl
  refine ⟨used, [.closed], by rw [spent, ← all, empty], ?_, .usedUp leaving spent⟩
  rw [exchanges, Console.finish, List.map_append, replies, List.append_nil]
  rfl

/-- A step that waits uses the next answer. -/
theorem UsesAnswers.step_of_cons (h : UsesAnswers σ s u) (hr : Reaches σ s u)
    (hs : s.console.Sound) (begun : s.stage = .menu) (waits : u.stage.waits = true) {line : String}
    {rest : List String} (next : u.console.answers = line :: rest) :
    UsesAnswers σ s (u.step σ) := by
  have sound := hr.sound hs
  have goesOn := Stage.isOver_of_waits waits
  obtain ⟨used, closing, all, replies, closed⟩ := h
  obtain rfl := closed.eq_nil goesOn
  have leads := moveLeads_step (σ := σ) sound
  have answers := answers_step (σ := σ) sound
  have exchanges := exchanges_step (σ := σ) sound
  rw [hear_of_cons waits next] at answers exchanges leads
  have taken : (u.step σ).console.answers = rest := answers
  refine ⟨used ++ [line], [], by rw [taken, ← all, next]; simp, ?_, ?_⟩
  · rw [exchanges]
    dsimp only [Console.finish]
    rw [List.map_append, replies]
    simp
  · by_cases closes : (u.step σ).stage.isOver = true
    · rcases leads.closes closes with already | ⟨_, exits⟩
      · rw [goesOn] at already
        cases already
      · obtain ⟨choosing, exit⟩ := exits line rfl
        exact .left closes hr ⟨choosing, hr.menuPrompt_of_choosing hs begun choosing,
          next.trans (by rw [taken]), exit⟩
    · exact .running (by simpa using closes)

/-- A step that does not wait uses no answer. -/
theorem UsesAnswers.step_of_quiet (h : UsesAnswers σ s u) (hu : u.console.Sound)
    (quiet : u.stage.waits = false) : UsesAnswers σ s (u.step σ) := by
  obtain ⟨used, closing, all, replies, closed⟩ := h
  have leads := moveLeads_step (σ := σ) hu
  have answers := answers_step (σ := σ) hu
  have exchanges := exchanges_step (σ := σ) hu
  rw [hear_of_not_waits quiet] at answers exchanges
  refine ⟨used, closing, by rw [answers]; exact all, by rw [exchanges]; exact replies, ?_⟩
  cases closed with
  | running goesOn =>
    refine .running ?_
    by_contra closes
    rcases leads.closes (by simpa using closes) with already | ⟨waits, _⟩
    · rw [goesOn] at already
      cases already
    · rw [quiet] at waits
      cases waits
  | left closes reached leaves => exact .left (isOver_step hu closes) reached (answers ▸ leaves)
  | usedUp closes empty => exact .usedUp (isOver_step hu closes) (answers.trans empty)

/-- Wherever a session stands, it has used its answers in their order. -/
theorem Reaches.usesAnswers (h : Reaches σ s u) (hs : s.console.Sound) (begun : s.stage = .menu)
    (unsaid : s.console.exchanges = []) : UsesAnswers σ s u := by
  induction h with
  | refl => exact ⟨[], [], rfl, by rw [unsaid]; rfl, .running (by rw [begun]; rfl)⟩
  | @step t h ih =>
    cases waits : t.stage.waits with
    | false => exact ih.step_of_quiet (h.sound hs) waits
    | true =>
      cases next : t.console.answers with
      | nil => exact ih.step_of_nil (h.sound hs) waits next
      | cons line rest => exact ih.step_of_cons h hs begun waits next

/-- A session without an answer to its prompt only takes its leave. -/
theorem run_of_used_up (h : u.console.Sound) (waits : u.stage.waits = true)
    (empty : u.console.answers = []) :
    (run σ u).contract = u.contract ∧ (run σ u).summary = u.summary := by
  have heard : u.hear.1 = none := by rw [hear_of_nil waits empty]
  have first := step_of_sound (σ := σ) h
  rw [heard, move_none waits] at first
  have second := step_of_sound (σ := σ) (sound_step (σ := σ) h)
  rw [first] at second
  rw [← run_step, ← run_step, run_of_ended, first, second]
  · exact ⟨rfl, rfl⟩
  · rw [first, second]
    rfl

section

variable (i : Interface) (options : SessionOptions)

/-- A session on a console that never breaks ends well after at most one prompt more than there are
answers. It uses the answers in order, one for each prompt that gets one. If answers are left, the
last one used selected the exit; if none did, all are used, and one more prompt finds the input
closed. An action in hand when the answers run out dispatches nothing. -/
theorem run_uses_answers (answers : List String) (contract : DryRun) :
    let σ := Session.ofInterface i options
    let s := start (.ofAnswers answers none none) contract
    let t := run σ s
    (∃ n, Nat.repeat (step σ) n s = t) ∧ t.stage = .ended none ∧ t.result = .ok t.summary ∧
    t.console.prompts.length ≤ answers.length + 1 ∧
    Text.utf8 "Goodbye.\n" <:+ t.console.written ∧
    (∃ used, used ++ t.console.answers = answers ∧
      (t.console.exchanges.map (·.reply) = used.map .line ∨
        t.console.exchanges.map (·.reply) = used.map .line ++ [.closed])) ∧
    (t.console.answers ≠ [] →
      ∃ v line, Reaches σ s v ∧ TakesLeave σ v line t.console.answers) ∧
    ((∀ v line rest, Reaches σ s v → ¬TakesLeave σ v line rest) →
      t.console.answers = [] ∧ t.console.prompts.length = answers.length + 1 ∧
        t.console.exchanges.map (·.reply) = answers.map .line ++ [.closed]) ∧
    ∀ u k as p q, Reaches σ s u → u.stage = .answering k as p q → u.console.answers = [] →
      t.contract = u.contract ∧ t.summary = u.summary ∧
        ∃ v, Reaches σ s v ∧ BegunAt σ v u k as := by
  intro σ s t
  have sound : s.console.Sound := ⟨rfl, rfl⟩
  have reached : Reaches σ s t := reaches_run σ s
  obtain ⟨fault, ended⟩ := Stage.exists_eq_ended (isEnded_run σ s)
  obtain ⟨rfl, goodbye⟩ := reached.farewell sound rfl ended
  obtain ⟨used, closing, all, replies, closed⟩ := reached.usesAnswers sound rfl rfl
  have given : used ++ t.console.answers = answers := all
  have shown : t.console.prompts.length = used.length + closing.length := by
    have count := congrArg List.length replies
    simpa [Console.prompts] using count
  have counted : used.length + t.console.answers.length = answers.length := by
    rw [← given, List.length_append]
  have closes : t.stage.isOver = true := by
    rw [ended]
    rfl
  refine ⟨reached.exists_repeat, ended, result_run sound (fun f h => nomatch h), ?_, goodbye,
    ⟨used, given, ?_⟩, ?_, ?_, ?_⟩
  · cases closed <;> simp at shown <;> omega
  · cases closed with
    | running => exact .inl (by simpa using replies)
    | left => exact .inl (by simpa using replies)
    | usedUp => exact .inr replies
  · intro unused
    cases closed with
    | running goesOn =>
      rw [closes] at goesOn
      cases goesOn
    | left _ reached leaves => exact ⟨_, _, reached, leaves⟩
    | usedUp _ empty => exact absurd empty unused
  · intro stays
    cases closed with
    | running goesOn =>
      rw [closes] at goesOn
      cases goesOn
    | left _ reached leaves => exact absurd leaves (stays _ _ _ reached)
    | usedUp _ empty =>
      rw [empty, List.append_nil] at given
      exact ⟨empty, by rw [shown, given]; rfl, by rw [replies, given]⟩
  · intro u k as p q reached stage empty
    have waits : u.stage.waits = true := by
      rw [stage]
      rfl
    obtain ⟨contract, summary⟩ := run_of_used_up (σ := σ) (reached.sound sound) waits empty
    rw [reached.run_eq] at contract summary
    exact ⟨contract, summary, reached.exists_begunAt sound rfl (by rw [stage]; rfl)⟩

end

/-- Of two answers the first leaves the fund and the second is not read; and a payment whose amount
is missing is not made. -/
theorem fundSession_uses_answers :
    let σ := Session.ofInterface fund .standard
    let begun := fun answers => start (.ofAnswers answers none none) (.fresh [] [] [])
    let left := run σ (begun ["4", "1"])
    let cut := run σ (begun ["2", "0xabcd"])
    left.console.answers = ["1"] ∧
    (∃ v line, Reaches σ (begun ["4", "1"]) v ∧ TakesLeave σ v line ["1"]) ∧
    cut.console.prompts.length = 3 ∧ cut.summary.dispatched = 0 ∧ cut.contract.calls = [] := by
  intro σ begun left cut
  have unread : left.console.answers = ["1"] := by
    rw [show left = _ from run_eq_repeat (n := 4) (by decide +kernel)]
    decide +kernel
  have shown : cut.console.prompts.length = 3 := by
    rw [show cut = _ from run_eq_repeat (n := 7) (by decide +kernel)]
    decide +kernel
  obtain ⟨_, _, _, _, _, _, leaves, _, _⟩ :=
    run_uses_answers fund .standard ["4", "1"] (.fresh [] [] [])
  have exits := leaves (by rw [show (run _ _).console.answers = _ from unread]; simp)
  rw [show (run _ _).console.answers = _ from unread] at exits
  -- five steps lead to the question for the amount
  let asked := Nat.repeat (step σ) 5 (begun ["2", "0xabcd"])
  have reached : Reaches σ (begun ["2", "0xabcd"]) asked := Reaches.refl.step.step.step.step.step
  have waits : asked.stage.waits = true := by decide +kernel
  have inHand : asked.stage.inHand = some (1, [.bytes [0xab, 0xcd]]) := by decide +kernel
  obtain ⟨p, q, stage⟩ := Stage.exists_answering waits inHand
  obtain ⟨_, _, _, _, _, _, _, _, stops⟩ :=
    run_uses_answers fund .standard ["2", "0xabcd"] (.fresh [] [] [])
  obtain ⟨contract, summary, _⟩ := stops asked _ _ p q reached stage (by decide +kernel)
  refine ⟨unread, exits, shown, ?_, ?_⟩
  · exact (congrArg Summary.dispatched summary).trans (by decide +kernel)
  · exact (congrArg DryRun.calls contract).trans (by decide +kernel)

end SessionState

end ContractSurface
