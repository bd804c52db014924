import ContractSurface.Proofs.Call.Invocation
import ContractSurface.Proofs.Session.Effects

/-! # Where the calls of a session come from

Every recorded call has its own stretch of the conversation: the exchange at the menu in which the
number of its operation was typed, and after it one exchange for each parameter, in which its
argument was given. A session that is still asking has such a stretch at the end of what was said.
-/
namespace ContractSurface

/-- The exchange is one at the menu, in which the number `k + 1` was typed. -/
def Exchange.Selects (e : Exchange) (k : Nat) : Prop :=
  e.promptText = menuPrompt ∧
    ∃ line, e.reply = .line line ∧ Text.naturalOfWidth? 64 (Text.trim line.toList) = some (k + 1)

/-- The exchange put the question for a parameter, and its line gave the argument. -/
def Exchange.Gives (rules : List ChoiceRule) (p : Parameter) (e : Exchange) (a : Argument) :
    Prop :=
  e.promptText = (Question.ofParameter rules p).prompt p ∧
    ∃ line, e.reply = .line line ∧ (Question.ofParameter rules p).interpret p line = .ok a

inductive Collected (rules : List ChoiceRule) (ps : List Parameter) :
    List Exchange → List Argument → Prop where
  | none : Collected rules ps [] []
  | next {es : List Exchange} {as : List Argument} {p : Parameter} {e : Exchange} {a : Argument} :
    Collected rules ps es as → ps[as.length]? = some p → e.Gives rules p a →
      Collected rules ps (es ++ [e]) (as ++ [a])

/-- The arguments are values of the first parameters, in order: a line of text converts to each. -/
structure ArgumentsFit (ps : List Parameter) (as : List Argument) : Prop where
  length_le : as.length ≤ ps.length
  converted : ∀ (j : Nat) (p : Parameter) (a : Argument), ps[j]? = some p → as[j]? = some a →
    (∃ text, convert p text = .ok a) ∧ a.Fits (parameterKind p.declaredType)

variable {i : Interface} {rules : List ChoiceRule}

/-- Arguments that were collected fit their parameters. -/
theorem Collected.argumentsFit {ps : List Parameter} {es : List Exchange} {as : List Argument}
    (h : Collected rules ps es as) : ArgumentsFit ps as := by
  induction h with
  | none => exact ⟨Nat.zero_le _, fun j p a _ ha => by cases ha⟩
  | @next es as p e a _ hp hg ih =>
    obtain ⟨_, line, _, hi⟩ := hg
    obtain ⟨text, ht⟩ := Question.exists_convert_of_interpret hi
    have short : as.length < ps.length := (List.getElem?_eq_some_iff.mp hp).1
    refine ⟨by rw [List.length_append]; exact short, ?_⟩
    intro j q b hq hb
    rcases Nat.lt_trichotomy j as.length with hj | rfl | hj
    · rw [List.getElem?_append_left hj] at hb
      exact ih.converted j q b hq hb
    · rw [List.getElem?_concat_length] at hb
      cases hb
      obtain rfl : p = q := Option.some.inj (hp.symm.trans hq)
      exact ⟨⟨text, ht⟩, convert_fits ht⟩
    · rw [List.getElem?_eq_none (by simp; omega)] at hb
      cases hb

structure Stretch (i : Interface) (rules : List ChoiceRule) (es : List Exchange) (k : Nat)
    (o : Operation) (as : List Argument) : Prop where
  operation : i.operations[k]? = some o
  exchanges : ∃ choice replies, es = choice :: replies ∧ choice.Selects k ∧
    Collected rules o.parameters replies as

/-- The calls come from stretches of the conversation that follow each other in their order; what
stands between and after them led to no recorded call. -/
inductive Explains (i : Interface) (rules : List ChoiceRule) :
    List Exchange → List RecordedCall → Prop where
  | nothing : Explains i rules [] []
  | exchange {es : List Exchange} {cs : List RecordedCall} (e : Exchange) :
    Explains i rules es cs → Explains i rules (es ++ [e]) cs
  | call {es stretch : List Exchange} {cs : List RecordedCall} {k : Nat} {o : Operation}
      {as : List Argument} :
    Explains i rules es cs → Stretch i rules stretch k o as →
      as.length = o.parameters.length →
      Explains i rules (es ++ stretch) (cs ++ [⟨o.name, as, o.mutates⟩])

theorem Explains.append {es : List Exchange} {cs : List RecordedCall} (h : Explains i rules es cs)
    (more : List Exchange) : Explains i rules (es ++ more) cs := by
  induction more generalizing es with
  | nil => rwa [List.append_nil]
  | cons e more ih =>
    have := ih (h.exchange e)
    rwa [List.append_assoc, List.singleton_append] at this

/-- A call of the interface, and where in the conversation it comes from. -/
def Origin (i : Interface) (rules : List ChoiceRule) (es : List Exchange) (c : RecordedCall) :
    Prop :=
  ∃ before stretch later k o, es = before ++ stretch ++ later ∧
    Stretch i rules stretch k o c.arguments ∧ c.name = o.name ∧ c.isTransaction = o.mutates ∧
    c.arguments.length = o.parameters.length ∧ ArgumentsFit o.parameters c.arguments

theorem Origin.append {es : List Exchange} {c : RecordedCall} (h : Origin i rules es c)
    (more : List Exchange) : Origin i rules (es ++ more) c := by
  obtain ⟨before, stretch, later, k, o, rfl, rest⟩ := h
  exact ⟨before, stretch, later ++ more, k, o, by simp, rest⟩

/-- Every call that is explained has an origin in the conversation. -/
theorem Explains.origin {es : List Exchange} {cs : List RecordedCall}
    (h : Explains i rules es cs) : ∀ c ∈ cs, Origin i rules es c := by
  induction h with
  | nothing => simp
  | exchange e _ ih => exact fun c hc => (ih c hc).append [e]
  | @call es stretch cs k o as _ hs hl ih =>
    intro c hc
    rcases List.mem_append.mp hc with hc | hc
    · exact (ih c hc).append stretch
    · obtain rfl := List.mem_singleton.mp hc
      obtain ⟨choice, replies, _, _, collected⟩ := hs.exchanges
      exact ⟨es, stretch, [], k, o, (List.append_nil _).symm, hs, rfl, rfl, hl,
        collected.argumentsFit⟩

def Underway (i : Interface) (rules : List ChoiceRule) (es : List Exchange)
    (cs : List RecordedCall) (k : Nat) (o : Operation) (as : List Argument) : Prop :=
  ∃ before stretch, es = before ++ stretch ∧ Explains i rules before cs ∧
    Stretch i rules stretch k o as

theorem Underway.explains {es : List Exchange} {cs : List RecordedCall} {k : Nat} {o : Operation}
    {as : List Argument} (h : Underway i rules es cs k o as) : Explains i rules es cs := by
  obtain ⟨before, stretch, rfl, he, _⟩ := h
  exact he.append stretch

theorem Underway.argumentsFit {es : List Exchange} {cs : List RecordedCall} {k : Nat}
    {o : Operation} {as : List Argument} (h : Underway i rules es cs k o as) :
    i.operations[k]? = some o ∧ ArgumentsFit o.parameters as := by
  obtain ⟨_, _, _, _, ho, choice, replies, _, _, collected⟩ := h
  exact ⟨ho, collected.argumentsFit⟩

theorem Underway.next {es : List Exchange} {cs : List RecordedCall} {k : Nat} {o : Operation}
    {as : List Argument} {p : Parameter} {e : Exchange} {a : Argument}
    (h : Underway i rules es cs k o as) (hp : o.parameters[as.length]? = some p)
    (hg : e.Gives rules p a) : Underway i rules (es ++ [e]) cs k o (as ++ [a]) := by
  obtain ⟨before, stretch, rfl, he, ho, choice, replies, rfl, hc, collected⟩ := h
  exact ⟨before, choice :: (replies ++ [e]), by simp, he, ho, choice, _, rfl, hc,
    collected.next hp hg⟩

def Stage.WellFormed (i : Interface) : Stage → Prop
  | .collecting k as => ∃ o, i.operations[k]? = some o ∧ ArgumentsFit o.parameters as
  | .answering k as p _ =>
    ∃ o, i.operations[k]? = some o ∧ ArgumentsFit o.parameters as ∧
      o.parameters[as.length]? = some p
  | .dispatching k as =>
    ∃ o, i.operations[k]? = some o ∧ ArgumentsFit o.parameters as ∧
      as.length = o.parameters.length
  | .reporting k _ => k < i.operations.length
  | _ => True

namespace SessionState

/-- What was said explains the calls, and at its end the arguments that are at hand. -/
def Invariant (i : Interface) (rules : List ChoiceRule) (s : SessionState) : Prop :=
  let es := s.console.exchanges
  let cs := s.contract.calls
  match s.stage with
  | .choosing => Explains i rules es cs ∧ s.console.asked = some menuPrompt
  | .collecting k as => ∃ o, Underway i rules es cs k o as
  | .answering k as p q =>
    ∃ o, Underway i rules es cs k o as ∧ o.parameters[as.length]? = some p ∧
      q = Question.ofParameter rules p ∧ s.console.asked = some (q.prompt p)
  | .dispatching k as =>
    ∃ o, Underway i rules es cs k o as ∧ as.length = o.parameters.length
  | .reporting k _ => Explains i rules es cs ∧ k < i.operations.length
  | _ => Explains i rules es cs

theorem Invariant.explains {s : SessionState} (h : Invariant i rules s) :
    Explains i rules s.console.exchanges s.contract.calls := by
  unfold Invariant at h
  dsimp only at h
  split at h
  · exact h.1
  · exact h.choose_spec.explains
  · exact h.choose_spec.1.explains
  · exact h.choose_spec.1.explains
  · exact h.1
  · exact h

theorem Invariant.wellFormed {s : SessionState} (h : Invariant i rules s) :
    s.stage.WellFormed i := by
  unfold Invariant at h
  unfold Stage.WellFormed
  cases hs : s.stage with
  | collecting k as =>
    rw [hs] at h
    obtain ⟨o, hu⟩ := h
    exact ⟨o, hu.argumentsFit⟩
  | answering k as p q =>
    rw [hs] at h
    obtain ⟨o, hu, hp, _⟩ := h
    exact ⟨o, hu.argumentsFit.1, hu.argumentsFit.2, hp⟩
  | dispatching k as =>
    rw [hs] at h
    obtain ⟨o, hu, hl⟩ := h
    exact ⟨o, hu.argumentsFit.1, hu.argumentsFit.2, hl⟩
  | reporting k result =>
    rw [hs] at h
    exact h.2
  | _ => trivial

theorem invariant_of_explains {s : SessionState}
    (h : Explains i rules s.console.exchanges s.contract.calls)
    (hs : s.stage = .menu ∨ s.stage = .showingState ∨ s.stage = .leaving ∨
      ∃ fault, s.stage = .ended fault) : Invariant i rules s := by
  unfold Invariant
  rcases hs with hs | hs | hs | ⟨fault, hs⟩ <;> rw [hs] <;> exact h

theorem invariant_say {s : SessionState} {next : Stage} (text : String)
    (h : Explains i rules s.console.exchanges s.contract.calls)
    (hn : next = .menu ∨ next = .ended none) : Invariant i rules (s.say text next) := by
  obtain ⟨stage, hstage, hs, hes, hc⟩ := s.say_cases text next
  have kept : Explains i rules (s.say text next).console.exchanges
      (s.say text next).contract.calls := by rwa [hes, hc]
  rcases hstage with rfl | ⟨fault, rfl⟩
  · rcases hn with rfl | rfl
    · exact invariant_of_explains kept (Or.inl hs)
    · exact invariant_of_explains kept (Or.inr (Or.inr (Or.inr ⟨_, hs⟩)))
  · exact invariant_of_explains kept (Or.inr (Or.inr (Or.inr ⟨_, hs⟩)))

variable {options : SessionOptions} {s : SessionState}

/-- The answer at the menu keeps every call explained. -/
theorem invariant_choose (hd : (i.operations.map (·.name)).Nodup)
    (h : Explains i rules s.console.exchanges s.contract.calls)
    (ha : s.console.asked = some menuPrompt) :
    Invariant i rules (s.choose (.ofInterface i options)) := by
  unfold choose
  rcases s.console.receive_cases with ⟨d, hr, hes⟩ | ⟨line, d, hr, hes⟩
  · rw [hr]
    refine invariant_of_explains ?_ (Or.inr (Or.inr (Or.inl rfl)))
    rw [hes]
    exact h.exchange _
  · rw [hr]
    rw [ha, Option.getD_some] at hes
    have said : Explains i rules d.exchanges s.contract.calls := hes ▸ h.exchange _
    dsimp only
    split
    · next item hitem =>
      cases hact : item.action with
      | exit => exact invariant_of_explains said (Or.inr (Or.inr (Or.inl rfl)))
      | showState => exact invariant_of_explains said (Or.inr (Or.inl rfl))
      | invoke name =>
        obtain ⟨k, o, hk, ho, rfl⟩ := Menu.select?_invoke hitem hact
        have index := Interface.operationIndex?_name hd ho
        have chosen : Exchange.Selects ⟨s.console.out, menuPrompt, .line line⟩ k :=
          ⟨rfl, line, rfl, hk⟩
        simp only [stageOfAction, Session.ofInterface, index]
        exact ⟨o, s.console.exchanges, _, hes, h, ho, _, [], rfl, chosen, .none⟩
    · exact invariant_say _ said (Or.inl rfl)

theorem invariant_collectNext {k : Nat} {o : Operation} {as : List Argument}
    (hu : Underway i options.choiceRules s.console.exchanges s.contract.calls k o as) :
    Invariant i options.choiceRules (s.collectNext (.ofInterface i options) k as) := by
  obtain ⟨ho, fit⟩ := hu.argumentsFit
  unfold collectNext
  simp only [Session.ofInterface, ho]
  split
  · next hp =>
    have all := List.getElem?_eq_none_iff.mp hp
    exact ⟨o, hu, Nat.le_antisymm fit.length_le all⟩
  · next p hp =>
    rcases s.after_writeAndAsk_cases ((Question.ofParameter options.choiceRules p).introduction p)
      ((Question.ofParameter options.choiceRules p).prompt p)
      (.answering k as p (Question.ofParameter options.choiceRules p)) with
      ⟨d, ht, hes, ha⟩ | ⟨fault, d, more, ht, hes⟩
    · rw [Question.put, ht]
      refine ⟨o, ?_, hp, rfl, ha⟩
      rwa [← hes] at hu
    · rw [Question.put, ht]
      refine invariant_of_explains ?_ (Or.inr (Or.inr (Or.inr ⟨_, rfl⟩)))
      rw [hes]
      exact hu.explains.append more

/-- The answer to a question keeps every call explained, too. -/
theorem invariant_answer {k : Nat} {o : Operation} {as : List Argument} {p : Parameter}
    {q : Question} (hu : Underway i rules s.console.exchanges s.contract.calls k o as)
    (hp : o.parameters[as.length]? = some p) (hq : q = Question.ofParameter rules p)
    (ha : s.console.asked = some (q.prompt p)) :
    Invariant i rules (s.answer (.ofInterface i options) k as p q) := by
  have ho := hu.argumentsFit.1
  unfold answer Question.take
  rcases s.console.receive_cases with ⟨d, hr, hes⟩ | ⟨line, d, hr, hes⟩
  · rw [hr]
    refine invariant_of_explains ?_ (Or.inr (Or.inr (Or.inl rfl)))
    rw [hes]
    exact hu.explains.exchange _
  · rw [hr]
    rw [ha, Option.getD_some] at hes
    have said : Explains i rules d.exchanges s.contract.calls := hes ▸ hu.explains.exchange _
    dsimp only
    split
    · next a hi =>
      subst hq
      have given : Exchange.Gives rules p
          ⟨s.console.out, (Question.ofParameter rules p).prompt p, .line line⟩ a :=
        ⟨rfl, line, rfl, hi⟩
      exact ⟨o, hes ▸ hu.next hp given⟩
    · exact invariant_of_explains said (Or.inr (Or.inr (Or.inl rfl)))
    · simp only [Session.ofInterface, ho]
      exact invariant_say _ said (Or.inl rfl)

/-- A dispatch records the call that the arguments at hand explain. -/
theorem invariant_dispatch (hd : (i.operations.map (·.name)).Nodup) {k : Nat} {o : Operation}
    {as : List Argument} (hu : Underway i rules s.console.exchanges s.contract.calls k o as)
    (hl : as.length = o.parameters.length) :
    Invariant i rules (s.dispatch (.ofInterface i options) k as) := by
  have ho := hu.argumentsFit.1
  obtain ⟨hk, member⟩ := List.getElem?_eq_some_iff.mp ho
  have mutates := Capabilities.lookup_bind hd (member ▸ List.getElem_mem hk)
  unfold dispatch
  simp only [Session.ofInterface, ho]
  refine ⟨?_, hk⟩
  rcases Capabilities.calls_invoke mutates as s.contract with same | taken
  · dsimp only
    rw [same]
    exact hu.explains
  · dsimp only
    rw [taken]
    obtain ⟨before, stretch, hes, he, hs⟩ := hu
    rw [hes]
    exact he.call hs hl

theorem invariant_report {k : Nat} (result : Except InvocationError CallOutcome)
    (h : Explains i rules s.console.exchanges s.contract.calls) (hk : k < i.operations.length) :
    Invariant i rules (s.report (.ofInterface i options) k result) := by
  unfold report
  simp only [Session.ofInterface, List.getElem?_eq_getElem hk]
  exact invariant_say _ h (Or.inl rfl)

/-- Every step of a session keeps the invariant. -/
theorem invariant_step (hd : (i.operations.map (·.name)).Nodup)
    (h : Invariant i options.choiceRules s) :
    Invariant i options.choiceRules (s.step (.ofInterface i options)) := by
  have explains := h.explains
  unfold Invariant at h
  unfold step
  cases hs : s.stage with
  | menu =>
    rcases s.after_writeAndAsk_cases (Session.menuText (.ofInterface i options)) menuPrompt
      .choosing with ⟨d, ht, hes, ha⟩ | ⟨fault, d, more, ht, hes⟩
    · dsimp only
      rw [ht]
      exact ⟨hes ▸ explains, ha⟩
    · dsimp only
      rw [ht]
      refine invariant_of_explains ?_ (Or.inr (Or.inr (Or.inr ⟨_, rfl⟩)))
      rw [hes]
      exact explains.append more
  | choosing =>
    rw [hs] at h
    exact invariant_choose hd explains h.2
  | collecting k as =>
    rw [hs] at h
    obtain ⟨o, hu⟩ := h
    exact invariant_collectNext hu
  | answering k as p q =>
    rw [hs] at h
    obtain ⟨o, hu, hp, hq, ha⟩ := h
    exact invariant_answer hu hp hq ha
  | dispatching k as =>
    rw [hs] at h
    obtain ⟨o, hu, hl⟩ := h
    exact invariant_dispatch hd hu hl
  | reporting k result =>
    rw [hs] at h
    exact invariant_report result explains h.2
  | showingState => exact invariant_say _ explains (Or.inl rfl)
  | leaving => exact invariant_say _ explains (Or.inr rfl)
  | ended fault =>
    dsimp only
    exact invariant_of_explains explains (Or.inr (Or.inr (Or.inr ⟨_, hs⟩)))

theorem Reaches.invariant {t : SessionState} (hd : (i.operations.map (·.name)).Nodup)
    (hr : Reaches (.ofInterface i options) s t) (h : Invariant i options.choiceRules s) :
    Invariant i options.choiceRules t := by
  induction hr with
  | refl => exact h
  | step _ ih => exact invariant_step hd ih

theorem invariant_start (c : Console) (contract : DryRun) (hc : c.exchanges = [])
    (hn : contract.calls = []) : Invariant i rules (start c contract) := by
  have explains : Explains i rules c.exchanges contract.calls := by
    rw [hc, hn]
    exact .nothing
  exact invariant_of_explains explains (Or.inl rfl)

/-- Wherever a session comes to, the operation in hand exists and its arguments fit it; the calls
follow the conversation, and each has its own stretch of it. The states of a run are among them. -/
theorem reaches_calls_originate (hd : (i.operations.map (·.name)).Nodup)
    (options : SessionOptions) (answers : List String) (room inputFailsAt : Option Nat)
    (ledger : List (String × Json)) (rejections : List (String × String))
    (onceOnly : List String) :
    let σ := Session.ofInterface i options
    let s := start (.ofAnswers answers room inputFailsAt) (.fresh ledger rejections onceOnly)
    Reaches σ s (run σ s) ∧ ∀ t, Reaches σ s t →
      t.stage.WellFormed i ∧
      Explains i options.choiceRules t.console.exchanges t.contract.calls ∧
      ∀ c ∈ t.contract.calls, Origin i options.choiceRules t.console.exchanges c := by
  intro σ s
  refine ⟨reaches_run σ s, ?_⟩
  intro t reached
  have start : Invariant i options.choiceRules s := invariant_start _ _ rfl rfl
  have invariant := reached.invariant hd start
  exact ⟨invariant.wellFormed, invariant.explains, invariant.explains.origin⟩

def ballot : Interface where
  contractName := "ballot"
  operations := [
    ⟨"tally", [], "Uint<32>", false, ""⟩,
    ⟨"cast_vote", [⟨"index", "Uint<0..3>"⟩, ⟨"memo", "Opaque<\"string\">"⟩], "[]", true, ""⟩]
  stateVariables := [⟨"votes", "Uint<32>"⟩]

def ballotSession : SessionState :=
  start (.ofAnswers ["2", "9", "2", " 3 ", "thank you"] none none) (.fresh [] [] [])

theorem ballotSession_vote_originates :
    (ballot.operations.map (·.name)).Nodup ∧
    (run (.ofInterface ballot .standard) ballotSession).contract.calls =
      [⟨"cast_vote", [.integer 2, .text "thank you"], true⟩] ∧
    Origin ballot SessionOptions.standard.choiceRules
      (run (.ofInterface ballot .standard) ballotSession).console.exchanges
      ⟨"cast_vote", [.integer 2, .text "thank you"], true⟩ := by
  have distinct : (ballot.operations.map (·.name)).Nodup := by decide
  have calls : (run (.ofInterface ballot .standard) ballotSession).contract.calls =
      [⟨"cast_vote", [.integer 2, .text "thank you"], true⟩] := by
    rw [run_eq_repeat (n := 20) (by decide +kernel)]
    decide +kernel
  obtain ⟨reached, facts⟩ := reaches_calls_originate distinct .standard
    ["2", "9", "2", " 3 ", "thank you"] none none [] [] []
  obtain ⟨_, _, origins⟩ := facts _ reached
  have recorded : ⟨"cast_vote", [.integer 2, .text "thank you"], true⟩ ∈
      (run (.ofInterface ballot .standard) ballotSession).contract.calls := by
    rw [calls]
    exact List.mem_singleton_self _
  exact ⟨distinct, calls, origins _ recorded⟩

end SessionState

end ContractSurface
