import ContractSurface.Session.Machine

/-! # What the effects of a session do

Output leaves the exchanges of a console alone; a prompt is shown or breaks the input; an answer
ends the exchange of the prompt that waits for it. A selection leads to the operation whose number
was typed. A run goes through states that single steps lead to.
-/
namespace ContractSurface

/-- No line of input converts to the news that the input is closed. -/
theorem convert_ne_inputClosed (p : Parameter) (input name : String) :
    convert p input ≠ .error (.inputClosed name) := by
  unfold convert
  split
  · unfold convertInteger
    dsimp only
    split
    · split <;> simp
    · simp
  · unfold convertBoolean
    split <;> simp
  · unfold convertBytes
    split
    · split <;> simp
    · simp
  · simp

theorem Question.interpret_ne_inputClosed (p : Parameter) (line name : String) (q : Question) :
    q.interpret p line ≠ .error (.inputClosed name) := by
  cases q with
  | free => exact convert_ne_inputClosed p line name
  | pick choices =>
    unfold interpret
    dsimp only
    split
    · exact convert_ne_inputClosed p _ name
    · simp

namespace Console

theorem exchanges_write (c : Console) (text : String) :
    (c.write text).2.exchanges = c.exchanges := by
  unfold write
  split <;> rfl

theorem writeAndAsk_cases (c : Console) (text promptText : String) :
    (∃ d, c.writeAndAsk text promptText = (.ok (), d) ∧ d.exchanges = c.exchanges ∧
      d.asked = some promptText) ∨
    ∃ fault d more, c.writeAndAsk text promptText = (.error fault, d) ∧
      d.exchanges = c.exchanges ++ more := by
  have kept := c.exchanges_write text
  unfold writeAndAsk
  split
  · next d hw =>
    rw [hw] at kept
    unfold ask
    split
    · exact Or.inr ⟨_, _, [⟨d.out, promptText, .failed⟩], rfl, congrArg (· ++ _) kept⟩
    · exact Or.inl ⟨_, rfl, kept, rfl⟩
  · next fault d hw =>
    rw [hw] at kept
    exact Or.inr ⟨fault, d, [], rfl, by rw [kept, List.append_nil]⟩

/-- The prompt that waits gets a line, or learns that there is none. -/
theorem receive_cases (c : Console) :
    (∃ d, c.receive = (none, d) ∧
      d.exchanges = c.exchanges ++ [⟨c.out, c.asked.getD "", .closed⟩]) ∨
    ∃ line d, c.receive = (some line, d) ∧
      d.exchanges = c.exchanges ++ [⟨c.out, c.asked.getD "", .line line⟩] := by
  unfold receive
  split
  · exact Or.inl ⟨_, rfl, rfl⟩
  · next line rest _ => exact Or.inr ⟨line, _, rfl, rfl⟩

end Console

namespace Menu

/-- The entries of operations call them, under numbers in their order. -/
theorem mem_operationItems {number : Nat} {os : List Operation} {item : MenuItem}
    (h : item ∈ operationItems number os) :
    ∃ k o, os[k]? = some o ∧ item.id = number + k ∧ item.action = .invoke o.name := by
  induction os generalizing number with
  | nil => cases h
  | cons o os ih =>
    rcases List.mem_cons.mp h with rfl | h
    · exact ⟨0, o, rfl, rfl, rfl⟩
    · obtain ⟨k, p, hk, hid, ha⟩ := ih h
      exact ⟨k + 1, p, hk, by omega, ha⟩

/-- An entry that invokes is the one of the operation whose number was typed. -/
theorem select?_invoke {i : Interface} {line name : String} {item : MenuItem}
    (h : (ofInterface i).select? line = some item) (ha : item.action = .invoke name) :
    ∃ k o, Text.naturalOfWidth? 64 (Text.trim line.toList) = some (k + 1) ∧
      i.operations[k]? = some o ∧ o.name = name := by
  obtain ⟨n, hn, hf⟩ := Option.bind_eq_some_iff.mp h
  have hid : item.id = n := by simpa using List.find?_some hf
  rcases List.mem_append.mp (List.mem_of_find?_eq_some hf) with hm | hm
  · obtain ⟨k, o, hk, hid', ha'⟩ := mem_operationItems hm
    rw [ha'] at ha
    cases ha
    refine ⟨k, o, ?_, hk, rfl⟩
    rw [hn, ← hid, hid', Nat.add_comm]
  · simp only [List.mem_cons, List.not_mem_nil, or_false] at hm
    rcases hm with rfl | rfl <;> cases ha

end Menu

theorem Stage.exists_eq_ended {stage : Stage} (h : stage.isEnded = true) :
    ∃ fault, stage = .ended fault := by
  cases stage with
  | ended fault => exact ⟨fault, rfl⟩
  | _ => cases h

namespace SessionState

variable {σ : Session} {s t : SessionState}

/-- Saying something leads to the next stage or breaks the session off. -/
theorem say_cases (s : SessionState) (text : String) (next : Stage) :
    ∃ stage, (stage = next ∨ ∃ fault, stage = .ended (some fault)) ∧
      (s.say text next).stage = stage ∧
      (s.say text next).console.exchanges = s.console.exchanges ∧
      (s.say text next).contract = s.contract := by
  have kept := s.console.exchanges_write text
  unfold say after
  split
  · next c he =>
    rw [he] at kept
    exact ⟨next, Or.inl rfl, rfl, kept, rfl⟩
  · next fault c he =>
    rw [he] at kept
    exact ⟨_, Or.inr ⟨fault, rfl⟩, rfl, kept, rfl⟩

theorem after_writeAndAsk_cases (s : SessionState) (text promptText : String) (next : Stage) :
    (∃ d, s.after (s.console.writeAndAsk text promptText) next =
        { s with console := d, stage := next } ∧
      d.exchanges = s.console.exchanges ∧ d.asked = some promptText) ∨
    ∃ fault d more, s.after (s.console.writeAndAsk text promptText) next =
        { s with console := d, stage := .ended (some fault) } ∧
      d.exchanges = s.console.exchanges ++ more := by
  rcases s.console.writeAndAsk_cases text promptText with
    ⟨d, he, hes, ha⟩ | ⟨fault, d, more, he, hes⟩
  · exact Or.inl ⟨d, by rw [he, after], hes, ha⟩
  · exact Or.inr ⟨fault, d, more, by rw [he, after], hes⟩

inductive Reaches (σ : Session) (s : SessionState) : SessionState → Prop where
  | refl : Reaches σ s s
  | step {t : SessionState} : Reaches σ s t → Reaches σ s (t.step σ)

theorem Reaches.trans {u : SessionState} (h : Reaches σ s t) (h' : Reaches σ t u) :
    Reaches σ s u := by
  induction h' with
  | refl => exact h
  | step _ ih => exact ih.step

theorem step_ended {fault : Option Fault} (h : s.stage = .ended fault) : s.step σ = s := by
  rw [step, h]

theorem reaches_run (σ : Session) (s : SessionState) : Reaches σ s (run σ s) := by
  induction s using run.induct σ with
  | case1 s ended =>
    rw [run, if_pos ended]
    exact .refl
  | case2 s running ih =>
    rw [run, if_neg running]
    exact Reaches.refl.step.trans ih

/-- A run is as many steps as it takes to end. -/
theorem run_eq_repeat {n : Nat} (h : (Nat.repeat (step σ) n s).stage.isEnded = true) :
    run σ s = Nat.repeat (step σ) n s := by
  have same : run σ s = run σ (Nat.repeat (step σ) n s) := by
    clear h
    induction n with
    | zero => rfl
    | succ n ih =>
      rw [ih, Nat.repeat]
      by_cases ended : (Nat.repeat (step σ) n s).stage.isEnded = true
      · obtain ⟨fault, hf⟩ := Stage.exists_eq_ended ended
        rw [step_ended hf]
      · rw [run, if_neg ended]
  rw [same, run, if_pos h]

end SessionState

end ContractSurface
