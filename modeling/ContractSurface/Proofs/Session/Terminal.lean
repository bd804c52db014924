import ContractSurface.Proofs.Session.Moves
import ContractSurface.Proofs.Session.Origin

/-! # Sessions on a terminal that breaks

A session whose output or input breaks is followed beside the session that goes on: both make the
same moves up to the break, so what the broken one leaves is an initial part of what the other does.
-/
namespace ContractSurface

namespace Console

def limit (n : Nat) (c : Console) : Console := { c with room := some (n - c.written.length) }

def failAt (k : Nat) (c : Console) : Console := { c with inputFailsAt := some k }

def broken (k : Nat) (c : Console) : Console := (c.failAt k).finish (c.asked.getD "") .failed

theorem written_broken (k : Nat) (c : Console) : (c.broken k).written = c.written := by
  simp [broken, failAt, finish, written]

theorem prompts_broken (k : Nat) (c : Console) :
    (c.broken k).prompts = c.prompts ++ [c.asked.getD ""] := by
  simp [broken, failAt, finish, prompts]

variable {c : Console} {n k : Nat}

theorem receive_limit (n : Nat) (c : Console) :
    (c.limit n).receive = (c.receive.1, c.receive.2.limit n) := by
  have same : c.receive.2.written = c.written := c.written_receive
  unfold limit
  rw [same]
  obtain ⟨answers, _⟩ := c
  cases answers <;> rfl

theorem receive_failAt (k : Nat) (c : Console) :
    (c.failAt k).receive = (c.receive.1, c.receive.2.failAt k) := by
  obtain ⟨answers, _⟩ := c
  cases answers <;> rfl

theorem ask_of_ne (hk : c.inputFailsAt ≠ some c.exchanges.length) (promptText : String) :
    c.ask promptText = (.ok (), { c with asked := some promptText }) := by
  rw [ask, if_neg hk]

theorem write_failAt (h : c.Sound) (text : String) :
    (c.failAt k).write text = (.ok (), (c.said (.tells text)).failAt k) := by
  simp only [write, failAt, said, h.room]

theorem write_limit_of_fits {text : String}
    (fits : c.written.length + (Text.utf8 text).length ≤ n) :
    (c.limit n).write text = (.ok (), (c.said (.tells text)).limit n) := by
  have room : (Text.utf8 text).length ≤ n - c.written.length := by omega
  have left : n - c.written.length - (Text.utf8 text).length =
      n - (c.said (.tells text)).written.length := by
    rw [written_said, List.length_append, Speech.written]
    omega
  simp only [write, limit, if_pos room, List.take_of_length_le room, left]
  rfl

/-- A text that does not fit is cut where the room ends. -/
theorem write_limit_of_lacks {text : String} (hn : c.written.length ≤ n)
    (lacks : n < c.written.length + (Text.utf8 text).length) :
    ∃ d, (c.limit n).write text = (.error .outputGone, d) ∧ d.exchanges = c.exchanges ∧
      d.written = (c.written ++ Text.utf8 text).take n := by
  have room : ¬(Text.utf8 text).length ≤ n - c.written.length := by omega
  have cut : (c.written ++ Text.utf8 text).take n =
      c.written ++ (Text.utf8 text).take (n - c.written.length) := by
    rw [List.take_append, List.take_of_length_le hn]
  rw [cut]
  simp only [write, limit, if_neg room]
  exact ⟨_, rfl, rfl, (List.append_assoc _ _ _).symm⟩

end Console

namespace SessionState

variable {σ : Session} {s t : SessionState} {n k : Nat}

def limit (n : Nat) (s : SessionState) : SessionState := { s with console := s.console.limit n }

/-- The session `t` is the session `s` broken off after `n` bytes. -/
structure CutShort (n : Nat) (s t : SessionState) : Prop where
  stage : t.stage = .ended (some .outputGone)
  written : t.console.written = s.console.written.take n
  exchanges : t.console.exchanges <+: s.console.exchanges
  calls : t.contract.calls <+: s.contract.calls

/-- Up to `n` bytes the session `t` is at one with `s`, and from there on it is broken off. -/
def Follows (n : Nat) (s t : SessionState) : Prop :=
  if s.console.written.length ≤ n then t = s.limit n else CutShort n s t

theorem CutShort.grows {u : SessionState} (h : CutShort n s t) (hn : n < s.console.written.length)
    (hg : Grows s u) : Follows n u t := by
  obtain ⟨more, hm⟩ := hg.written
  have longer : ¬u.console.written.length ≤ n := by
    rw [← hm, List.length_append]
    omega
  rw [Follows, if_neg longer]
  refine ⟨h.stage, ?_, h.exchanges.trans hg.exchanges, h.calls.trans hg.calls⟩
  rw [h.written, ← hm, List.take_append_of_le_length (by omega)]

/-- What a session leaves that is broken off after `n` bytes, or not broken off. -/
theorem Follows.cut (h : Follows n s t) (fine : s.result = .ok s.summary) :
    t.console.written = s.console.written.take n ∧ t.console.prompts <+: s.console.prompts ∧
      t.contract.calls <+: s.contract.calls ∧
      t.result = if s.console.written.length ≤ n then .ok s.summary else .error .outputGone := by
  unfold Follows at h
  split at h
  · next fits =>
    rw [if_pos fits, h]
    exact ⟨(List.take_of_length_le fits).symm, List.prefix_rfl, List.prefix_rfl, fine⟩
  · next lacks =>
    rw [if_neg lacks]
    refine ⟨h.written, h.exchanges.map _, h.calls, ?_⟩
    rw [result, h.stage]

theorem hear_limit (n : Nat) (s : SessionState) :
    (s.limit n).hear = (s.hear.1, s.hear.2.limit n) :=
  hear_change fun _ => s.console.receive_limit n

/-- A move on a console with enough room is the same move. -/
theorem perform_limit_of_fits {c : Console} {m : Move} (h : c.Sound)
    (fits : (c.said m.speech).written.length ≤ n) :
    perform m (c.limit n) = ⟨m.next, (c.said m.speech).limit n, m.contract, m.summary⟩ := by
  rw [Console.written_said, List.length_append] at fits
  unfold perform
  cases hv : m.speech with
  | silent => rfl
  | tells text =>
    rw [hv] at fits
    simp only [say, Console.write_limit_of_fits fits, after]
  | asks text promptText =>
    rw [hv] at fits
    have input : ((c.said (.tells text)).limit n).inputFailsAt ≠
        some ((c.said (.tells text)).limit n).exchanges.length := by
      rw [show ((c.said (.tells text)).limit n).inputFailsAt = none from h.input]
      simp
    simp only [Console.writeAndAsk, Console.write_limit_of_fits fits, Console.ask_of_ne input]
    rfl

theorem perform_limit_of_lacks {c : Console} {m : Move} (hn : c.written.length ≤ n)
    (lacks : n < (c.said m.speech).written.length) :
    ∃ d, perform m (c.limit n) = ⟨.ended (some .outputGone), d, m.contract, m.summary⟩ ∧
      d.exchanges = c.exchanges ∧ d.written = (c.said m.speech).written.take n := by
  rw [Console.written_said, List.length_append] at lacks
  rw [Console.written_said]
  unfold perform
  cases hv : m.speech with
  | silent =>
    rw [hv] at lacks
    exact absurd lacks (by simpa [Speech.written] using hn)
  | tells text =>
    rw [hv] at lacks
    obtain ⟨d, hw, hes, hd⟩ := Console.write_limit_of_lacks hn lacks
    exact ⟨d, by simp only [say, hw, after], hes, hd⟩
  | asks text promptText =>
    rw [hv] at lacks
    obtain ⟨d, hw, hes, hd⟩ := Console.write_limit_of_lacks hn lacks
    exact ⟨d, by simp only [Console.writeAndAsk, hw, after], hes, hd⟩

/-- A step follows the same step without the limit, or breaks off at the limit. -/
theorem follows_step (h : s.console.Sound) (hn : s.console.written.length ≤ n) :
    Follows n (s.step σ) ((s.limit n).step σ) := by
  have heard : s.hear.2.written.length ≤ n := by rwa [written_hear]
  have same : (s.limit n).move σ = s.move σ := rfl
  rw [step_eq σ (s.limit n), hear_limit, same, step_of_sound h]
  unfold Follows
  split
  · next fits => exact perform_limit_of_fits (sound_hear h) fits
  · next lacks =>
    obtain ⟨d, hp, hes, hd⟩ := perform_limit_of_lacks heard (Nat.lt_of_not_le lacks)
    rw [hp]
    refine ⟨rfl, hd, ?_, List.prefix_rfl⟩
    simp [hes]

/-- A whole run under a limit follows the run without it. -/
theorem follows_run (h : s.console.Sound) (hn : s.console.written.length ≤ n) :
    Follows n (run σ s) (run σ (s.limit n)) := by
  induction s using run.induct σ with
  | case1 s ended =>
    have limited : (s.limit n).stage.isEnded = true := ended
    rw [run_of_ended ended, run_of_ended limited, Follows, if_pos hn]
  | case2 s running ih =>
    have limited : ¬(s.limit n).stage.isEnded = true := running
    rw [run_of_running running, run_of_running limited]
    have next : Follows n (s.step σ) ((s.limit n).step σ) := follows_step h hn
    unfold Follows at next
    split at next
    · next fits =>
      rw [next]
      exact ih (sound_step h) fits
    · next lacks =>
      -- the one session has ended here, and the other one only adds to what it did
      have ended : ((s.limit n).step σ).stage.isEnded = true := by rw [next.stage]; rfl
      rw [run_of_ended ended]
      exact next.grows (Nat.lt_of_not_le lacks) ((reaches_run σ _).grows (sound_step h))

def failAt (k : Nat) (s : SessionState) : SessionState := { s with console := s.console.failAt k }

def shown (s : SessionState) : Nat :=
  s.console.exchanges.length + if s.stage.waits then 1 else 0

theorem hear_failAt (k : Nat) (s : SessionState) :
    (s.failAt k).hear = (s.hear.1, s.hear.2.failAt k) :=
  hear_change fun _ => s.console.receive_failAt k

theorem length_exchanges_hear (s : SessionState) : s.hear.2.exchanges.length = s.shown := by
  unfold hear shown
  split
  · obtain ⟨reply, he⟩ := s.console.exists_exchanges_receive
    rw [he, List.length_append, List.length_singleton]
  · rfl

theorem shown_step (h : s.console.Sound) :
    (s.step σ).shown = s.shown + if (s.move σ s.hear.1).speech.isAsk then 1 else 0 := by
  have waits := (moveKeeps_move σ s s.hear.1).waits
  rw [step_of_sound h, ← length_exchanges_hear s, shown, ← waits, Console.exchanges_said]

/-- A move that shows no prompt, or another one, is the same move. -/
theorem perform_failAt_of_ne {c : Console} {m : Move} (h : c.Sound)
    (other : m.speech.isAsk = true → c.exchanges.length ≠ k) :
    perform m (c.failAt k) = ⟨m.next, (c.said m.speech).failAt k, m.contract, m.summary⟩ := by
  unfold perform
  cases hv : m.speech with
  | silent => rfl
  | tells text => simp only [say, Console.write_failAt h, after]
  | asks text promptText =>
    have number : c.exchanges.length ≠ k := other (by rw [hv]; rfl)
    have input : ((c.said (.tells text)).failAt k).inputFailsAt ≠
        some ((c.said (.tells text)).failAt k).exchanges.length :=
      fun same => number (Option.some.inj same).symm
    simp only [Console.writeAndAsk, Console.write_failAt h, Console.ask_of_ne input]
    rfl

/-- The prompt that breaks the input is the last thing shown. -/
theorem perform_failAt {c : Console} {m : Move} (h : c.Sound) (asks : m.speech.isAsk = true)
    (hk : c.exchanges.length = k) :
    perform m (c.failAt k) =
      ⟨.ended (some .inputGone), (c.said m.speech).broken k, m.contract, m.summary⟩ := by
  unfold perform
  cases hv : m.speech with
  | asks text promptText =>
    have input : ((c.said (.tells text)).failAt k).inputFailsAt =
        some ((c.said (.tells text)).failAt k).exchanges.length := congrArg some hk.symm
    simp only [Console.writeAndAsk, Console.write_failAt h, Console.ask, if_pos input]
    rfl
  | _ =>
    rw [hv] at asks
    cases asks

/-- The state in which a session ends whose input breaks at the prompt that waits, number `k`. -/
def brokenOff (k : Nat) (s : SessionState) : SessionState :=
  ⟨.ended (some .inputGone), s.console.broken k, s.contract, s.summary⟩

structure WaitsAt (k : Nat) (s : SessionState) : Prop where
  waits : s.stage.waits = true
  number : s.console.exchanges.length = k

/-- Up to the failing prompt both sessions are the same; there the one breaks off. -/
theorem step_failAt (σ : Session) (h : s.console.Sound) (hk : s.shown ≤ k) :
    ((s.step σ).shown ≤ k ∧ (s.failAt k).step σ = (s.step σ).failAt k) ∨
      (WaitsAt k (s.step σ) ∧ (s.failAt k).step σ = (s.step σ).brokenOff k) := by
  have keeps := moveKeeps_move σ s s.hear.1
  have number := length_exchanges_hear s
  have taken : s.step σ = _ := step_of_sound h
  have failing : (s.failAt k).step σ = perform (s.move σ s.hear.1) (s.hear.2.failAt k) := by
    rw [step_eq σ (s.failAt k), hear_failAt]
    rfl
  by_cases last : (s.move σ s.hear.1).speech.isAsk = true ∧ s.shown = k
  · obtain ⟨asks, shown⟩ := last
    right
    rw [failing, perform_failAt (sound_hear h) asks (number.trans shown)]
    refine ⟨⟨?_, ?_⟩, ?_⟩
    · rw [taken]
      exact keeps.waits.trans asks
    · rw [taken, Console.exchanges_said, number, shown]
    · rw [taken]
      rfl
  · have other : (s.move σ s.hear.1).speech.isAsk = true → s.hear.2.exchanges.length ≠ k :=
      fun asks hl => last ⟨asks, number.symm.trans hl⟩
    left
    constructor
    · rw [shown_step h]
      split
      · next asks => exact Nat.lt_of_le_of_ne hk fun same => last ⟨asks, same⟩
      · exact hk
    · rw [failing, perform_failAt_of_ne (sound_hear h) other, taken]
      rfl

/-- The session goes on as it did, unless prompt number `k` comes up: there it ends. -/
theorem run_failAt (σ : Session) (h : s.console.Sound) (hk : s.shown ≤ k) :
    ((run σ s).shown ≤ k ∧ run σ (s.failAt k) = (run σ s).failAt k) ∨
      ∃ u, Reaches σ s u ∧ WaitsAt k u ∧ run σ (s.failAt k) = u.brokenOff k := by
  induction s using run.induct σ with
  | case1 s ended =>
    have failing : (s.failAt k).stage.isEnded = true := ended
    rw [run_of_ended ended, run_of_ended failing]
    exact Or.inl ⟨hk, rfl⟩
  | case2 s running ih =>
    have failing : ¬(s.failAt k).stage.isEnded = true := running
    rw [run_of_running running, run_of_running failing]
    rcases step_failAt σ h hk with ⟨early, same⟩ | ⟨waits, broken⟩
    · rw [same]
      rcases ih (sound_step h) early with through | ⟨u, hu, broken⟩
      · exact Or.inl through
      · exact Or.inr ⟨u, Reaches.refl.step.trans hu, broken⟩
    · rw [broken]
      exact Or.inr ⟨s.step σ, Reaches.refl.step, waits, run_of_ended rfl⟩

/-- After the end of a session no prompt waits any more. -/
theorem shown_run (σ : Session) (s : SessionState) :
    (run σ s).shown = (run σ s).console.prompts.length := by
  obtain ⟨fault, ended⟩ := Stage.exists_eq_ended (isEnded_run σ s)
  rw [shown, ended, Console.prompts, List.length_map]
  rfl

/-- Of a whole session, what comes up to and with the prompt that waits at one of its states. -/
theorem run_up_to_prompt (σ : Session) (h : s.console.Sound) (waits : s.stage.waits = true) :
    let m := s.console.exchanges.length + 1
    m ≤ (run σ s).console.prompts.length ∧
      ((run σ s).console.exchanges.take m).flatMap (·.out) = s.console.written ∧
      (run σ s).console.prompts.take m = s.console.prompts ++ [s.console.asked.getD ""] ∧
      s.contract.calls <+: (run σ s).contract.calls := by
  intro m
  obtain ⟨reply, he⟩ := s.console.exists_exchanges_receive
  have answered : (s.step σ).console.exchanges =
      s.console.exchanges ++ [⟨s.console.out, s.console.asked.getD "", reply⟩] := by
    rw [step_of_sound h, Console.exchanges_said, hear, if_pos waits, he]
  have later : (s.step σ).console.exchanges <+: (run σ s).console.exchanges := by
    rw [← run_step]
    exact ((reaches_run σ _).grows (sound_step h)).exchanges
  have length : (s.step σ).console.exchanges.length = m := by
    rw [answered, List.length_append, List.length_singleton]
  have first := List.prefix_iff_eq_take.mp later
  rw [length, answered] at first
  refine ⟨?_, ?_, ?_, ((reaches_run σ s).grows h).calls⟩
  · rw [Console.prompts, List.length_map, ← length]
    exact later.length_le
  · rw [← first]
    simp [Console.written]
  · rw [Console.prompts, ← List.map_take, ← first]
    simp [Console.prompts]

/-- A session on a terminal that breaks comes as far as the break. With an output that takes `n`
bytes, it writes the first `n` bytes of the whole session and ends well if there are no more. With
an input that breaks at prompt number `k`, it ends there, if there is such a prompt: with what the
whole session wrote before that prompt, and the calls that it had made when it waited for it. -/
theorem run_on_breaking_terminal (σ : Session) (answers : List String) (contract : DryRun) :
    let begun := fun room inputFailsAt => start (.ofAnswers answers room inputFailsAt) contract
    let full := run σ (begun none none)
    full.result = .ok full.summary ∧
    (∀ n, let cut := run σ (begun (some n) none)
      cut.console.written = full.console.written.take n ∧
      cut.console.prompts <+: full.console.prompts ∧
      cut.contract.calls <+: full.contract.calls ∧
      cut.result = if full.console.written.length ≤ n then .ok full.summary
        else .error .outputGone) ∧
    ∀ k, let cut := run σ (begun none (some k))
      (full.console.prompts.length ≤ k →
        cut.result = .ok full.summary ∧ cut = full.failAt k) ∧
      (k < full.console.prompts.length →
        cut.result = .error .inputGone ∧
        cut.console.written = (full.console.exchanges.take (k + 1)).flatMap (·.out) ∧
        cut.console.prompts = full.console.prompts.take (k + 1) ∧
        cut.contract.calls <+: full.contract.calls ∧
        ∃ u, Reaches σ (begun none none) u ∧ WaitsAt k u ∧
          cut.contract.calls = u.contract.calls) := by
  intro begun full
  have sound : (begun none none).console.Sound := ⟨rfl, rfl⟩
  have fine : full.result = .ok full.summary := result_run sound (by simp [begun, start])
  refine ⟨fine, ?_, ?_⟩
  · intro n cut
    have follows : Follows n full cut := follows_run sound (Nat.zero_le _)
    exact follows.cut fine
  · intro k cut
    have prompts : full.shown = full.console.prompts.length := shown_run σ _
    rcases run_failAt (k := k) σ sound (Nat.zero_le _) with
      ⟨late, same⟩ | ⟨u, hu, at_prompt, broken⟩
    · have whole : cut = full.failAt k := same
      refine ⟨fun _ => ⟨?_, whole⟩, fun hk => absurd (prompts ▸ late) (by omega)⟩
      rw [whole]
      exact fine
    · have whole : cut = u.brokenOff k := broken
      obtain ⟨more, written, asked, calls⟩ :=
        run_up_to_prompt σ (hu.sound sound) at_prompt.waits
      rw [hu.run_eq, at_prompt.number] at more written asked
      rw [hu.run_eq] at calls
      refine ⟨fun late => absurd (Nat.le_trans more late) (by omega), fun _ => ?_⟩
      rw [whole]
      refine ⟨rfl, ?_, ?_, calls, u, hu, at_prompt, rfl⟩
      · exact (Console.written_broken k u.console).trans written.symm
      · exact (Console.prompts_broken k u.console).trans asked.symm

/-- The input breaks when the person who votes is asked for the memo. -/
theorem ballotSession_stops_at_memo :
    let σ := Session.ofInterface ballot .standard
    let begun := fun inputFailsAt =>
      start (.ofAnswers ["2", "9", "2", " 3 ", "thank you"] none inputFailsAt) (.fresh [] [] [])
    (run σ (begun none)).console.prompts.length = 6 ∧
    (run σ (begun none)).contract.calls.length = 1 ∧
    (run σ (begun (some 4))).result = .error .inputGone ∧
    (run σ (begun (some 4))).console.prompts = (run σ (begun none)).console.prompts.take 5 ∧
    (run σ (begun (some 4))).contract.calls <+: (run σ (begun none)).contract.calls := by
  intro σ begun
  have ended : (Nat.repeat (step σ) 20 (begun none)).stage.isEnded = true := by decide +kernel
  have shown : (run σ (begun none)).console.prompts.length = 6 := by
    rw [run_eq_repeat ended]
    decide +kernel
  have called : (run σ (begun none)).contract.calls.length = 1 := by
    rw [run_eq_repeat ended]
    decide +kernel
  obtain ⟨_, _, breaks⟩ := run_on_breaking_terminal σ ["2", "9", "2", " 3 ", "thank you"]
    (.fresh [] [] [])
  have early : 4 < (run σ (begun none)).console.prompts.length := by
    rw [shown]
    decide
  obtain ⟨result, _, prompts, calls, _⟩ := (breaks 4).2 early
  exact ⟨shown, called, result, prompts, calls⟩

end SessionState

end ContractSurface
