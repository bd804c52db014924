import ContractSurface.Call.DryRun
import Mathlib.Data.List.Basic

/-! # What a dry run refuses

A dry run may be asked for anything, in any order. It refuses a call by its name alone: a name that
was set to refuse, and one that may be called once and has been. A refusal leaves no trace, and
what was taken stands at the end of the record.
-/
namespace ContractSurface.DryRun

inductive Use where
  | transaction (name : String) (arguments : List Argument)
  | query (name : String) (arguments : List Argument)
  | ledgerState

inductive Answer where
  | receipt (t : TransactionData)
  | value (j : Json)
  | ledger (values : List (String × Json))

def Use.call? : Use → Option RecordedCall
  | .transaction name arguments => some ⟨name, arguments, true⟩
  | .query name arguments => some ⟨name, arguments, false⟩
  | .ledgerState => none

def perform (d : DryRun) : Use → Except InvocationError Answer × DryRun
  | .transaction name arguments =>
    ((d.callTx name arguments).1.map .receipt, (d.callTx name arguments).2)
  | .query name arguments => ((d.query name arguments).1.map .value, (d.query name arguments).2)
  | .ledgerState => (.ok (.ledger d.ledgerState), d)

def after (d : DryRun) (uses : List Use) : DryRun := uses.foldl (fun d u => (d.perform u).2) d

def answerTo (d : DryRun) (c : RecordedCall) : Answer :=
  if c.isTransaction then
    .receipt ⟨transactionId (d.taking c).blockHeight c.name, (d.taking c).blockHeight⟩
  else .value .null

variable {d : DryRun} {u : Use} {c : RecordedCall} {name : String} {e : InvocationError}

/-- What comes of a use: a call that is refused by its name changes nothing, any other call is
recorded, and the ledger can always be looked at. -/
theorem perform_cases (d : DryRun) (u : Use) :
    (∃ c e, u.call? = some c ∧ d.refusal? c.name = some e ∧ d.perform u = (.error e, d)) ∨
    (∃ c, u.call? = some c ∧ d.refusal? c.name = none ∧
      d.perform u = (.ok (d.answerTo c), d.taking c)) ∨
    (u.call? = none ∧ d.perform u = (.ok (.ledger d.ledger), d)) := by
  cases u with
  | transaction name arguments =>
    cases refused : d.refusal? name with
    | some e =>
      refine .inl ⟨_, e, rfl, refused, ?_⟩
      simp [perform, callTx, refused, Except.map]
    | none =>
      refine .inr (.inl ⟨_, rfl, refused, ?_⟩)
      simp [perform, callTx, refused, Except.map, answerTo]
  | query name arguments =>
    cases refused : d.refusal? name with
    | some e =>
      refine .inl ⟨_, e, rfl, refused, ?_⟩
      simp [perform, query, refused, Except.map]
    | none =>
      refine .inr (.inl ⟨_, rfl, refused, ?_⟩)
      simp [perform, query, refused, Except.map, answerTo]
  | ledgerState => exact .inr (.inr ⟨rfl, rfl⟩)

theorem perform_of_call (hc : u.call? = some c) :
    (∃ e, d.refusal? c.name = some e ∧ d.perform u = (.error e, d)) ∨
      (d.refusal? c.name = none ∧ d.perform u = (.ok (d.answerTo c), d.taking c)) := by
  rcases d.perform_cases u with ⟨c', e, hc', refused, eq⟩ | ⟨c', hc', taken, eq⟩ | ⟨none, _⟩
  · obtain rfl := Option.some.inj (hc.symm.trans hc')
    exact .inl ⟨e, refused, eq⟩
  · obtain rfl := Option.some.inj (hc.symm.trans hc')
    exact .inr ⟨taken, eq⟩
  · rw [none] at hc
    cases hc

theorem hasCalled_iff : d.hasCalled name = true ↔ ∃ c ∈ d.calls, c.name = name := by
  simp [hasCalled]

theorem lookup_eq_none_iff :
    d.rejections.lookup name = none ↔ name ∉ d.rejections.map (·.1) := by
  rw [List.lookup_eq_none_iff, List.mem_map]
  constructor
  · rintro none ⟨p, hp, rfl⟩
    simpa using none p hp
  · intro unset p hp
    rw [bne_iff_ne]
    exact fun same => unset ⟨p, hp, same.symm⟩

theorem refusal?_of_lookup {message : String} (h : d.rejections.lookup name = some message) :
    d.refusal? name = some (.rejected message) := by
  rw [refusal?, h]

theorem refusal?_of_unset (h : name ∉ d.rejections.map (·.1)) :
    d.refusal? name = if name ∈ d.onceOnly ∧ d.hasCalled name = true then
      some (.rejected s!"failed assert: {name} already performed") else none := by
  rw [refusal?, lookup_eq_none_iff.mpr h]
  simp

/-- A call is refused for a name that rejects, or for a second use of one that may be used once. -/
theorem exists_refusal?_iff : (∃ e, d.refusal? name = some e) ↔
    name ∈ d.rejections.map (·.1) ∨ (name ∈ d.onceOnly ∧ ∃ c ∈ d.calls, c.name = name) := by
  by_cases set : name ∈ d.rejections.map (·.1)
  · obtain ⟨message, found⟩ := Option.ne_none_iff_exists'.mp (lookup_eq_none_iff.not_left.mpr set)
    exact iff_of_true ⟨_, refusal?_of_lookup found⟩ (.inl set)
  · rw [refusal?_of_unset set, ← hasCalled_iff]
    by_cases spent : name ∈ d.onceOnly ∧ d.hasCalled name = true
    · simp [set, spent]
    · simp [set, spent]

/-- The record holds no name that refuses, and no second call of a name that may be called once.
What was set at the start stays as it was. -/
structure Lawful (ledger : List (String × Json)) (rejections : List (String × String))
    (onceOnly : List String) (d : DryRun) : Prop where
  sameLedger : d.ledger = ledger
  sameRejections : d.rejections = rejections
  sameOnceOnly : d.onceOnly = onceOnly
  unrefused : ∀ c ∈ d.calls, c.name ∉ rejections.map (·.1)
  once : ∀ name ∈ onceOnly, d.calls.countP (·.name == name) ≤ 1

variable {ledger : List (String × Json)} {rejections : List (String × String)}
  {onceOnly : List String}

/-- A call that is taken keeps the record lawful. -/
theorem Lawful.taking (h : Lawful ledger rejections onceOnly d) (taken : d.refusal? c.name = none) :
    Lawful ledger rejections onceOnly (d.taking c) := by
  have free : ¬∃ e, d.refusal? c.name = some e := by simp [taken]
  rw [exists_refusal?_iff, h.sameRejections, h.sameOnceOnly] at free
  obtain ⟨unset, unspent⟩ := not_or.mp free
  refine ⟨h.sameLedger, h.sameRejections, h.sameOnceOnly, ?_, ?_⟩
  · intro c' hc'
    rcases List.mem_append.mp hc' with hc' | hc'
    · exact h.unrefused c' hc'
    · rwa [List.mem_singleton.mp hc']
  · intro name hname
    show (d.calls ++ [c]).countP (·.name == name) ≤ 1
    rw [List.countP_append, List.countP_singleton]
    by_cases same : c.name = name
    · have none : d.calls.countP (·.name == name) = 0 := by
        refine List.countP_eq_zero.mpr fun c' hc' called => unspent ?_
        exact ⟨same ▸ hname, c', hc', by rw [same]; simpa using called⟩
      simp [none, same]
    · simpa [same] using h.once name hname

theorem Lawful.perform (h : Lawful ledger rejections onceOnly d) (u : Use) :
    Lawful ledger rejections onceOnly (d.perform u).2 := by
  rcases d.perform_cases u with ⟨_, _, _, _, eq⟩ | ⟨_, _, taken, eq⟩ | ⟨_, eq⟩
  · rwa [eq]
  · rw [eq]
    exact h.taking taken
  · rwa [eq]

/-- The record is lawful after any uses, in any order. -/
theorem lawful_after (ledger : List (String × Json)) (rejections : List (String × String))
    (onceOnly : List String) (uses : List Use) :
    Lawful ledger rejections onceOnly ((fresh ledger rejections onceOnly).after uses) := by
  have start : Lawful ledger rejections onceOnly (fresh ledger rejections onceOnly) :=
    ⟨rfl, rfl, rfl, nofun, fun _ _ => Nat.zero_le 1⟩
  generalize fresh ledger rejections onceOnly = d at start
  unfold after
  induction uses generalizing d with
  | nil => exact start
  | cons u uses ih => exact ih _ (start.perform u)

/-- Whatever a dry run was asked for before, it has recorded no call of a name that refuses, and at
most one of a name that may be called once. It refuses exactly the calls of these names, the first
ones with the message that was set, and is then as it was before. Every other call is added to the
record, and the ledger stays as it was set. -/
theorem refusals_leave_no_trace (ledger : List (String × Json))
    (rejections : List (String × String)) (onceOnly : List String) (uses : List Use) :
    let d := (fresh ledger rejections onceOnly).after uses
    (∀ c ∈ d.calls, c.name ∉ rejections.map (·.1)) ∧
    (∀ name ∈ onceOnly, d.calls.countP (·.name == name) ≤ 1) ∧
    d.ledger = ledger ∧
    (∀ u c, u.call? = some c →
      ((∃ e, (d.perform u).1 = .error e) ↔
        c.name ∈ rejections.map (·.1) ∨ (c.name ∈ onceOnly ∧ ∃ c' ∈ d.calls, c'.name = c.name)) ∧
      (∀ message, rejections.lookup c.name = some message →
        (d.perform u).1 = .error (.rejected message)) ∧
      (c.name ∉ rejections.map (·.1) → ∀ e, (d.perform u).1 = .error e →
        e = .rejected s!"failed assert: {c.name} already performed") ∧
      (∀ e, (d.perform u).1 = .error e → (d.perform u).2 = d) ∧
      ∀ a, (d.perform u).1 = .ok a → (d.perform u).2 = { d with
        calls := d.calls ++ [c]
        blockHeight := if c.isTransaction then d.blockHeight + 1 else d.blockHeight }) ∧
    d.perform .ledgerState = (.ok (.ledger ledger), d) := by
  intro d
  have lawful : Lawful ledger rejections onceOnly d :=
    lawful_after ledger rejections onceOnly uses
  refine ⟨lawful.unrefused, lawful.once, lawful.sameLedger, fun u c hc => ?_, ?_⟩
  · rw [← lawful.sameRejections, ← lawful.sameOnceOnly]
    have reasons : (∃ e, d.refusal? c.name = some e) ↔ c.name ∈ d.rejections.map (·.1) ∨
        (c.name ∈ d.onceOnly ∧ ∃ c' ∈ d.calls, c'.name = c.name) := exists_refusal?_iff
    rcases perform_of_call hc with ⟨e, refused, eq⟩ | ⟨taken, eq⟩
    · rw [eq]
      refine ⟨iff_of_true ⟨e, rfl⟩ (reasons.mp ⟨e, refused⟩), ?_, ?_, fun _ _ => rfl, nofun⟩
      · intro message found
        rw [refusal?_of_lookup found] at refused
        rw [Option.some.inj refused]
      · intro unset e' he'
        cases he'
        rw [refusal?_of_unset unset] at refused
        split at refused
        · exact (Option.some.inj refused).symm
        · cases refused
    · have free : ¬∃ e, d.refusal? c.name = some e := by simp [taken]
      rw [eq]
      refine ⟨iff_of_false nofun (reasons.not.mp free), ?_, fun _ => nofun, nofun, fun _ _ => rfl⟩
      intro message found
      rw [refusal?_of_lookup found] at taken
      cases taken
  · rw [← lawful.sameLedger]
    rfl

end ContractSurface.DryRun
