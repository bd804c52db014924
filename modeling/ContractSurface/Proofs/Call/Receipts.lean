import ContractSurface.Proofs.Call.Hexadecimal
import ContractSurface.Proofs.Call.Refusals
import ContractSurface.Proofs.Text.Utf8
import Mathlib.Algebra.Group.Nat.Defs

/-! # The receipts of a dry run

Transactions are counted from one on, whatever else the dry run is asked for in between. Identifiers
are made of the count and the name, so both can be read back from them, and no two are the same.
-/
namespace ContractSurface

namespace DryRun

def numberOfBytes (bytes : List UInt8) : Nat := bytes.foldl (fun n b => 256 * n + b.toNat) 0

theorem length_bigEndian (places n : Nat) : (bigEndian places n).length = places := by
  induction places generalizing n with
  | zero => rfl
  | succ places ih => rw [bigEndian, List.length_append, ih, List.length_singleton]

/-- Enough bytes keep a number. -/
theorem numberOfBytes_bigEndian {places n : Nat} (h : n < 256 ^ places) :
    numberOfBytes (bigEndian places n) = n := by
  induction places generalizing n with
  | zero =>
    rw [Nat.pow_zero] at h
    rw [Nat.lt_one_iff.mp h]
    rfl
  | succ places ih =>
    have rest : n / 256 < 256 ^ places := by
      rw [Nat.div_lt_iff_lt_mul (by decide), ← Nat.pow_succ]
      exact h
    have last : (UInt8.ofNat (n % 256)).toNat = n % 256 :=
      Text.toNat_byte (Nat.mod_lt n (by decide))
    have earlier := ih rest
    unfold numberOfBytes at earlier ⊢
    rw [bigEndian, List.foldl_append, earlier, List.foldl_cons, List.foldl_nil, last]
    exact Nat.div_add_mod n 256

/-- The text is the lower-case hexadecimal form of eight bytes that hold the height and of the bytes
of the name. -/
structure Identifies (txId : String) (height : Nat) (name : String) : Prop where
  lowerCase : ∀ c ∈ txId.toList, c ∈ Text.lowerCaseDigits
  spells : ∃ front, front.length = 8 ∧ numberOfBytes front = height ∧
    Text.readHex (Text.utf8 txId) = .ok (front ++ Text.utf8 name)
  recovers : ∀ bytes, Text.readHex (Text.utf8 txId) = .ok bytes →
    numberOfBytes (bytes.take 8) = height ∧ Text.decodeUtf8? (bytes.drop 8) = some name

theorem Identifies.eq {txId name name' : String} {height height' : Nat}
    (h : Identifies txId height name) (h' : Identifies txId height' name') :
    height = height' ∧ name = name' := by
  obtain ⟨front, _, _, spelled⟩ := h.spells
  obtain ⟨same, text⟩ := h.recovers _ spelled
  obtain ⟨same', text'⟩ := h'.recovers _ spelled
  exact ⟨same.symm.trans same', Option.some.inj (text.symm.trans text')⟩

/-- The identifier of a transaction gives back its height and its name. -/
theorem identifies_transactionId {height : Nat} (h : height < 2 ^ 64) (name : String) :
    Identifies (transactionId height name) height name := by
  have length := length_bigEndian 8 height
  have number : numberOfBytes (bigEndian 8 height) = height := numberOfBytes_bigEndian h
  have spelled : Text.readHex (Text.utf8 (transactionId height name)) =
      .ok (bigEndian 8 height ++ Text.utf8 name) := Text.readHex_hexText _
  refine ⟨?_, ⟨_, length, number, spelled⟩, ?_⟩
  · intro c hc
    rw [transactionId, Text.hexText, String.toList_ofList] at hc
    exact Text.mem_lowerCaseDigits_of_mem_hexChars hc
  · intro bytes read
    rw [spelled] at read
    obtain rfl := Except.ok.inj read
    rw [List.take_left' length, List.drop_left' length]
    exact ⟨number, Text.decodeUtf8?_utf8 name⟩

def history (d : DryRun) : List Use → List (Use × Except InvocationError Answer)
  | [] => []
  | u :: us => (u, (d.perform u).1) :: (d.perform u).2.history us

def transacted : Use × Except InvocationError Answer → Bool
  | (.transaction _ _, .ok _) => true
  | _ => false

variable {d : DryRun}

theorem getElem?_history (d : DryRun) (uses : List Use) (k : Nat) :
    (d.history uses)[k]? = uses[k]?.map fun u => (u, ((d.after (uses.take k)).perform u).1) := by
  induction uses generalizing d k with
  | nil => rfl
  | cons u uses ih =>
    cases k with
    | zero => rfl
    | succ k => exact ih (d.perform u).2 k

theorem take_history (d : DryRun) (uses : List Use) (k : Nat) :
    (d.history uses).take k = d.history (uses.take k) := by
  induction uses generalizing d k with
  | nil => simp [history]
  | cons u uses ih =>
    cases k with
    | zero => rfl
    | succ k => exact congrArg ((u, (d.perform u).1) :: ·) (ih (d.perform u).2 k)

/-- The height goes up by one with each transaction that is taken, and else stays. -/
theorem blockHeight_perform (d : DryRun) (u : Use) :
    (d.perform u).2.blockHeight =
      d.blockHeight + if transacted (u, (d.perform u).1) then 1 else 0 := by
  rcases d.perform_cases u with ⟨c, e, _, _, eq⟩ | ⟨c, hc, _, eq⟩ | ⟨none, eq⟩
  · rw [eq]
    cases u <;> rfl
  · rw [eq]
    cases u with
    | transaction name arguments =>
      obtain rfl := Option.some.inj hc
      rfl
    | query name arguments =>
      obtain rfl := Option.some.inj hc
      rfl
    | ledgerState => cases hc
  · rw [eq]
    cases u with
    | ledgerState => rfl
    | _ => cases none

/-- The height counts the transactions that were taken. -/
theorem blockHeight_after (d : DryRun) (uses : List Use) :
    (d.after uses).blockHeight = d.blockHeight + (d.history uses).countP transacted := by
  induction uses generalizing d with
  | nil => rfl
  | cons u uses ih =>
    have step := d.blockHeight_perform u
    have rest := ih (d.perform u).2
    rw [history, List.countP_cons]
    show ((d.perform u).2.after uses).blockHeight = _
    omega

theorem countP_take_lt {α : Type} {p : α → Bool} {xs : List α} {x : α} {j k : Nat}
    (hj : xs[j]? = some x) (hx : p x = true) (lt : j < k) :
    (xs.take j).countP p < (xs.take k).countP p := by
  have next : xs.take (j + 1) = xs.take j ++ [x] := by
    rw [List.take_add_one, hj]
    rfl
  have counted : (xs.take (j + 1)).countP p = (xs.take j).countP p + 1 := by
    rw [next, List.countP_append, List.countP_singleton, if_pos hx]
  have le : (xs.take (j + 1)).countP p ≤ (xs.take k).countP p :=
    (List.take_sublist_take_left lt).countP_le
  omega

/-- An answer is that to the call which the use makes, or shows the ledger. -/
theorem answer_of_history {uses : List Use} {k : Nat} {u : Use} {a : Answer}
    (h : (d.history uses)[k]? = some (u, .ok a)) :
    (∃ c, u.call? = some c ∧ a = (d.after (uses.take k)).answerTo c) ∨
      ∃ values, u.call? = none ∧ a = .ledger values := by
  rw [getElem?_history] at h
  obtain ⟨v, _, same⟩ := Option.map_eq_some_iff.mp h
  obtain ⟨rfl, answer⟩ := Prod.mk.inj same
  rcases (d.after (uses.take k)).perform_cases v with ⟨_, _, _, _, eq⟩ | ⟨c, hc, _, eq⟩ | ⟨none, eq⟩
  · rw [eq] at answer
    cases answer
  · rw [eq] at answer
    cases answer
    exact .inl ⟨c, hc, rfl⟩
  · rw [eq] at answer
    cases answer
    exact .inr ⟨_, none, rfl⟩

theorem exists_receipt_of_history {uses : List Use} {k : Nat} {name : String}
    {arguments : List Argument} {a : Answer}
    (h : (d.history uses)[k]? = some (.transaction name arguments, .ok a)) :
    ∃ t, a = .receipt t := by
  rcases answer_of_history h with ⟨c, hc, rfl⟩ | ⟨_, none, _⟩
  · obtain rfl := Option.some.inj hc
    exact ⟨_, rfl⟩
  · cases none

/-- A receipt comes from a transaction. It tells the height that was reached with it. -/
theorem receipt_of_history {uses : List Use} {k : Nat} {u : Use} {t : TransactionData}
    (h : (d.history uses)[k]? = some (u, .ok (.receipt t))) :
    ∃ name arguments, u = .transaction name arguments ∧
      t.blockHeight = d.blockHeight + ((d.history uses).take k).countP transacted + 1 ∧
      t.txId = transactionId t.blockHeight name := by
  rw [take_history, ← blockHeight_after]
  rcases answer_of_history h with ⟨c, hc, answer⟩ | ⟨_, _, answer⟩
  · cases u with
    | transaction name arguments =>
      obtain rfl := Option.some.inj hc
      obtain rfl := Answer.receipt.inj answer
      exact ⟨name, arguments, rfl, rfl, rfl⟩
    | query name arguments =>
      obtain rfl := Option.some.inj hc
      cases answer
    | ledgerState => cases hc
  · cases answer

/-- Every transaction that a dry run takes gets a receipt with the next height, however many calls
were refused or asked for other things before. Its identifier tells the height and the name, and no
other transaction of the run has the same one. -/
theorem receipts_tell_transactions (ledger : List (String × Json))
    (rejections : List (String × String)) (onceOnly : List String) (uses : List Use)
    (few : ((fresh ledger rejections onceOnly).history uses).countP transacted < 2 ^ 64) :
    let h := (fresh ledger rejections onceOnly).history uses
    (∀ k name arguments (a : Answer), h[k]? = some (.transaction name arguments, .ok a) →
      ∃ t, a = .receipt t ∧ t.blockHeight = (h.take k).countP transacted + 1 ∧
        Identifies t.txId t.blockHeight name) ∧
    ∀ (j k : Nat) (u v : Use) (t t' : TransactionData), j ≠ k →
      h[j]? = some (u, .ok (.receipt t)) → h[k]? = some (v, .ok (.receipt t')) →
      t.txId ≠ t'.txId := by
  intro h
  have receipt : ∀ k u t, h[k]? = some (u, .ok (.receipt t)) →
      ∃ name arguments, u = .transaction name arguments ∧
        t.blockHeight = (h.take k).countP transacted + 1 ∧
        Identifies t.txId t.blockHeight name := by
    intro k u t hk
    obtain ⟨name, arguments, rfl, height, made⟩ := receipt_of_history hk
    have height : t.blockHeight = (h.take k).countP transacted + 1 :=
      height.trans (congrArg (· + 1) (Nat.zero_add _))
    have counted : (h.take k).countP transacted < (h.take (k + 1)).countP transacted :=
      countP_take_lt hk rfl (Nat.lt_succ_self k)
    have total : (h.take (k + 1)).countP transacted ≤ h.countP transacted :=
      (List.take_sublist _ _).countP_le
    have few : h.countP transacted < 2 ^ 64 := few
    refine ⟨name, arguments, rfl, height, ?_⟩
    rw [made]
    exact identifies_transactionId (by omega) name
  -- of two transactions the later one has the greater height
  have apart : ∀ (j k : Nat) (u v : Use) (t t' : TransactionData), j < k →
      h[j]? = some (u, .ok (.receipt t)) → h[k]? = some (v, .ok (.receipt t')) →
      t.txId ≠ t'.txId := by
    intro j k u v t t' lt hj hk same
    obtain ⟨name, arguments, rfl, height, identified⟩ := receipt j u t hj
    obtain ⟨name', _, _, height', identified'⟩ := receipt k v t' hk
    rw [same] at identified
    have grown : (h.take j).countP transacted < (h.take k).countP transacted :=
      countP_take_lt hj rfl lt
    have equal := (identified.eq identified').1
    omega
  refine ⟨?_, ?_⟩
  · intro k name arguments a hk
    obtain ⟨t, rfl⟩ := exists_receipt_of_history hk
    obtain ⟨name', arguments', same, height, identified⟩ := receipt k _ t hk
    cases same
    exact ⟨t, rfl, height, identified⟩
  · intro j k u v t t' ne hj hk
    rcases Nat.lt_or_gt_of_ne ne with lt | gt
    · exact apart j k u v t t' lt hj hk
    · exact (apart k j v u t' t gt hk hj).symm

/-- A refused transaction and a query between two transactions do not count. -/
theorem vote_and_fund_receipts :
    let uses : List Use := [.query "total" [], .transaction "vote" [.integer 2],
      .transaction "vote" [.integer 3], .query "memo" [], .transaction "fund" [.integer 5]]
    let h := (fresh [] [("memo", "closed")] ["vote"]).history uses
    h.countP transacted < 2 ^ 64 ∧
    ∃ t t', (h[1]?.map (·.2)) = some (.ok (.receipt t)) ∧
      (h[4]?.map (·.2)) = some (.ok (.receipt t')) ∧
      t.blockHeight = 1 ∧ t'.blockHeight = 2 ∧ t.txId ≠ t'.txId ∧
      Identifies t.txId 1 "vote" ∧ Identifies t'.txId 2 "fund" := by
  intro uses h
  have few : h.countP transacted < 2 ^ 64 := by decide +kernel
  obtain ⟨receipts, apart⟩ :=
    receipts_tell_transactions [] [("memo", "closed")] ["vote"] uses few
  obtain ⟨a, vote⟩ : ∃ a, h[1]? = some (.transaction "vote" [.integer 2], .ok a) := ⟨_, rfl⟩
  obtain ⟨b, fund⟩ : ∃ b, h[4]? = some (.transaction "fund" [.integer 5], .ok b) := ⟨_, rfl⟩
  obtain ⟨t, rfl, height, identified⟩ := receipts 1 _ _ a vote
  obtain ⟨t', rfl, height', identified'⟩ := receipts 4 _ _ b fund
  have first : (h.take 1).countP transacted + 1 = 1 := by decide +kernel
  have second : (h.take 4).countP transacted + 1 = 2 := by decide +kernel
  rw [first] at height
  rw [second] at height'
  refine ⟨few, t, t', by rw [vote]; rfl, by rw [fund]; rfl, height, height', ?_, ?_, ?_⟩
  · exact apart 1 4 _ _ t t' (by decide) vote fund
  · exact height ▸ identified
  · exact height' ▸ identified'

end DryRun

end ContractSurface
