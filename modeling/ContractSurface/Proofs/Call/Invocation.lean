import ContractSurface.Call.Capabilities
import ContractSurface.Call.Choice

/-! # What an invocation passes on

An argument that a line of text gives is of the kind that the declared type asks for. An operation
that is invoked by its name is recorded under that name with the arguments it was given, unless the
contract refuses it.
-/
namespace ContractSurface

/-- The argument is of the kind that is asked for, and an integer lies in its range. -/
def Argument.Fits : ParameterKind → Argument → Prop
  | .integer range, .integer n => range.contains n = true
  | .boolean, .boolean _ => True
  | .bytes, .bytes _ => True
  | .text, .text _ => True
  | _, _ => False

theorem convertInteger_fits {name input : String} {range : IntegerRange} {a : Argument}
    (h : convertInteger name range input = .ok a) : a.Fits (.integer range) := by
  unfold convertInteger at h
  dsimp only at h
  split at h
  · split at h
    · next hr =>
      cases h
      exact hr
    · cases h
  · cases h

theorem convertBoolean_fits {name input : String} {a : Argument}
    (h : convertBoolean name input = .ok a) : a.Fits .boolean := by
  unfold convertBoolean at h
  split at h
  · cases h
    trivial
  · cases h

theorem convertBytes_fits {name input : String} {a : Argument}
    (h : convertBytes name input = .ok a) : a.Fits .bytes := by
  unfold convertBytes at h
  split at h
  · split at h
    · cases h
      trivial
    · cases h
  · cases h
    trivial

/-- A converted answer is of the kind of its parameter. -/
theorem convert_fits {p : Parameter} {input : String} {a : Argument}
    (h : convert p input = .ok a) : a.Fits (parameterKind p.declaredType) := by
  unfold convert at h
  split at h
  · next range hk =>
    rw [hk]
    exact convertInteger_fits h
  · next hk =>
    rw [hk]
    exact convertBoolean_fits h
  · next hk =>
    rw [hk]
    exact convertBytes_fits h
  · next hk =>
    rw [hk]
    cases h
    trivial

/-- An answer is the value of a text: of the line itself, or of the choice that it picks. -/
theorem Question.exists_convert_of_interpret {p : Parameter} {q : Question} {line : String}
    {a : Argument} (h : q.interpret p line = .ok a) : ∃ text, convert p text = .ok a := by
  cases q with
  | free => exact ⟨line, h⟩
  | pick choices =>
    simp only [Question.interpret] at h
    split at h
    · next c _ => exact ⟨c.value, h⟩
    · cases h

namespace Interface

variable {i : Interface}

theorem find?_name {os : List Operation} (hd : (os.map (·.name)).Nodup) {o : Operation}
    (ho : o ∈ os) : os.find? (·.name == o.name) = some o := by
  induction os with
  | nil => cases ho
  | cons p os ih =>
    obtain ⟨hp, hos⟩ := List.nodup_cons.mp hd
    rcases List.mem_cons.mp ho with rfl | ho
    · simp
    · have other : p.name ≠ o.name := fun h => hp (List.mem_map.mpr ⟨o, ho, h.symm⟩)
      rw [List.find?_cons_of_neg (by simpa using other)]
      exact ih hos ho

/-- With names of their own, operations are found at their positions. -/
theorem operationIndex?_name (hd : (i.operations.map (·.name)).Nodup) {k : Nat} {o : Operation}
    (ho : i.operations[k]? = some o) : i.operationIndex? o.name = some k := by
  obtain ⟨hk, rfl⟩ := List.getElem?_eq_some_iff.mp ho
  rw [operationIndex?, List.findIdx?_eq_some_iff_getElem]
  refine ⟨hk, by simp, ?_⟩
  intro j hj h
  have hj' : j < (i.operations.map (·.name)).length := by rw [List.length_map]; omega
  have hk' : k < (i.operations.map (·.name)).length := by rwa [List.length_map]
  have same : (i.operations.map (·.name))[j] = (i.operations.map (·.name))[k] := by simpa using h
  have := (List.getElem_inj hd).mp same
  omega

end Interface

namespace Capabilities

theorem lookup_filter_ne {table : Capabilities} {name other : String} (h : name ≠ other) :
    (table.filter (·.1 != other)).lookup name = table.lookup name := by
  induction table with
  | nil => rfl
  | cons e table ih =>
    obtain ⟨n, mutates⟩ := e
    by_cases hn : n = other
    · have passed : (name == n) = false := by simpa [hn] using h
      simp [List.lookup_cons, hn, ← ih, hn ▸ passed]
    · simp [List.lookup_cons, hn, ih]

theorem lookup_enter (table : Capabilities) (o : Operation) (name : String) :
    (table.enter o).lookup name = if o.name = name then some o.mutates else table.lookup name := by
  unfold enter
  rw [List.lookup_cons]
  by_cases h : o.name = name
  · simp [h]
  · have other : (name == o.name) = false := by simpa using Ne.symm h
    rw [other, if_neg h]
    exact lookup_filter_ne (Ne.symm h)

theorem lookup_foldl_enter (table : Capabilities) (os : List Operation) (name : String) :
    (os.foldl enter table).lookup name =
      ((os.reverse.find? (·.name == name)).map (·.mutates)).or (table.lookup name) := by
  induction os generalizing table with
  | nil => simp
  | cons o os ih =>
    rw [List.foldl_cons, ih, lookup_enter, List.reverse_cons, List.find?_append]
    cases os.reverse.find? (·.name == name) with
    | some p => rfl
    | none =>
      by_cases h : o.name = name
      · simp [h]
      · simp [h]

/-- The table of capabilities knows every operation for what it is. -/
theorem lookup_bind {i : Interface} (hd : (i.operations.map (·.name)).Nodup) {o : Operation}
    (ho : o ∈ i.operations) : (bind i).lookup o.name = some o.mutates := by
  have found : i.operations.reverse.find? (·.name == o.name) = some o := by
    apply Interface.find?_name
    · rw [List.map_reverse]
      exact List.pairwise_reverse.mpr (hd.imp Ne.symm)
    · exact List.mem_reverse.mpr ho
  rw [bind, lookup_foldl_enter, found]
  rfl

end Capabilities

theorem DryRun.calls_callTx (d : DryRun) (name : String) (arguments : List Argument) :
    (d.callTx name arguments).2.calls = d.calls ∨
      (d.callTx name arguments).2.calls = d.calls ++ [⟨name, arguments, true⟩] := by
  unfold callTx
  split
  · exact Or.inl rfl
  · exact Or.inr rfl

theorem DryRun.calls_query (d : DryRun) (name : String) (arguments : List Argument) :
    (d.query name arguments).2.calls = d.calls ∨
      (d.query name arguments).2.calls = d.calls ++ [⟨name, arguments, false⟩] := by
  unfold query
  split
  · exact Or.inl rfl
  · exact Or.inr rfl

/-- An invocation records at most the call of the operation of that name, as a transaction if the
operation changes the ledger. -/
theorem Capabilities.calls_invoke {table : Capabilities} {name : String} {mutates : Bool}
    (hl : table.lookup name = some mutates) (arguments : List Argument) (d : DryRun) :
    (table.invoke name arguments d).2.calls = d.calls ∨
      (table.invoke name arguments d).2.calls = d.calls ++ [⟨name, arguments, mutates⟩] := by
  unfold invoke
  rw [hl]
  cases mutates with
  | true => exact d.calls_callTx name arguments
  | false => exact d.calls_query name arguments

end ContractSurface
