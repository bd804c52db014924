import ContractSurface.Interface.Analyze

/-! # The first declaration of a name

The first circuit of a name hides the later ones, so an interface has no two operations of one name,
and what is found under a name is the first circuit that has it. Ledger fields do not hide each
other.
-/
namespace ContractSurface
open Source

variable {seen : List String} {c : Circuit} {cs : List Circuit} {name : String}

theorem mem_of_mem_firstOfName (h : c ∈ firstOfName seen cs) : c ∈ cs := by
  induction cs generalizing seen with
  | nil => cases h
  | cons d cs ih =>
    unfold firstOfName at h
    split at h
    · exact List.mem_cons_of_mem d (ih h)
    · rcases List.mem_cons.mp h with rfl | h
      · exact List.mem_cons_self
      · exact List.mem_cons_of_mem d (ih h)

/-- The operations that are kept have different names, none of which was seen before. -/
theorem nodup_firstOfName (seen : List String) (cs : List Circuit) :
    ((firstOfName seen cs).map (·.name)).Nodup ∧ ∀ c ∈ firstOfName seen cs, c.name ∉ seen := by
  induction cs generalizing seen with
  | nil => exact ⟨.nil, by simp [firstOfName]⟩
  | cons c cs ih =>
    unfold firstOfName
    split
    · exact ih seen
    · next fresh =>
      obtain ⟨nodup, unseen⟩ := ih (c.name :: seen)
      have later : ∀ d ∈ firstOfName (c.name :: seen) cs, d.name ≠ c.name ∧ d.name ∉ seen := by
        intro d hd
        simpa using unseen d hd
      refine ⟨?_, List.forall_mem_cons.mpr ⟨fresh, fun d hd => (later d hd).2⟩⟩
      rw [List.map_cons, List.nodup_cons]
      refine ⟨fun mem => ?_, nodup⟩
      obtain ⟨d, hd, same⟩ := List.mem_map.mp mem
      exact (later d hd).1 same

def firstCircuits (cs : List Circuit) : List Circuit :=
  (cs.zipIdx.filter fun c => c.1.name ∉ (cs.take c.2).map (·.name)).map (·.1)

/-- The names seen are those of the circuits before. -/
theorem firstOfName_eq_filter {before : List Circuit}
    (h : ∀ name, name ∈ seen ↔ name ∈ before.map (·.name)) (cs : List Circuit) :
    firstOfName seen cs =
      ((cs.zipIdx before.length).filter fun c =>
        c.1.name ∉ ((before ++ cs).take c.2).map (·.name)).map (·.1) := by
  induction cs generalizing seen before with
  | nil => rfl
  | cons c cs ih =>
    have here : ((before ++ c :: cs).take before.length).map (·.name) = before.map (·.name) := by
      rw [List.take_left']
      rfl
    have next : before ++ c :: cs = before ++ [c] ++ cs := by simp
    have later {seen : List String}
        (hs : ∀ name, name ∈ seen ↔ name ∈ (before ++ [c]).map (·.name)) :
        firstOfName seen cs = ((cs.zipIdx (before.length + 1)).filter fun d =>
          d.1.name ∉ ((before ++ c :: cs).take d.2).map (·.name)).map (·.1) := by
      have whole := ih hs
      rwa [← next, List.length_append, List.length_singleton] at whole
    have first : c.name ∈ ((before ++ c :: cs).take before.length).map (·.name) ↔
        c.name ∈ seen := by
      rw [here, h]
    rw [firstOfName, List.zipIdx_cons]
    by_cases hidden : c.name ∈ seen
    · rw [if_pos hidden, List.filter_cons_of_neg (by simpa using first.mpr hidden), later]
      intro name
      rw [List.map_append, List.mem_append, ← h]
      refine ⟨Or.inl, fun either => either.elim id fun same => ?_⟩
      rwa [List.mem_singleton.mp same]
    · have shown := mt first.mp hidden
      rw [if_neg hidden, List.filter_cons_of_pos (by simpa using shown), List.map_cons, later]
      intro name
      rw [List.map_append, List.mem_append, ← h, List.mem_cons, or_comm, List.map_singleton,
        List.mem_singleton]

theorem firstOfName_nil (cs : List Circuit) : firstOfName [] cs = firstCircuits cs := by
  have seen : ∀ name, name ∈ [] ↔ name ∈ ([] : List Circuit).map (·.name) := fun _ => Iff.rfl
  exact firstOfName_eq_filter seen cs

/-- Dropping later circuits of a name does not change the first one. -/
theorem find?_firstOfName (h : name ∉ seen) (cs : List Circuit) :
    (firstOfName seen cs).find? (·.name == name) = cs.find? (·.name == name) := by
  induction cs generalizing seen with
  | nil => rfl
  | cons c cs ih =>
    rw [firstOfName]
    by_cases found : c.name = name
    · subst found
      rw [if_neg h, List.find?_cons_of_pos (by simp), List.find?_cons_of_pos (by simp)]
    · have passed : ∀ cs : List Circuit,
          (c :: cs).find? (·.name == name) = cs.find? (·.name == name) := fun cs =>
        List.find?_cons_of_neg (by simpa using found)
      rw [passed]
      by_cases hidden : c.name ∈ seen
      · rw [if_pos hidden, ih h]
      · rw [if_neg hidden, passed, ih]
        rw [List.mem_cons, not_or]
        exact ⟨Ne.symm found, h⟩

/-- A circuit behind one of its name changes nothing. -/
theorem firstOfName_insert {before : List Circuit}
    (h : c.name ∈ seen ∨ c.name ∈ before.map (·.name)) (after : List Circuit) :
    firstOfName seen (before ++ c :: after) = firstOfName seen (before ++ after) := by
  induction before generalizing seen with
  | nil =>
    have hidden : c.name ∈ seen := h.resolve_right List.not_mem_nil
    rw [List.nil_append, firstOfName, if_pos hidden, List.nil_append]
  | cons d before ih =>
    rw [List.cons_append, List.cons_append, firstOfName, firstOfName]
    rw [List.map_cons, List.mem_cons] at h
    by_cases hidden : d.name ∈ seen
    · rw [if_pos hidden, if_pos hidden, ih]
      rcases h with earlier | same | later
      · exact Or.inl earlier
      · exact Or.inl (same ▸ hidden)
      · exact Or.inr later
    · rw [if_neg hidden, if_neg hidden, ih]
      rwa [List.mem_cons, or_assoc, or_left_comm]

theorem nodup_ofDeclarations (d : Declarations) (file : String) :
    ((Interface.ofDeclarations d file).operations.map (·.name)).Nodup := by
  have names : (Interface.ofDeclarations d file).operations.map (·.name) =
      (firstOfName [] d.circuits).map (·.name) := by
    rw [Interface.ofDeclarations, List.map_map]
    rfl
  rw [names]
  exact (nodup_firstOfName [] _).1

theorem nodup_analyze (source file : String) :
    ((analyze source file).operations.map (·.name)).Nodup :=
  nodup_ofDeclarations (declarations source) file

theorem operation?_ofDeclarations (d : Declarations) (file name : String) :
    (Interface.ofDeclarations d file).operation? name =
      (d.circuits.find? (·.name == name)).map Operation.ofCircuit := by
  rw [Interface.operation?, Interface.ofDeclarations, List.find?_map]
  exact congrArg _ (find?_firstOfName List.not_mem_nil d.circuits)

theorem mem_names_ofDeclarations (d : Declarations) (file name : String) :
    name ∈ (Interface.ofDeclarations d file).operations.map (·.name) ↔
      name ∈ d.circuits.map (·.name) := by
  have found {α : Type} (xs : List α) (nameOf : α → String) :
      name ∈ xs.map nameOf ↔ (xs.find? (nameOf · == name)).isSome := by
    simp [List.find?_isSome]
  have same := operation?_ofDeclarations d file name
  rw [Interface.operation?] at same
  rw [found, same, Option.isSome_map, found]

/-- The operation is the circuit as it is declared, taken for a query or a mutation. -/
structure Presents (o : Operation) (c : Circuit) : Prop where
  name : o.name = c.name
  parameters : o.parameters = c.parameters
  returnType : o.returnType = c.returnType
  mutates : o.mutates = isMutation c.name c.returnType

/-- The operations are the circuits without those that have the name of an earlier one, which leave
no trace. -/
theorem ofDeclarations_keeps_first (d : Declarations) (file : String) :
    (Interface.ofDeclarations d file).operations =
        (firstCircuits d.circuits).map Operation.ofCircuit ∧
      (∀ c, Presents (Operation.ofCircuit c) c) ∧
      ((Interface.ofDeclarations d file).operations.map (·.name)).Nodup ∧
      (∀ name, name ∈ (Interface.ofDeclarations d file).operations.map (·.name) ↔
        name ∈ d.circuits.map (·.name)) ∧
      (∀ before c after, d.circuits = before ++ after → c.name ∈ before.map (·.name) →
        Interface.ofDeclarations ⟨before ++ c :: after, d.ledgers⟩ file =
          Interface.ofDeclarations d file) ∧
      (∀ name, (Interface.ofDeclarations d file).operation? name =
        (d.circuits.find? (·.name == name)).map Operation.ofCircuit) ∧
      (Interface.ofDeclarations d file).stateVariables = d.ledgers := by
  have first : (Interface.ofDeclarations d file).operations =
      (firstCircuits d.circuits).map Operation.ofCircuit := by
    rw [Interface.ofDeclarations, firstOfName_nil]
  refine ⟨first, fun c => ⟨rfl, rfl, rfl, rfl⟩, nodup_ofDeclarations d file,
    mem_names_ofDeclarations d file, fun before c after split hidden => ?_,
    operation?_ofDeclarations d file, rfl⟩
  rw [Interface.ofDeclarations, Interface.ofDeclarations, split,
    firstOfName_insert (Or.inr hidden)]

/-- A second circuit of one name is hidden, though its types are others. -/
theorem second_vote_hidden :
    Interface.ofDeclarations ⟨[⟨"vote", [⟨"choice", "Uint<8>"⟩], "[]", []⟩,
        ⟨"vote", [], "Field", ["again"]⟩, ⟨"tally", [], "Field", []⟩], []⟩ "v.compact" =
      Interface.ofDeclarations ⟨[⟨"vote", [⟨"choice", "Uint<8>"⟩], "[]", []⟩,
        ⟨"tally", [], "Field", []⟩], []⟩ "v.compact" := by
  have whole := (ofDeclarations_keeps_first ⟨[⟨"vote", [⟨"choice", "Uint<8>"⟩], "[]", []⟩,
    ⟨"tally", [], "Field", []⟩], []⟩ "v.compact").2.2.2.2.1
  exact whole [⟨"vote", [⟨"choice", "Uint<8>"⟩], "[]", []⟩] ⟨"vote", [], "Field", ["again"]⟩
    [⟨"tally", [], "Field", []⟩] rfl (by decide)

end ContractSurface
