import ContractSurface.Interface.Analyze
import ContractSurface.TypeScript.Artifact
import Mathlib.Data.List.Nodup

/-! # Names in the generated modules

The underscore keeps emitted names off the reserved words. Two names still meet where one is a
reserved word and the other is that word with its underscore, a parameter still hides `console` or
`undefined` where a case uses them, and a query may be called like the group of transactions.
-/
namespace ContractSurface.TypeScript

def Clashes (names : List String) : Prop := ∃ word ∈ reserved, word ∈ names ∧ word ++ "_" ∈ names

instance (names : List String) : Decidable (Clashes names) :=
  inferInstanceAs (Decidable (∃ word ∈ reserved, word ∈ names ∧ word ++ "_" ∈ names))

theorem mem_reserved_of_generated {name : String} (h : name ∈ generatedNames) : name ∈ reserved :=
  List.mem_append_right keywords h

theorem getLast?_reserved : ∀ word ∈ reserved, word.toList.getLast? ≠ some '_' := by
  decide +kernel

theorem getLast?_underscored (word : String) : (word ++ "_").toList.getLast? = some '_' := by
  simp [String.toList_append]

theorem underscored_not_mem_reserved (word : String) : word ++ "_" ∉ reserved :=
  fun mem => getLast?_reserved _ mem (getLast?_underscored word)

theorem identifier_of_mem {name : String} (h : name ∈ reserved) : identifier name = name ++ "_" :=
  if_pos (List.contains_iff_mem.mpr h)

theorem identifier_of_not_mem {name : String} (h : name ∉ reserved) : identifier name = name :=
  if_neg fun found => h (List.contains_iff_mem.mp found)

theorem identifier_not_mem_reserved (name : String) : identifier name ∉ reserved := by
  by_cases h : name ∈ reserved
  · rw [identifier_of_mem h]
    exact underscored_not_mem_reserved name
  · rwa [identifier_of_not_mem h]

theorem identifiers_unreserved (names : List String) :
    ∀ name ∈ names.map identifier, name ∉ reserved :=
  List.forall_mem_map.mpr fun given _ => identifier_not_mem_reserved given

/-- Identifiers coincide only when one name is reserved and the other is it with an underscore. -/
theorem identifier_eq_iff {a b : String} : identifier a = identifier b ↔
    a = b ∨ (a ∈ reserved ∧ b = a ++ "_") ∨ (b ∈ reserved ∧ a = b ++ "_") := by
  constructor
  · intro same
    by_cases ha : a ∈ reserved
    · rw [identifier_of_mem ha] at same
      by_cases hb : b ∈ reserved
      · rw [identifier_of_mem hb] at same
        exact .inl (by simpa using same)
      · rw [identifier_of_not_mem hb] at same
        exact .inr (.inl ⟨ha, same.symm⟩)
    · rw [identifier_of_not_mem ha] at same
      by_cases hb : b ∈ reserved
      · rw [identifier_of_mem hb] at same
        exact .inr (.inr ⟨hb, same⟩)
      · rw [identifier_of_not_mem hb] at same
        exact .inl same
  · have meets : ∀ word ∈ reserved, identifier word = identifier (word ++ "_") := by
      intro word h
      rw [identifier_of_mem h, identifier_of_not_mem (underscored_not_mem_reserved word)]
    rintro (rfl | ⟨ha, rfl⟩ | ⟨hb, rfl⟩)
    · rfl
    · exact meets a ha
    · exact (meets b hb).symm

/-- Different names get different identifiers unless two of them clash. -/
theorem nodup_identifiers {names : List String} (hd : names.Nodup) :
    (names.map identifier).Nodup ↔ ¬Clashes names := by
  rw [List.nodup_map_iff_inj_on hd]
  constructor
  · rintro inj ⟨word, hw, plain, underscored⟩
    have same : word = word ++ "_" :=
      inj word plain _ underscored (identifier_eq_iff.mpr (.inr (.inl ⟨hw, rfl⟩)))
    exact underscored_not_mem_reserved word (same ▸ hw)
  · intro apart a ha b hb same
    rcases identifier_eq_iff.mp same with eq | ⟨hr, rfl⟩ | ⟨hr, rfl⟩
    · exact eq
    · exact absurd ⟨a, hr, ha, hb⟩ apart
    · exact absurd ⟨b, hr, hb, ha⟩ apart

/-- The names bound in a scope differ from each other and from all that the scope refers to. -/
structure ScopeApart (bound references : List String) : Prop where
  distinct : bound.Nodup
  apart : ∀ name ∈ bound, name ∉ references

/-- Names that a scope refers to although no generated module defines them. -/
def globals : List String := ["console", "undefined"]

theorem globals_plain : ∀ u ∈ globals, u ∉ reserved ∧ u.toList.getLast? ≠ some '_' := by
  decide +kernel

theorem identifier_eq_global {u name : String} (hu : u ∈ globals) :
    identifier name = u ↔ name = u := by
  obtain ⟨plain, last⟩ := globals_plain u hu
  by_cases h : name ∈ reserved
  · rw [identifier_of_mem h]
    refine ⟨fun same => ?_, fun same => absurd h (same ▸ plain)⟩
    exact absurd (same ▸ getLast?_underscored name) last
  · rw [identifier_of_not_mem h]

/-- A scope is kept apart unless names clash or one hides a global that is used. -/
theorem scopeApart_identifiers {names references : List String} (hd : names.Nodup)
    (known : ∀ r ∈ references, r ∈ reserved ∨ r ∈ globals) :
    ScopeApart (names.map identifier) references ↔
      ¬Clashes names ∧ ∀ u ∈ globals, u ∈ references → u ∉ names := by
  constructor
  · rintro ⟨distinct, apart⟩
    refine ⟨(nodup_identifiers hd).mp distinct, fun u hu used mem => ?_⟩
    have emitted : u ∈ names.map identifier :=
      List.mem_map.mpr ⟨u, mem, (identifier_eq_global hu).mpr rfl⟩
    exact apart u emitted used
  · rintro ⟨free, unhidden⟩
    refine ⟨(nodup_identifiers hd).mpr free, ?_⟩
    rintro _ emitted used
    obtain ⟨name, mem, rfl⟩ := List.mem_map.mp emitted
    rcases known _ used with taken | global
    · exact identifier_not_mem_reserved name taken
    · have same : name = identifier name := (identifier_eq_global global).mp rfl
      exact unhidden _ global used (same ▸ mem)

/-- What the body of a wrapper refers to beside its parameters; types have names of their own. -/
def Wrapper.references (w : Wrapper) : List String :=
  "contract" :: if w.isTransaction then ["result", "toReceipt"] else []

def Ask.references : Ask → List String
  | .question _ => ["rl"]
  | .pick _ _ => ["pickChoice", "rl"]

def Reading.references : Reading → List String
  | .integer _ ask range =>
    "parseInteger" :: ask.references ++ if range.max = none then ["undefined"] else []
  | .boolean _ ask => "parseBoolean" :: ask.references
  | .bytes ask => "parseBytes" :: ask.references
  | .text ask => ask.references

def OperationCase.references (c : OperationCase) : List String :=
  c.bindings.flatMap (·.2.references) ++ ["result", "api", "contract", "console"] ++
    (if c.givesReceipt then [] else ["formatValue"]) ++ ["error", "reportError"]

def isUnbounded (p : Parameter) : Bool :=
  match parameterKind p.declaredType with
  | .integer range => range.max = none
  | _ => false

theorem Ask.mem_references {ask : Ask} {r : String} (h : r ∈ ask.references) :
    r ∈ ["pickChoice", "rl"] := by
  cases ask with
  | question prompt => exact List.mem_cons_of_mem _ h
  | pick name choices => exact h

theorem Ask.references_reserved (ask : Ask) : ∀ r ∈ ask.references, r ∈ reserved := by
  have helpers : ["pickChoice", "rl"] ⊆ generatedNames := by simp [generatedNames]
  exact fun r hr => mem_reserved_of_generated (helpers (mem_references hr))

theorem Reading.references_known (reading : Reading) :
    ∀ r ∈ reading.references, r ∈ reserved ∨ r = "undefined" := by
  have helpers : ["parseInteger", "parseBoolean", "parseBytes"] ⊆ generatedNames := by
    simp [generatedNames]
  have called {word : String} (hw : word ∈ ["parseInteger", "parseBoolean", "parseBytes"])
      (ask : Ask) : ∀ r ∈ word :: ask.references, r ∈ reserved ∨ r = "undefined" :=
    List.forall_mem_cons.mpr ⟨.inl (mem_reserved_of_generated (helpers hw)),
      fun r hr => .inl (ask.references_reserved r hr)⟩
  cases reading with
  | integer name ask range =>
    intro r hr
    rcases List.mem_append.mp hr with hr | hr
    · exact called (by simp) ask r hr
    · split at hr
      · exact .inr (List.mem_singleton.mp hr)
      · cases hr
  | boolean name ask => exact called (by simp) ask
  | bytes ask => exact called (by simp) ask
  | text ask => exact fun r hr => .inl (ask.references_reserved r hr)

theorem undefined_mem_reading (rules : List ChoiceRule) (p : Parameter) :
    "undefined" ∈ (Reading.ofParameter rules p).references ↔ isUnbounded p = true := by
  have unasked : "undefined" ∉ (Ask.ofParameter rules p).references := fun h =>
    absurd (Ask.mem_references h) (by decide)
  unfold Reading.ofParameter isUnbounded
  cases parameterKind p.declaredType with
  | integer range =>
    by_cases unbounded : range.max = none
    · simp [Reading.references, unbounded]
    · simp [Reading.references, unbounded, unasked]
  | boolean => simp [Reading.references, unasked]
  | bytes => simp [Reading.references, unasked]
  | text => simp [Reading.references, unasked]

section Operation

variable (o : Operation)

def parameterNames : List String := o.parameters.map (·.name)

theorem names_member :
    (Member.ofOperation o).parameters.map (·.name) = (parameterNames o).map identifier := by
  rw [Member.ofOperation, parameterNames, List.map_map, List.map_map]
  rfl

theorem names_wrapper :
    (Wrapper.ofOperation o).parameters.map (·.name) = (parameterNames o).map identifier := by
  rw [Wrapper.ofOperation, parameterNames, List.map_map, List.map_map]
  rfl

theorem names_case (rules : List ChoiceRule) (number : Nat) :
    (OperationCase.ofOperation rules number o).bindings.map (·.1) =
      (parameterNames o).map identifier := by
  rw [OperationCase.ofOperation, parameterNames, List.map_map, List.map_map]
  rfl

theorem wrapper_references_reserved (w : Wrapper) : ∀ r ∈ w.references, r ∈ reserved := by
  have generated : w.references ⊆ generatedNames := by
    unfold Wrapper.references
    cases w.isTransaction <;> simp [generatedNames]
  exact fun r hr => mem_reserved_of_generated (generated hr)

theorem case_references_known (c : OperationCase) :
    ∀ r ∈ c.references, r ∈ reserved ∨ r ∈ globals := by
  have fixed : ∀ r ∈ ["result", "api", "contract", "console"] ++
      (if c.givesReceipt then [] else ["formatValue"]) ++ ["error", "reportError"],
      r ∈ reserved ∨ r ∈ globals := by
    cases c.givesReceipt <;> simp [reserved, generatedNames, globals]
  intro r hr
  rw [OperationCase.references, List.append_assoc, List.append_assoc, List.mem_append,
    ← List.append_assoc] at hr
  rcases hr with hr | hr
  · obtain ⟨b, _, hb⟩ := List.mem_flatMap.mp hr
    rcases b.2.references_known r hb with taken | rfl
    · exact .inl taken
    · exact .inr (by simp [globals])
  · exact fixed r hr

theorem undefined_mem_case_iff (c : OperationCase) :
    "undefined" ∈ c.references ↔ ∃ b ∈ c.bindings, "undefined" ∈ b.2.references := by
  have receipt : "undefined" ∉ if c.givesReceipt then [] else ["formatValue"] := by
    cases c.givesReceipt with
    | true => decide
    | false => decide
  simp [OperationCase.references, receipt]

theorem console_mem_case (c : OperationCase) : "console" ∈ c.references := by
  simp [OperationCase.references]

variable {o}

theorem wrapper_scope_iff (hd : (parameterNames o).Nodup) :
    ScopeApart ((Wrapper.ofOperation o).parameters.map (·.name))
      (Wrapper.ofOperation o).references ↔ ¬Clashes (parameterNames o) := by
  have taken := wrapper_references_reserved (Wrapper.ofOperation o)
  rw [names_wrapper, scopeApart_identifiers hd fun r hr => .inl (taken r hr)]
  exact and_iff_left fun u hu used => absurd (taken u used) (globals_plain u hu).1

theorem case_scope_iff (rules : List ChoiceRule) (number : Nat) (hd : (parameterNames o).Nodup) :
    ScopeApart ((OperationCase.ofOperation rules number o).bindings.map (·.1))
      (OperationCase.ofOperation rules number o).references ↔
      ¬Clashes (parameterNames o) ∧ "console" ∉ parameterNames o ∧
        ((∃ p ∈ o.parameters, isUnbounded p = true) → "undefined" ∉ parameterNames o) := by
  rw [names_case, scopeApart_identifiers hd (case_references_known _), globals,
    List.forall_mem_cons, List.forall_mem_singleton, undefined_mem_case_iff]
  simp [console_mem_case, OperationCase.ofOperation, undefined_mem_reading]

end Operation

structure DistinctNames (i : Interface) : Prop where
  operations : (i.operations.map (·.name)).Nodup
  parameters : ∀ o ∈ i.operations, (parameterNames o).Nodup

def emittedNames (a : Api) (c : Cli) : List String :=
  (a.transactions ++ a.queries).flatMap (fun m => m.parameters.map (·.name)) ++
    a.wrappers.flatMap (fun w => w.name :: w.parameters.map (·.name)) ++
    c.cases.flatMap fun o => o.wrapper :: o.bindings.map (·.1)

/-- No two things of the modules go by one name where one of them is meant. -/
structure NamesApart (a : Api) (c : Cli) : Prop where
  wrappers : (a.wrappers.map (·.name)).Nodup
  topLevel : ∀ w ∈ a.wrappers, w.name ∉ ["toReceipt", "operations", "stateVariables"]
  unreserved : ∀ name ∈ emittedNames a c, name ∉ reserved
  wrapperScopes : ∀ w ∈ a.wrappers, ScopeApart (w.parameters.map (·.name)) w.references
  caseScopes : ∀ o ∈ c.cases, ScopeApart (o.bindings.map (·.1)) o.references
  members : ("callTx" :: a.queries.map (·.name)).Nodup

/-- What an interface has to avoid for its modules to keep names apart. -/
structure Separable (i : Interface) : Prop where
  operations : ¬Clashes (i.operations.map (·.name))
  parameters : ∀ o ∈ i.operations, ¬Clashes (parameterNames o)
  console : ∀ o ∈ i.operations, "console" ∉ parameterNames o
  undefined : ∀ o ∈ i.operations, (∃ p ∈ o.parameters, isUnbounded p = true) →
    "undefined" ∉ parameterNames o
  callTx : ∀ o ∈ i.operations, o.mutates = false → o.name ≠ "callTx"

instance (i : Interface) : Decidable (DistinctNames i) :=
  decidable_of_iff
    ((i.operations.map (·.name)).Nodup ∧ ∀ o ∈ i.operations, (parameterNames o).Nodup)
    ⟨fun ⟨operations, parameters⟩ => ⟨operations, parameters⟩, fun h => ⟨h.1, h.2⟩⟩

instance (i : Interface) : Decidable (Separable i) :=
  decidable_of_iff
    (¬Clashes (i.operations.map (·.name)) ∧
      (∀ o ∈ i.operations, ¬Clashes (parameterNames o)) ∧
      (∀ o ∈ i.operations, "console" ∉ parameterNames o) ∧
      (∀ o ∈ i.operations, (∃ p ∈ o.parameters, isUnbounded p = true) →
        "undefined" ∉ parameterNames o) ∧
      ∀ o ∈ i.operations, o.mutates = false → o.name ≠ "callTx")
    ⟨fun ⟨operations, parameters, console, undefined, callTx⟩ =>
      ⟨operations, parameters, console, undefined, callTx⟩,
      fun h => ⟨h.1, h.2, h.3, h.4, h.5⟩⟩

section Interface

variable {i : Interface} {options : SessionOptions}

theorem wrappers_apart_iff (hd : DistinctNames i) :
    ((Api.ofInterface i).wrappers.map (·.name)).Nodup ↔ ¬Clashes (i.operations.map (·.name)) := by
  have names : (Api.ofInterface i).wrappers.map (·.name) =
      (i.operations.map (·.name)).map identifier := by
    rw [Api.ofInterface, List.map_map, List.map_map]
    rfl
  rw [names, nodup_identifiers hd.operations]

theorem members_apart_iff (hd : DistinctNames i) :
    ("callTx" :: (Api.ofInterface i).queries.map (·.name)).Nodup ↔
      ∀ o ∈ i.operations, o.mutates = false → o.name ≠ "callTx" := by
  have names : (Api.ofInterface i).queries.map (·.name) =
      (i.operations.filter (!·.mutates)).map (·.name) := by
    rw [Api.ofInterface, List.map_map]
    rfl
  have nodup : ((i.operations.filter (!·.mutates)).map (·.name)).Nodup :=
    hd.operations.sublist (List.filter_sublist.map _)
  rw [names, List.nodup_cons, and_iff_left nodup]
  simp

/-- No reserved name is emitted. -/
theorem emittedNames_unreserved :
    ∀ name ∈ emittedNames (Api.ofInterface i) (Cli.ofInterface i options), name ∉ reserved := by
  intro name h
  rcases List.mem_append.mp h with h | h
  · rcases List.mem_append.mp h with h | h
    · obtain ⟨m, hm, hn⟩ := List.mem_flatMap.mp h
      obtain ⟨o, rfl⟩ : ∃ o, m = .ofOperation o := by
        rcases List.mem_append.mp hm with hm | hm
        all_goals
          obtain ⟨o, _, rfl⟩ := List.mem_map.mp hm
          exact ⟨o, rfl⟩
      rw [names_member] at hn
      exact identifiers_unreserved _ name hn
    · obtain ⟨w, hw, hn⟩ := List.mem_flatMap.mp h
      obtain ⟨o, _, rfl⟩ := List.mem_map.mp hw
      rcases List.mem_cons.mp hn with rfl | hn
      · exact identifier_not_mem_reserved o.name
      · rw [names_wrapper] at hn
        exact identifiers_unreserved _ name hn
  · obtain ⟨c, hc, hn⟩ := List.mem_flatMap.mp h
    obtain ⟨k, o, _, rfl⟩ := mem_operationCases.mp hc
    rcases List.mem_cons.mp hn with rfl | hn
    · exact identifier_not_mem_reserved o.name
    · rw [names_case] at hn
      exact identifiers_unreserved _ name hn

theorem wrappers_avoid_topLevel :
    ∀ w ∈ (Api.ofInterface i).wrappers,
      w.name ∉ ["toReceipt", "operations", "stateVariables"] := by
  have generated : ["toReceipt", "operations", "stateVariables"] ⊆ generatedNames := by
    simp [generatedNames]
  intro w hw mem
  obtain ⟨o, _, rfl⟩ := List.mem_map.mp hw
  exact identifier_not_mem_reserved o.name (mem_reserved_of_generated (generated mem))

theorem wrapper_scopes_iff (hd : DistinctNames i) :
    (∀ w ∈ (Api.ofInterface i).wrappers, ScopeApart (w.parameters.map (·.name)) w.references) ↔
      ∀ o ∈ i.operations, ¬Clashes (parameterNames o) := by
  rw [Api.ofInterface, List.forall_mem_map]
  exact forall₂_congr fun o ho => wrapper_scope_iff (hd.parameters o ho)

theorem case_scopes_iff (hd : DistinctNames i) :
    (∀ c ∈ (Cli.ofInterface i options).cases,
      ScopeApart (c.bindings.map (·.1)) c.references) ↔
      ∀ o ∈ i.operations, ¬Clashes (parameterNames o) ∧ "console" ∉ parameterNames o ∧
        ((∃ p ∈ o.parameters, isUnbounded p = true) → "undefined" ∉ parameterNames o) := by
  constructor
  · intro apart o ho
    obtain ⟨k, hk⟩ := List.mem_iff_getElem?.mp ho
    have mem : OperationCase.ofOperation options.choiceRules (1 + k) o ∈
        (Cli.ofInterface i options).cases := mem_operationCases.mpr ⟨k, o, hk, rfl⟩
    exact (case_scope_iff options.choiceRules (1 + k) (hd.parameters o ho)).mp (apart _ mem)
  · intro free c hc
    obtain ⟨k, o, hk, rfl⟩ := mem_operationCases.mp hc
    have ho : o ∈ i.operations := List.mem_of_getElem? hk
    exact (case_scope_iff options.choiceRules (1 + k) (hd.parameters o ho)).mpr (free o ho)

/-- The modules keep names apart exactly for separable interfaces. -/
theorem namesApart_iff (hd : DistinctNames i) :
    NamesApart (Api.ofInterface i) (Cli.ofInterface i options) ↔ Separable i := by
  constructor
  · intro apart
    have scopes := (case_scopes_iff hd).mp apart.caseScopes
    exact {
      operations := (wrappers_apart_iff hd).mp apart.wrappers
      parameters := (wrapper_scopes_iff hd).mp apart.wrapperScopes
      console := fun o ho => (scopes o ho).2.1
      undefined := fun o ho => (scopes o ho).2.2
      callTx := (members_apart_iff hd).mp apart.members }
  · intro free
    exact {
      wrappers := (wrappers_apart_iff hd).mpr free.operations
      topLevel := wrappers_avoid_topLevel
      unreserved := emittedNames_unreserved
      wrapperScopes := (wrapper_scopes_iff hd).mpr free.parameters
      caseScopes := (case_scopes_iff hd).mpr fun o ho =>
        ⟨free.parameters o ho, free.console o ho, free.undefined o ho⟩
      members := (members_apart_iff hd).mpr free.callTx }

/-- Emitted names are never reserved and never a value of the module's own. All of them are kept
apart exactly if the interface is separable. -/
theorem emitted_names_apart_iff (hd : DistinctNames i) :
    (∀ name ∈ emittedNames (Api.ofInterface i) (Cli.ofInterface i options), name ∉ reserved) ∧
      (∀ w ∈ (Api.ofInterface i).wrappers,
        w.name ∉ ["toReceipt", "operations", "stateVariables"]) ∧
      (NamesApart (Api.ofInterface i) (Cli.ofInterface i options) ↔ Separable i) :=
  ⟨emittedNames_unreserved, wrappers_avoid_topLevel, namesApart_iff hd⟩

theorem reserved_names_kept_apart :
    let i := analyze
      "export circuit delete(new: Field, result: Boolean): [] {} export circuit total(): Field {}"
      "ballot.compact"
    DistinctNames i ∧ NamesApart (Api.ofInterface i) (Cli.ofInterface i .standard) := by
  have distinct : DistinctNames (analyze
      "export circuit delete(new: Field, result: Boolean): [] {} export circuit total(): Field {}"
      "ballot.compact") := by decide +kernel
  exact ⟨distinct, (emitted_names_apart_iff distinct).2.2.mpr (by decide +kernel)⟩

/-- A name that hides `console`, two names that the underscore makes one, and a query beside the
group of its name. -/
theorem distinct_names_meet :
    let hidden := analyze "export circuit log(console: Field): [] {}" "names.compact"
    let renamed := analyze
      "export circuit new(): [] {} export circuit new_(): [] {}" "names.compact"
    let grouped := analyze "export circuit callTx(): Field {}" "names.compact"
    (DistinctNames hidden ∧ ¬NamesApart (Api.ofInterface hidden) (Cli.ofInterface hidden .standard)) ∧
    (DistinctNames renamed ∧
      ¬NamesApart (Api.ofInterface renamed) (Cli.ofInterface renamed .standard)) ∧
    DistinctNames grouped ∧
      ¬NamesApart (Api.ofInterface grouped) (Cli.ofInterface grouped .standard) := by
  intro hidden renamed grouped
  have meet : ∀ i, DistinctNames i ∧ ¬Separable i →
      DistinctNames i ∧ ¬NamesApart (Api.ofInterface i) (Cli.ofInterface i .standard) :=
    fun i h => ⟨h.1, fun apart => h.2 ((namesApart_iff h.1).mp apart)⟩
  refine ⟨meet hidden ?_, meet renamed ?_, meet grouped ?_⟩
  · decide +kernel
  · decide +kernel
  · decide +kernel

end Interface

end ContractSurface.TypeScript
