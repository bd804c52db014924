import ContractSurface.Proofs.Call.Invocation
import ContractSurface.Proofs.Text.Numerals
import ContractSurface.Session.Machine
import Mathlib.Data.List.Nodup

/-! # The numbers of the menu

The entries are counted from one without a gap and each shows its number. An answer selects the
entry whose number it spells, and the entry of an operation leads to the operation at its place.
-/
namespace ContractSurface

namespace Menu

variable {menu : Menu} {item : MenuItem}

/-- With numbers of their own, entries are found by number. -/
theorem find?_id_eq_some_iff (hd : (menu.map (·.id)).Nodup) {k : Nat} :
    menu.find? (·.id == k) = some item ↔ item ∈ menu ∧ item.id = k := by
  constructor
  · intro found
    exact ⟨List.mem_of_find?_eq_some found, by simpa using List.find?_some found⟩
  · rintro ⟨mem, rfl⟩
    have exists_one : (menu.find? (·.id == item.id)).isSome := by
      rw [List.find?_isSome]
      exact ⟨item, mem, beq_self_eq_true _⟩
    obtain ⟨other, found⟩ := Option.isSome_iff_exists.mp exists_one
    have same : other.id = item.id := by simpa using List.find?_some found
    rw [found, List.inj_on_of_nodup_map hd (List.mem_of_find?_eq_some found) mem same]

theorem select?_eq_some_iff (hd : (menu.map (·.id)).Nodup) {line : String} :
    menu.select? line = some item ↔
      item ∈ menu ∧ Spells (Text.trim line.toList) item.id ∧ item.id < 2 ^ 64 := by
  rw [select?, Option.bind_eq_some_iff]
  constructor
  · rintro ⟨k, read, found⟩
    obtain ⟨mem, rfl⟩ := (find?_id_eq_some_iff hd).mp found
    exact ⟨mem, Text.naturalOfWidth?_eq_some_iff.mp read⟩
  · rintro ⟨mem, read⟩
    exact ⟨item.id, Text.naturalOfWidth?_eq_some_iff.mpr read,
      (find?_id_eq_some_iff hd).mpr ⟨mem, rfl⟩⟩

theorem operationItems_eq (number : Nat) (os : List Operation) :
    operationItems number os = (os.zipIdx number).map fun p =>
      ⟨p.2, entryLabel p.2 p.1, p.1.description, !p.1.mutates, .invoke p.1.name⟩ := by
  induction os generalizing number with
  | nil => rfl
  | cons o os ih => rw [operationItems, ih (number + 1), List.zipIdx_cons, List.map_cons]

theorem ids_operationItems (number : Nat) (os : List Operation) :
    (operationItems number os).map (·.id) = List.range' number os.length := by
  rw [operationItems_eq, List.map_map]
  exact List.zipIdx_map_snd number os

theorem actions_operationItems (number : Nat) (os : List Operation) :
    (operationItems number os).map (·.action) = os.map fun o => .invoke o.name := by
  have names := congrArg (List.map fun o => MenuAction.invoke o.name)
    (List.zipIdx_map_fst number os)
  rw [List.map_map] at names
  rw [operationItems_eq, List.map_map]
  exact names

theorem label_operationItems {number : Nat} {os : List Operation}
    (h : item ∈ operationItems number os) :
    ∃ words : String, item.label = s!"{item.id}. {words}" := by
  rw [operationItems_eq] at h
  obtain ⟨⟨o, k⟩, _, rfl⟩ := List.mem_map.mp h
  refine ⟨s!"{titleCase o.name}({o.parameters.length} params)", ?_⟩
  simp [entryLabel, String.append_assoc, toString]

variable (i : Interface)

theorem ids_ofInterface :
    (ofInterface i).map (·.id) = List.range' 1 (i.operations.length + 2) := by
  rw [ofInterface, List.map_append, ids_operationItems, List.range'_concat, List.range'_concat,
    List.append_assoc, Nat.one_mul, Nat.one_mul, Nat.add_comm 1, Nat.add_comm 1]
  rfl

theorem actions_ofInterface :
    (ofInterface i).map (·.action) =
      i.operations.map (fun o => .invoke o.name) ++ [.showState, .exit] := by
  rw [ofInterface, List.map_append, actions_operationItems]
  rfl

theorem label_ofInterface (h : item ∈ ofInterface i) :
    ∃ words : String, item.label = s!"{item.id}. {words}" := by
  rcases List.mem_append.mp h with h | h
  · exact label_operationItems h
  · simp only [List.mem_cons, List.not_mem_nil, or_false] at h
    rcases h with rfl | rfl
    · exact ⟨"Display contract state", by simp [stateLabel, String.append_assoc, toString]⟩
    · exact ⟨"Exit", by simp [exitLabel, String.append_assoc, toString]⟩

/-- With names of their own, the entries lead to the operations at their places. -/
theorem stages_ofInterface (hd : (i.operations.map (·.name)).Nodup) :
    (ofInterface i).map (fun item => SessionState.stageOfAction i item.action) =
      (List.range i.operations.length).map (.collecting · []) ++ [.showingState, .leaving] := by
  have entered : i.operations.map (fun o => SessionState.stageOfAction i (.invoke o.name)) =
      (List.range i.operations.length).map (.collecting · []) := by
    refine List.ext_getElem (by simp) fun k hk _ => ?_
    have within : k < i.operations.length := by simpa using hk
    have index := Interface.operationIndex?_name hd (List.getElem?_eq_getElem within)
    simp [SessionState.stageOfAction, index]
  have stages : (ofInterface i).map (fun item => SessionState.stageOfAction i item.action) =
      ((ofInterface i).map (·.action)).map (SessionState.stageOfAction i) := by
    rw [List.map_map]
    rfl
  rw [stages, actions_ofInterface, List.map_append, List.map_map, ← entered]
  rfl

/-- The numbers of the menu, as a session shows and takes them. An answer is read as a number of 64
bits, and a list in memory has fewer entries than that. -/
structure Numbered (menu : Menu) : Prop where
  ids : menu.map (·.id) = List.range' 1 (i.operations.length + 2)
  labels : ∀ item ∈ menu, ∃ words : String, item.label = s!"{item.id}. {words}"
  actions : menu.map (·.action) =
    i.operations.map (fun o => .invoke o.name) ++ [.showState, .exit]
  stages : (i.operations.map (·.name)).Nodup →
    menu.map (fun item => SessionState.stageOfAction i item.action) =
      (List.range i.operations.length).map (.collecting · []) ++ [.showingState, .leaving]
  selected : ∀ line item, menu.select? line = some item ↔
    item ∈ menu ∧ Spells (Text.trim line.toList) item.id ∧ item.id < 2 ^ 64

theorem numbered_ofInterface : Numbered i (ofInterface i) where
  ids := ids_ofInterface i
  labels _ h := label_ofInterface i h
  actions := actions_ofInterface i
  stages hd := stages_ofInterface i hd
  selected _ _ := select?_eq_some_iff (by rw [ids_ofInterface]; exact List.nodup_range')

end Menu

end ContractSurface
