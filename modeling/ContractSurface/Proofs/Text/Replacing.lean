import Mathlib.Data.List.Infix

/-! # Replacing a part of a text

Occurrences are found one after the other from the left and do not overlap.
-/
namespace ContractSurface.Text

def replace (part new : List Char) : List Char → List Char
  | [] => []
  | c :: cs =>
    if part <+: c :: cs then new ++ replace part new (cs.drop (part.length - 1))
    else c :: replace part new cs
termination_by cs => cs.length
decreasing_by
  · rw [List.length_drop, List.length_cons]
    omega
  · exact Nat.lt_succ_self _

def replaced (s part new : String) : String :=
  String.ofList (replace part.toList new.toList s.toList)

theorem replace_nil (part new : List Char) : replace part new [] = [] := by rw [replace]

theorem replace_append (part new : List Char) (c : Char) (rest : List Char) :
    replace (c :: part) new (c :: part ++ rest) = new ++ replace (c :: part) new rest := by
  rw [List.cons_append, replace, if_pos (by simp)]
  simp

theorem replace_cons {part new cs : List Char} {c : Char} (h : ¬part <+: c :: cs) :
    replace part new (c :: cs) = c :: replace part new cs := by
  rw [replace, if_neg h]

end ContractSurface.Text
