/-! # Finding a text inside a text

Search always reports the first occurrence from the left. Comparison without case folds the ASCII
letters only.
-/
namespace ContractSurface.Text

def splitAround? (part : List Char) : List Char → Option (List Char × List Char)
  | [] => if part.isEmpty then some ([], []) else none
  | c :: cs =>
    if part.isPrefixOf (c :: cs) then some ([], (c :: cs).drop part.length)
    else (splitAround? part cs).map fun halves => (c :: halves.1, halves.2)

def occursIn (part : List Char) : List Char → Bool
  | [] => part.isEmpty
  | c :: cs => part.isPrefixOf (c :: cs) || occursIn part cs

def contains (whole part : String) : Bool := occursIn part.toList whole.toList

def lowered (s : String) : List Char := s.toList.map Char.toLower

def containsIgnoringCase (whole part : String) : Bool :=
  occursIn (lowered part) (lowered whole)

def fields (isCut : Char → Bool) : List Char → List (List Char)
  | [] => [[]]
  | c :: cs =>
    if isCut c then [] :: fields isCut cs
    else
      match fields isCut cs with
      | [] => [[c]]
      | field :: rest => (c :: field) :: rest

theorem fields_ne_nil (isCut : Char → Bool) (cs : List Char) : fields isCut cs ≠ [] := by
  cases cs with
  | nil => simp [fields]
  | cons c cs =>
    unfold fields
    split
    · simp
    · split <;> simp

end ContractSurface.Text
