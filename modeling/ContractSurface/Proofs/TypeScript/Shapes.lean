import ContractSurface.Proofs.Interface.Names
import ContractSurface.Proofs.TypeScript.Numbering

/-! # Shapes of generated lines

A shape is a line with places left open. What may stand in an open place is said by its kind, so a
line that fits a shape takes nothing else over from the interface it was made from.
-/
namespace ContractSurface.TypeScript

inductive Shape where
  | text (s : String)
  | name
  | title
  | quoted
  | number
  | remark
  | seq (first second : Shape)
  | alt (one other : Shape)
  | list (item : Shape)

/-- A comment that goes around the text ends behind it and not inside. -/
structure IsRemark (s : String) : Prop where
  oneLine : OneLine s
  unclosed : s.toList.IsChain fun c d => ¬(c = '*' ∧ d = '/')

namespace Shape

instance : Append Shape := ⟨seq⟩

instance : OrOp Shape := ⟨alt⟩

inductive Fits : Shape → String → Prop
  | text (s : String) : Fits (.text s) s
  | name {s : String} : IsIdentifier s → Fits .name s
  | title {s : String} : IsTitle s → Fits .title s
  | quoted (s : String) : Fits .quoted (Text.quoted s)
  | number (n : Nat) : Fits .number (toString n)
  | remark {s : String} : IsRemark s → Fits .remark s
  | seq {a b : Shape} {s t : String} : Fits a s → Fits b t → Fits (a ++ b) (s ++ t)
  | left {a b : Shape} {s : String} : Fits a s → Fits (a ||| b) s
  | right {a b : Shape} {s : String} : Fits b s → Fits (a ||| b) s
  | list {item : Shape} {parts : List String} : (∀ part ∈ parts, Fits item part) →
      Fits (.list item) (", ".intercalate parts)

def onLine : Shape → Bool
  | .text s => s.toList.all (· != '\n')
  | .seq a b => a.onLine && b.onLine
  | .alt a b => a.onLine && b.onLine
  | .list item => item.onLine
  | _ => true

theorem oneLine_of_isTitle {s : String} (h : IsTitle s) : OneLine s :=
  fun lineEnd => absurd (h.2 _ lineEnd) (by decide)

/-- A text that fits a shape of one line is one line. -/
theorem Fits.oneLine {shape : Shape} {s : String} (h : shape.Fits s) (hs : shape.onLine = true) :
    OneLine s := by
  induction h with
  | text s =>
    rw [oneLine_iff]
    simpa [onLine] using hs
  | name word => exact oneLine_of_isIdentifier word
  | title letters => exact oneLine_of_isTitle letters
  | quoted s => exact oneLine_quoted s
  | number n => exact oneLine_toString n
  | remark h => exact h.oneLine
  | seq _ _ first second =>
    obtain ⟨before, behind⟩ := Bool.and_eq_true_iff.mp hs
    exact (first before).append (second behind)
  | left _ ih => exact ih (Bool.and_eq_true_iff.mp hs).1
  | right _ ih => exact ih (Bool.and_eq_true_iff.mp hs).2
  | list _ ih => exact oneLine_intercalate (by decide) fun part mem => ih part mem hs

end Shape

/-- Lines that stand as they are, and shapes of the other lines. -/
structure Grammar where
  fixed : List String
  shapes : List Shape

namespace Grammar

def Allows (g : Grammar) (line : String) : Prop :=
  line ∈ g.fixed ∨ ∃ shape ∈ g.shapes, shape.Fits line

theorem Allows.oneLine {g : Grammar} {line : String} (h : g.Allows line)
    (fixed : ∀ l ∈ g.fixed, OneLine l) (shapes : ∀ s ∈ g.shapes, s.onLine = true) :
    OneLine line := by
  rcases h with mem | ⟨shape, mem, fits⟩
  · exact fixed line mem
  · exact fits.oneLine (shapes shape mem)

end Grammar

end ContractSurface.TypeScript
