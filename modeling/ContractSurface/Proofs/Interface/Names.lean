import ContractSurface.Interface.Names
import ContractSurface.Proofs.Source.Lexing
import ContractSurface.Proofs.Text.Fields

/-! # Names made from other names

Capitals change no letter into something else, so a part of a name keeps to the characters that its
cuts leave over. A contract has letters and digits in its name and nothing else. Such a name is the
name of itself, and neither the directory of a file nor what follows the first dot has part in it.
-/
namespace ContractSurface

def IsTitle (name : String) : Prop := name ≠ "" ∧ ∀ c ∈ name.toList, c.isAlphanum = true

/-- A title that does not start with a small letter. -/
structure IsContractName (name : String) : Prop where
  isTitle : IsTitle name
  start : ∀ c ∈ name.toList.head?, c.isLower = false

def isSeparator (c : Char) : Bool := c == '/' || c == '\\'

theorem exists_of_mem_capitalize {cs : List Char} {c : Char} (h : c ∈ capitalize cs) :
    ∃ d ∈ cs, c = d ∨ c = d.toUpper := by
  cases cs with
  | nil => cases h
  | cons d cs =>
    rcases List.mem_cons.mp h with rfl | h
    · exact ⟨d, List.mem_cons_self, .inr rfl⟩
    · exact ⟨c, List.mem_cons_of_mem d h, .inl rfl⟩

theorem capitalize_ne_nil {cs : List Char} (h : cs ≠ []) : capitalize cs ≠ [] := by
  obtain ⟨c, rest, rfl⟩ := List.exists_cons_of_ne_nil h
  simp [capitalize]

/-- A part comes from a field, whose characters are uncut. -/
theorem exists_of_mem_capitalizedParts {isCut : Char → Bool} {cs part : List Char} {c : Char}
    (hp : part ∈ capitalizedParts isCut cs) (hc : c ∈ part) :
    ∃ d ∈ cs, isCut d = false ∧ (c = d ∨ c = d.toUpper) := by
  obtain ⟨field, kept, rfl⟩ := List.mem_map.mp hp
  obtain ⟨d, hd, same⟩ := exists_of_mem_capitalize hc
  obtain ⟨inside, uncut⟩ := Text.mem_of_mem_fields (List.mem_filter.mp kept).1 hd
  exact ⟨d, inside, uncut, same⟩

theorem ne_nil_of_mem_capitalizedParts {isCut : Char → Bool} {cs part : List Char}
    (hp : part ∈ capitalizedParts isCut cs) : part ≠ [] := by
  obtain ⟨field, kept, rfl⟩ := List.mem_map.mp hp
  have ne : field ≠ [] := by simpa using (List.mem_filter.mp kept).2
  exact capitalize_ne_nil ne

theorem isAlphanum_toUpper {c : Char} (h : c.isAlphanum = true) : c.toUpper.isAlphanum = true := by
  have ascii := Source.forall_isWordChar
    (P := fun c => c.isAlphanum = true → c.toUpper.isAlphanum = true) (by decide +kernel) c
  have word : Source.isWordChar c = true := by simp [Source.isWordChar, h]
  exact ascii word h

/-- Every file gives a name of letters and digits. -/
theorem isTitle_contractNameOfFile (file : String) : IsTitle (contractNameOfFile file) := by
  unfold contractNameOfFile
  generalize hp : capitalizedParts (fun c => !c.isAlphanum) (fileStem file.toList) = parts
  have solid : ∀ part ∈ parts, part ≠ [] := fun part h =>
    ne_nil_of_mem_capitalizedParts (hp ▸ h)
  have letters : ∀ part ∈ parts, ∀ c ∈ part, c.isAlphanum = true := by
    intro part mem c hc
    obtain ⟨d, -, uncut, same⟩ := exists_of_mem_capitalizedParts (hp ▸ mem) hc
    have letter : d.isAlphanum = true := by simpa using uncut
    rcases same with rfl | rfl
    · exact letter
    · exact isAlphanum_toUpper letter
  cases parts with
  | nil => exact ⟨by simp, List.all_eq_true.mp (by decide)⟩
  | cons part parts =>
    have some : part ≠ [] := solid part List.mem_cons_self
    constructor
    · simp [some]
    · intro c hc
      obtain ⟨part, mem, hc⟩ : ∃ p ∈ part :: parts, c ∈ p := by simpa using hc
      exact letters part mem c hc

theorem isLower_toUpper {c : Char} (h : c.isAlphanum = true) : c.toUpper.isLower = false := by
  have ascii := Source.forall_isWordChar
    (P := fun c => c.isAlphanum = true → c.toUpper.isLower = false) (by decide +kernel) c
  have word : Source.isWordChar c = true := by simp [Source.isWordChar, h]
  exact ascii word h

theorem toUpper_of_not_isLower {c : Char} (h : c.isLower = false) : c.toUpper = c := by
  have outside : ¬(97 ≤ c.toNat ∧ c.toNat ≤ 122) := by
    rw [← Source.isLower_iff, h]
    exact Bool.false_ne_true
  exact dif_neg outside

/-- A capital at the start is kept, so a second one changes nothing. -/
theorem capitalize_eq_self {cs : List Char} (h : ∀ c ∈ cs.head?, c.isLower = false) :
    capitalize cs = cs := by
  cases cs with
  | nil => rfl
  | cons c cs => rw [capitalize, toUpper_of_not_isLower (h c rfl)]

/-- The name of a contract does not start with a small letter. -/
theorem start_contractNameOfFile (file : String) :
    ∀ c ∈ (contractNameOfFile file).toList.head?, c.isLower = false := by
  unfold contractNameOfFile
  cases hp : capitalizedParts (fun c => !c.isAlphanum) (fileStem file.toList) with
  | nil =>
    rintro c ⟨⟩
    rfl
  | cons part parts =>
    have mem : part ∈ capitalizedParts (fun c => !c.isAlphanum) (fileStem file.toList) := by
      rw [hp]
      exact List.mem_cons_self
    obtain ⟨field, kept, rfl⟩ := List.mem_map.mp mem
    obtain ⟨cut, some⟩ := List.mem_filter.mp kept
    obtain ⟨d, ds, rfl⟩ := List.exists_cons_of_ne_nil (by simpa using some : field ≠ [])
    have letter : d.isAlphanum = true := by
      simpa using (Text.mem_of_mem_fields cut List.mem_cons_self).2
    intro c hc
    have first : d.toUpper = c := by simpa [capitalize] using hc
    rw [← first]
    exact isLower_toUpper letter

theorem getLastD_fields {isCut : Char → Bool} {front last : List Char}
    (hf : ∀ c ∈ front.getLast?, isCut c = true) (hl : ∀ c ∈ last, isCut c = false) :
    (Text.fields isCut (front ++ last)).getLastD [] = last := by
  rcases List.eq_nil_or_concat front with rfl | ⟨front, c, rfl⟩
  · rw [List.nil_append, Text.fields_of_uncut hl]
    rfl
  · have cut : isCut c = true := hf c (by simp)
    rw [List.concat_append, Text.fields_append_last cut hl]
    simp

section Stem

variable {directory stem : List Char} (hd : ∀ c ∈ directory.getLast?, isSeparator c = true)
  (hs : ∀ c ∈ stem, c ≠ '.' ∧ isSeparator c = false)

include hs

theorem fileStem_of_plain : fileStem stem = stem := by
  have component : (Text.fields isSeparator stem).getLastD [] = stem := by
    rw [Text.fields_of_uncut fun c hc => (hs c hc).2]
    rfl
  have whole : stem.takeWhile (· != '.') = stem :=
    List.takeWhile_eq_self_iff.mpr (Text.forall_ne_of_not_mem fun dot => (hs '.' dot).1 rfl)
  exact (congrArg (List.takeWhile (· != '.')) component).trans whole

include hd

/-- The directory and the extensions of a file are no part of its stem. -/
theorem fileStem_append {extension : List Char} (he : ∀ c ∈ extension, isSeparator c = false) :
    fileStem (directory ++ (stem ++ '.' :: extension)) = stem := by
  have uncut : ∀ c ∈ stem ++ '.' :: extension, isSeparator c = false := by
    intro c hc
    rcases List.mem_append.mp hc with hc | hc
    · exact (hs c hc).2
    · rcases List.mem_cons.mp hc with rfl | hc
      · rfl
      · exact he c hc
  have cut : (stem ++ '.' :: extension).takeWhile (· != '.') = stem :=
    Text.takeWhile_ne_append (fun dot => (hs '.' dot).1 rfl) extension
  exact (congrArg (List.takeWhile (· != '.')) (getLastD_fields hd uncut)).trans cut

end Stem

theorem contractNameOfFile_congr {file other : String}
    (same : fileStem file.toList = fileStem other.toList) :
    contractNameOfFile file = contractNameOfFile other := by
  rw [contractNameOfFile, contractNameOfFile, same]

/-- A contract name is its own contract name. -/
theorem contractNameOfFile_eq_self {name : String} (h : IsContractName name) :
    contractNameOfFile name = name := by
  obtain ⟨⟨ne, letters⟩, start⟩ := h
  have plain : ∀ c ∈ name.toList, c ≠ '.' ∧ isSeparator c = false := by
    have other : ∀ d ∈ ['.', '/', '\\'], d.isAlphanum = false := by simp [Char.isAlphanum]
    intro c hc
    have apart : ∀ d ∈ ['.', '/', '\\'], c ≠ d := by
      rintro d hd rfl
      exact Bool.false_ne_true ((other c hd).symm.trans (letters c hc))
    simpa [isSeparator] using apart
  have uncut : ∀ c ∈ name.toList, (!c.isAlphanum) = false := by
    intro c hc
    simp [letters c hc]
  have parts : capitalizedParts (fun c => !c.isAlphanum) name.toList = [name.toList] := by
    rw [capitalizedParts, Text.fields_of_uncut uncut]
    simp [ne, capitalize_eq_self start]
  rw [contractNameOfFile, fileStem_of_plain plain, parts]
  simp

/-- The name of a contract is its own contract name, and no other text is. It depends on nothing
but the last component of the path up to its first dot. -/
theorem contract_names_canonical :
    (∀ file, IsContractName (contractNameOfFile file) ∧
      contractNameOfFile (contractNameOfFile file) = contractNameOfFile file) ∧
    (∀ name, contractNameOfFile name = name ↔ IsContractName name) ∧
    ∀ directory stem extension : String,
      (∀ c ∈ directory.toList.getLast?, c = '/' ∨ c = '\\') →
      (∀ c ∈ stem.toList, c ≠ '.' ∧ c ≠ '/' ∧ c ≠ '\\') →
      (∀ c ∈ extension.toList, c ≠ '/' ∧ c ≠ '\\') →
      contractNameOfFile (directory ++ stem ++ "." ++ extension) = contractNameOfFile stem := by
  have named (file : String) : IsContractName (contractNameOfFile file) :=
    ⟨isTitle_contractNameOfFile file, start_contractNameOfFile file⟩
  refine ⟨fun file => ⟨named file, contractNameOfFile_eq_self (named file)⟩, ?_, ?_⟩
  · intro name
    exact ⟨fun same => same ▸ named name, contractNameOfFile_eq_self⟩
  · intro directory stem extension hd hs he
    have plain : ∀ c ∈ stem.toList, c ≠ '.' ∧ isSeparator c = false := by
      intro c hc
      simpa [isSeparator] using hs c hc
    have path : (directory ++ stem ++ "." ++ extension).toList =
        directory.toList ++ (stem.toList ++ '.' :: extension.toList) := by
      simp
    apply contractNameOfFile_congr
    rw [fileStem_of_plain plain, path]
    apply fileStem_append _ plain
    · intro c hc
      simpa [isSeparator] using he c hc
    · intro c hc
      simpa [isSeparator] using hd c hc

theorem voting_booth_named :
    (∀ c ∈ "..\\contracts/v1.2/".toList.getLast?, c = '/' ∨ c = '\\') ∧
      (∀ c ∈ "voting-booth_2é".toList, c ≠ '.' ∧ c ≠ '/' ∧ c ≠ '\\') ∧
      (∀ c ∈ "old.compact".toList, c ≠ '/' ∧ c ≠ '\\') ∧
      contractNameOfFile "..\\contracts/v1.2/voting-booth_2é.old.compact" = "VotingBooth2" ∧
      contractNameOfFile "VotingBooth2" = "VotingBooth2" := by
  have directory : ∀ c ∈ "..\\contracts/v1.2/".toList.getLast?, c = '/' ∨ c = '\\' := by
    rintro c ⟨⟩
    exact .inl rfl
  have stem : ∀ c ∈ "voting-booth_2é".toList, c ≠ '.' ∧ c ≠ '/' ∧ c ≠ '\\' := by simp
  have extension : ∀ c ∈ "old.compact".toList, c ≠ '/' ∧ c ≠ '\\' := by simp
  have short : contractNameOfFile "voting-booth_2é" = "VotingBooth2" := by decide +kernel
  obtain ⟨canonical, -, alike⟩ := contract_names_canonical
  have named := (canonical "voting-booth_2é").2
  rw [short] at named
  exact ⟨directory, stem, extension, (alike _ _ _ directory stem extension).trans short, named⟩

end ContractSurface
