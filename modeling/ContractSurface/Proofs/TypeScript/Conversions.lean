import ContractSurface.Proofs.Call.Hexadecimal
import ContractSurface.Proofs.TypeScript.Questions
import ContractSurface.Proofs.TypeScript.Script

/-! # The helpers of the generated command line convert what a session converts

The helper functions are taken as programs. Their texts are the lines that the generated module has,
and what they give for an answer is compared with the conversion of a session.
-/
namespace ContractSurface.TypeScript

open Script

def truthy : WordList := ⟨"TRUTHY", ["true", "yes", "y", "1"]⟩

def falsy : WordList := ⟨"FALSY", ["false", "no", "n", "0"]⟩

def outsideBounds : Expression :=
  .either (.binary .less (.name "value") (.name "min"))
    (.operation .group (.both (.binary .differs (.name "max") .undefined)
      (.binary .greater (.name "value") (.name "max"))))

def parseInteger : Function where
  name := "parseInteger"
  parameters := [("name", ": string"), ("text", ": string"), ("min", ": bigint"), ("max", "?: bigint")]
  result := "bigint"
  body :=
    .const "trimmed" (.operation .trim (.name "text")) <|
    .guarded (.operation .not (.operation (.test (.oneOrMore .digit)) (.name "trimmed")))
      (.throws [.shown (.name "name"), .text " expects an integer, got \"", .shown (.name "text"),
        .text "\""]) <|
    .const "value" (.operation .bigint (.name "trimmed")) <|
    .guarded outsideBounds
      (.throws [.shown (.name "name"), .text " must be within ", .shown (.name "min"), .text "..=",
        .shown (.orElse (.name "max") .emptyText), .text ", got ", .shown (.name "value")]) <|
    .returns (.name "value")

def parseBoolean : Function where
  name := "parseBoolean"
  parameters := [("name", ": string"), ("text", ": string")]
  result := "boolean"
  body :=
    .const "token" (.operation .lowerCase (.operation .trim (.name "text"))) <|
    .returnsIf (.operation (.isIn truthy) (.name "token")) (.truth true) <|
    .returnsIf (.operation (.isIn falsy) (.name "token")) (.truth false) <|
    .throws [.shown (.name "name"), .text " expects yes/no, got \"", .shown (.name "text"),
      .text "\""]

def byteOfHex : Expression :=
  let start := Expression.binary .times (.name "i") (.numeral 2)
  .operation .parseHex (.slice (.name "hex") start (.binary .plus start (.numeral 2)))

def hexPairs : Pattern := .followed (.text "0x") (.repeated (.twice .hexDigit))

def parseBytes : Function where
  name := "parseBytes"
  parameters := [("text", ": string")]
  result := "Uint8Array"
  body :=
    .const "trimmed" (.operation .trim (.name "text")) <|
    .guarded (.operation (.test hexPairs) (.name "trimmed"))
      (.const "hex" (.binary .sliceFrom (.name "trimmed") (.numeral 2)) <|
       .const "out" (.operation .newBytes
        (.binary .divided (.operation .length (.name "hex")) (.numeral 2))) <|
       .fills "out" byteOfHex <|
       .returns (.name "out")) <|
    .returns (.operation .encode (.name "text"))

/-- The texts of the helpers are the lines of the generated module. -/
theorem lines_helpers : [truthy.line, falsy.line] = truthWordLines ∧
    parseInteger.lines = parseIntegerLines ∧ parseBoolean.lines = parseBooleanLines ∧
    parseBytes.lines = parseBytesLines := by
  decide +kernel

def IsAscii (answer : String) : Prop := ∀ c ∈ answer.toList, c.toNat < 128

theorem all_isAscii {cs : List Char} : cs.all isAscii = true ↔ ∀ c ∈ cs, c.toNat < 128 := by
  simp [isAscii]

instance (answer : String) : Decidable (IsAscii answer) := decidable_of_iff _ all_isAscii

theorem isSpace_eq_isBlank {c : Char} (h : c.toNat < 128) : isSpace c = Text.isBlank c := by
  have nextLine : (c != '\x85') = true := by
    rw [bne_iff_ne]
    rintro rfl
    exact absurd h (by decide)
  have mark : (c == '\uFEFF') = false := by
    rw [beq_eq_false_iff_ne]
    rintro rfl
    exact absurd h (by decide)
  rw [isSpace, nextLine, mark, Bool.and_true, Bool.or_false]

theorem dropWhile_eq_of_forall {p q : Char → Bool} {cs : List Char} (h : ∀ c ∈ cs, p c = q c) :
    cs.dropWhile p = cs.dropWhile q := by
  induction cs with
  | nil => rfl
  | cons c cs ih =>
    rw [List.dropWhile_cons, List.dropWhile_cons, h c (by simp),
      ih fun d hd => h d (List.mem_cons_of_mem c hd)]

/-- On ASCII text both trim the same. -/
theorem trim_eq {cs : List Char} (ascii : ∀ c ∈ cs, c.toNat < 128) : trim cs = Text.trim cs := by
  have start : cs.dropWhile isSpace = Text.trimStart cs :=
    dropWhile_eq_of_forall fun c hc => isSpace_eq_isBlank (ascii c hc)
  have rest : ∀ c ∈ (Text.trimStart cs).reverse, c.toNat < 128 := fun c hc =>
    ascii c ((List.dropWhile_sublist _).subset (List.mem_reverse.mp hc))
  have stop : (Text.trimStart cs).reverse.dropWhile isSpace =
      (Text.trimStart cs).reverse.dropWhile Text.isBlank :=
    dropWhile_eq_of_forall fun c hc => isSpace_eq_isBlank (rest c hc)
  rw [trim, start, stop, Text.trim, Text.trimEnd]

theorem ascii_trim {cs : List Char} (ascii : ∀ c ∈ cs, c.toNat < 128) :
    ∀ c ∈ Text.trim cs, c.toNat < 128 := by
  intro c hc
  have inEnd := (List.dropWhile_sublist _).subset (List.mem_reverse.mp hc)
  exact ascii c ((List.dropWhile_sublist _).subset (List.mem_reverse.mp inEnd))

theorem mem_digits {c : Char} : c ∈ CharClass.digit.members ↔ c.isDigit = true := by
  have all : ∀ n < 10, Char.ofNat (48 + n) ∈ CharClass.digit.members := by decide
  have members : CharClass.digit.members.all Char.isDigit = true := by decide
  refine ⟨List.all_eq_true.mp members c, fun digit => ?_⟩
  have range := Source.isDigit_iff.mp digit
  have mem := all (c.toNat - 48) (by omega)
  rwa [Nat.add_sub_cancel' range.1, Char.ofNat_toNat] at mem

theorem rmatch_digits (cs : List Char) :
    (Pattern.oneOrMore .digit).expression.rmatch cs = Text.isDigits cs := by
  rw [Bool.eq_iff_iff, rmatch_oneOrMore, Text.isDigits, Bool.and_eq_true, List.all_eq_true]
  simp [mem_digits]

def upperBound (max : Option Nat) : Value := (max.map Value.bigint).getD .undefined

section

variable {scope : Scope}

theorem eval_outsideBounds (range : IntegerRange) (value : Nat)
    (hv : (Expression.name "value").eval scope = some (.bigint value))
    (hmin : (Expression.name "min").eval scope = some (.bigint range.min))
    (hmax : (Expression.name "max").eval scope = some (upperBound range.max)) :
    outsideBounds.eval scope = some (.boolean (!range.contains value)) := by
  have low : (Expression.binary .less (.name "value") (.name "min")).eval scope =
      some (.boolean (value < range.min)) := by
    rw [eval_binary .less hv hmin, apply_less]
  have bounded : (Expression.binary .differs (.name "max") .undefined).eval scope =
      some (.boolean range.max.isSome) := by
    rw [eval_binary .differs hmax eval_undefined, apply_differs]
    cases range.max <;> simp [upperBound]
  have high : (Expression.operation .group (.both (.binary .differs (.name "max") .undefined)
      (.binary .greater (.name "value") (.name "max")))).eval scope =
      some (.boolean (range.max.any (· < value))) := by
    cases hm : range.max with
    | none =>
      rw [hm] at bounded
      rw [eval_operation .group (eval_both_false bounded), apply_group]
      rfl
    | some max =>
      rw [hm] at bounded hmax
      have above := eval_binary .greater hv hmax
      rw [upperBound, Option.map_some, Option.getD_some, apply_greater] at above
      rw [eval_operation .group (eval_both_true bounded above), apply_group]
      rfl
  rw [outsideBounds, eval_either low high]
  congr 2
  rw [Bool.eq_iff_iff, Bool.not_eq_true', Bool.eq_false_iff, ne_eq, IntegerRange.contains_iff]
  cases range.max with
  | none => simp
  | some max => simp; omega

theorem eval_shownBound (max : Option Nat)
    (hmax : (Expression.name "max").eval scope = some (upperBound max)) :
    (Piece.shown (.orElse (.name "max") .emptyText)).eval scope =
      some ((max.map toString).getD "") := by
  cases max with
  | none => exact eval_shown_text (eval_orElse_undefined hmax)
  | some n => exact eval_shown_bigint (eval_orElse_of_ne hmax (by simp))

end

/-- The helper for integers takes digits whose number is within the bounds. -/
theorem call_parseInteger (name answer : String) (range : IntegerRange) :
    let digits := trim answer.toList
    let value := Text.decimalValue digits
    parseInteger.call [.text name.toList, .text answer.toList, .bigint range.min,
        upperBound range.max] =
      some (if Text.isDigits digits then
        if range.contains value then .ok (.bigint value)
        else .error (String.join [name, " must be within ", toString range.min, "..=",
          (range.max.map toString).getD "", ", got ", toString value])
      else .error (String.join [name, " expects an integer, got \"", answer, "\""])) := by
  intro digits value
  have start : parseInteger.call [.text name.toList, .text answer.toList, .bigint range.min,
      upperBound range.max] = parseInteger.body.run [("name", .text name.toList),
      ("text", .text answer.toList), ("min", .bigint range.min), ("max", upperBound range.max)] := rfl
  rw [start, parseInteger]
  dsimp only
  rw [run_const (v := .text digits) (by simp [List.lookup_cons, digits]),
    run_guarded (b := !Text.isDigits digits) (by simp [rmatch_digits])]
  cases numeral : Text.isDigits digits with
  | false =>
    exact run_throws (by simp [List.lookup_cons])
  | true =>
    rw [run_const (v := .bigint value) (by simp [numeral, value]),
      run_guarded (eval_outsideBounds range value (by simp) (by simp [List.lookup_cons])
        (by simp [List.lookup_cons]))]
    cases inside : range.contains value with
    | false => exact run_throws (by simp [List.lookup_cons, eval_shownBound range.max])
    | true =>
      rw [Bool.not_true, if_neg Bool.false_ne_true, if_neg Bool.false_ne_true, run_returns rfl]
      rfl

/-- The helper for truth values takes the words of the two lists, in any case. -/
theorem call_parseBoolean {name answer : String} (ascii : IsAscii answer) :
    let word := String.ofList ((trim answer.toList).map Char.toLower)
    parseBoolean.call [.text name.toList, .text answer.toList] =
      some (if truthy.words.contains word then .ok (.boolean true)
      else if falsy.words.contains word then .ok (.boolean false)
      else .error (String.join [name, " expects yes/no, got \"", answer, "\""])) := by
  intro word
  have trimmed : (trim answer.toList).all isAscii = true := by
    rw [trim_eq ascii, all_isAscii]
    exact ascii_trim ascii
  have start : parseBoolean.call [.text name.toList, .text answer.toList] =
      parseBoolean.body.run [("name", .text name.toList), ("text", .text answer.toList)] := rfl
  rw [start, parseBoolean]
  dsimp only
  rw [run_const (v := .text word.toList) (by simp [List.lookup_cons, word, trimmed]),
    run_returnsIf (b := truthy.words.contains word) (v := .boolean true) (by simp) rfl,
    run_returnsIf (b := falsy.words.contains word) (v := .boolean false) (by simp) rfl]
  split
  · rfl
  · split
    · rfl
    · exact run_throws (by simp [List.lookup_cons])

theorem rmatch_hexPairs {cs : List Char} : hexPairs.expression.rmatch cs = true ↔
    ∃ digits, cs = '0' :: 'x' :: digits ∧ Text.IsHexPairs digits := by
  rw [RegularExpression.rmatch_iff_matches', hexPairs, Pattern.expression,
    RegularExpression.matches'_mul, Language.mem_mul]
  simp only [mem_matches_text, mem_matches_pairs]
  constructor
  · rintro ⟨_, rfl, digits, pairs, rfl⟩
    exact ⟨digits, rfl, pairs⟩
  · rintro ⟨digits, rfl, pairs⟩
    exact ⟨_, rfl, digits, pairs, rfl⟩

theorem hexValue?_pair {h l : Char} {high low : Nat} (first : Text.nibble? h.toNat = some high)
    (second : Text.nibble? l.toNat = some low) : hexValue? [h, l] = some (16 * high + low) := by
  simp [hexValue?, first, second]

/-- The digits `2 * i` and `2 * i + 1` are those of the byte `i`. -/
theorem hexValue?_slice {digits : List Char} {bytes : List UInt8}
    (spells : Text.SpellsHex digits bytes) {i : Nat} {b : UInt8} (hi : bytes[i]? = some b) :
    hexValue? ((digits.take (i * 2 + 2)).drop (i * 2)) = some b.toNat := by
  induction spells generalizing i with
  | nil => simp at hi
  | pair first second rest ih =>
    cases i with
    | zero =>
      obtain rfl := Option.some.inj hi
      have high := Text.nibble?_lt first
      have low := Text.nibble?_lt second
      rw [show 0 * 2 + 2 = 2 from rfl]
      simp only [Nat.zero_mul, List.take_succ_cons, List.take_zero, List.drop_zero,
        hexValue?_pair first second, UInt8.toNat_ofNat']
      congr 1
      omega
    | succ i =>
      rw [show (i + 1) * 2 = i * 2 + 2 by omega]
      exact ih hi

/-- One turn of the loop sets the byte that its two digits spell. -/
theorem fillStep_byteOfHex {scope : Scope} {digits : List Char} {bytes : List UInt8}
    (hex : scope.lookup "hex" = some (.text digits)) (ascii : digits.all isAscii = true)
    (spells : Text.SpellsHex digits bytes) {bs : List UInt8} {i : Nat} {b : UInt8}
    (hi : bytes[i]? = some b) : fillStep scope "out" byteOfHex bs i = some (bs.set i b) := by
  have start : (Expression.binary .times (.name "i") (.numeral 2)).eval
      (("i", .number i) :: ("out", .bytes bs) :: scope) = some (.number (i * 2)) := by simp
  have stop := eval_binary .plus start (eval_numeral 2)
  rw [apply_plus] at stop
  have text : (Expression.name "hex").eval (("i", .number i) :: ("out", .bytes bs) :: scope) =
      some (.text digits) := by simp [List.lookup_cons, hex]
  have pair := eval_slice text start stop ascii
  rw [fillStep, byteOfHex, eval_operation .parseHex pair, apply_parseHex, hexValue?_slice spells hi,
    Option.map_some]
  dsimp only
  rw [UInt8.ofNat_toNat]

theorem call_parseBytes_of_pairs {answer : String} {digits : List Char} {bytes : List UInt8}
    (ascii : IsAscii answer) (ht : trim answer.toList = '0' :: 'x' :: digits)
    (spells : Text.SpellsHex digits bytes) :
    parseBytes.call [.text answer.toList] = some (.ok (.bytes bytes)) := by
  have matched : hexPairs.expression.rmatch ('0' :: 'x' :: digits) = true :=
    rmatch_hexPairs.mpr ⟨digits, rfl, Text.exists_spellsHex_iff.mp ⟨bytes, spells⟩⟩
  have trimmed : ('0' :: 'x' :: digits).all isAscii = true := by
    rw [← ht, trim_eq ascii, all_isAscii]
    exact ascii_trim ascii
  have hex : digits.all isAscii = true := by
    simp only [List.all_cons, Bool.and_eq_true] at trimmed
    exact trimmed.2.2
  have half : digits.length / 2 = bytes.length := by
    have := spells.length_eq
    omega
  have exact : 2 ∣ digits.length := ⟨bytes.length, spells.length_eq⟩
  have count : ∀ scope : Scope, scope.lookup "hex" = some (.text digits) →
      (Expression.binary .divided (.operation .length (.name "hex")) (.numeral 2)).eval scope =
        some (.number bytes.length) := by
    intro scope found
    have text : (Expression.name "hex").eval scope = some (.text digits) := found
    have length := eval_operation .length text
    rw [apply_length digits hex] at length
    rw [eval_binary .divided length (eval_numeral 2), apply_divided ⟨exact, by decide⟩, half]
  have filled : ∀ scope : Scope, scope.lookup "hex" = some (.text digits) →
      (List.range (List.replicate bytes.length (0 : UInt8)).length).foldlM
        (fillStep scope "out" byteOfHex) (List.replicate bytes.length 0) = some bytes := by
    intro scope found
    rw [List.length_replicate]
    exact foldlM_range fun bs i b hi => fillStep_byteOfHex found hex spells hi
  have start : parseBytes.call [.text answer.toList] =
      parseBytes.body.run [("text", .text answer.toList)] := rfl
  rw [start, parseBytes]
  dsimp only
  rw [run_const (v := .text ('0' :: 'x' :: digits)) (by simp [ht]),
    run_guarded (b := true) (by simp [matched]), if_pos rfl,
    run_const (v := .text digits) (by simp [apply_sliceFrom trimmed]),
    run_const ((eval_operation .newBytes (count _ (by simp))).trans (apply_newBytes _)),
    run_fills rfl (filled _ (by simp [List.lookup_cons]))]
  exact run_returns rfl

/-- Any other text gives its own bytes. -/
theorem call_parseBytes_of_not_pairs {answer : String}
    (other : ¬∃ digits, trim answer.toList = '0' :: 'x' :: digits ∧ Text.IsHexPairs digits) :
    parseBytes.call [.text answer.toList] = some (.ok (.bytes (Text.utf8 answer))) := by
  have unmatched : hexPairs.expression.rmatch (trim answer.toList) = false := by
    rw [Bool.eq_false_iff, ne_eq, rmatch_hexPairs]
    exact other
  have start : parseBytes.call [.text answer.toList] =
      parseBytes.body.run [("text", .text answer.toList)] := rfl
  rw [start, parseBytes]
  dsimp only
  rw [run_const (v := .text (trim answer.toList)) (by simp),
    run_guarded (b := false) (by simp [unmatched])]
  exact run_returns (by simp [List.lookup_cons])

def valueOf : Argument → Value
  | .integer n => .bigint n
  | .boolean b => .boolean b
  | .bytes bs => .bytes bs
  | .text s => .text s.toList

/-- A call throws where a conversion fails, and else returns the converted value. -/
def Alike : Option Outcome → Except ParameterError Argument → Prop
  | some (.error _), .error _ => True
  | some (.ok v), .ok a => v = valueOf a
  | _, _ => False

/-- Text that a session takes for hexadecimal, to be read or refused, and the helper does not. -/
def TakenForText (answer : String) : Prop :=
  ∃ digits, Text.trim answer.toList = '0' :: 'X' :: digits ∨
    Text.trim answer.toList = '0' :: 'x' :: digits ∧ ¬Text.IsHexPairs digits

section

variable {name answer : String}

theorem alike_integer (ascii : IsAscii answer) (range : IntegerRange) :
    Alike (parseInteger.call [.text name.toList, .text answer.toList, .bigint range.min,
      upperBound range.max]) (convertInteger name range answer) := by
  rw [call_parseInteger, trim_eq ascii, convertInteger]
  dsimp only
  split
  · split
    · rfl
    · trivial
  · trivial

theorem truthValue?_eq (word : List Char) : truthValue? word =
    if truthy.words.contains (String.ofList (word.map Char.toLower)) then some true
    else if falsy.words.contains (String.ofList (word.map Char.toLower)) then some false
    else none := rfl

/-- Truth values are taken alike. -/
theorem alike_boolean (ascii : IsAscii answer) :
    Alike (parseBoolean.call [.text name.toList, .text answer.toList])
      (convertBoolean name answer) := by
  rw [call_parseBoolean ascii, trim_eq ascii, convertBoolean, truthValue?_eq]
  generalize truthy.words.contains _ = yes
  generalize falsy.words.contains _ = no
  cases yes with
  | true => rfl
  | false =>
    cases no with
    | true => rfl
    | false => trivial

theorem afterHexMark?_eq_some {cs digits : List Char} :
    afterHexMark? cs = some digits ↔ cs = '0' :: 'x' :: digits ∨ cs = '0' :: 'X' :: digits := by
  constructor
  · intro h
    unfold afterHexMark? at h
    split at h
    · exact .inl (by rw [Option.some.inj h])
    · exact .inr (by rw [Option.some.inj h])
    · cases h
  · rintro (rfl | rfl) <;> rfl

theorem convertBytes_of_mark {digits : List Char}
    (ht : afterHexMark? (Text.trim answer.toList) = some digits) :
    convertBytes name answer = match Text.readHex (digits.flatMap String.utf8EncodeChar) with
      | .ok bytes => .ok (.bytes bytes)
      | .error reason => .error (.invalidHex name reason) := by
  unfold convertBytes
  split
  · next other found =>
    rw [ht] at found
    cases found
    rfl
  · next missing =>
    rw [ht] at missing
    cases missing

theorem length_trim_le (cs : List Char) : (Text.trim cs).length ≤ cs.length := by
  calc (Text.trim cs).length = ((Text.trimStart cs).reverse.dropWhile Text.isBlank).length := by
        rw [Text.trim, Text.trimEnd, List.length_reverse]
    _ ≤ (Text.trimStart cs).reverse.length := (List.dropWhile_sublist _).length_le
    _ = (Text.trimStart cs).length := List.length_reverse
    _ ≤ cs.length := (List.dropWhile_sublist _).length_le

/-- Hexadecimal text has more characters than it spells bytes. -/
theorem utf8_ne_of_spells {digits : List Char} {bytes : List UInt8} (ascii : IsAscii answer)
    (ht : afterHexMark? (Text.trim answer.toList) = some digits)
    (spells : Text.SpellsHex digits bytes) : Text.utf8 answer ≠ bytes := by
  have characters : (Text.utf8 answer).length = answer.toList.length := by
    rw [Text.utf8, Text.flatMap_utf8EncodeChar ascii, List.length_map]
  have marked : (Text.trim answer.toList).length = digits.length + 2 := by
    rcases afterHexMark?_eq_some.mp ht with h | h <;> rw [h] <;> rfl
  have shorter := length_trim_le answer.toList
  intro same
  rw [same] at characters
  have := spells.length_eq
  omega

/-- Bytes are taken alike unless the session takes them for hexadecimal and the helper does not. -/
theorem alike_bytes_iff (ascii : IsAscii answer) :
    Alike (parseBytes.call [.text answer.toList]) (convertBytes name answer) ↔
      ¬TakenForText answer := by
  by_cases pairs : ∃ digits, trim answer.toList = '0' :: 'x' :: digits ∧ Text.IsHexPairs digits
  · obtain ⟨digits, ht, hex⟩ := pairs
    obtain ⟨bytes, spells⟩ := Text.exists_spellsHex_iff.mpr hex
    rw [call_parseBytes_of_pairs ascii ht spells]
    rw [trim_eq ascii] at ht
    have mark := afterHexMark?_eq_some.mpr (.inl ht)
    have low : ∀ c ∈ digits, c.toNat < 128 := fun c hc =>
      ascii_trim ascii c (by rw [ht]; simp [hc])
    rw [convertBytes_of_mark mark, (Text.readHex_ok_iff low).mpr spells]
    refine iff_of_true rfl ?_
    rintro ⟨others, upper | ⟨lower, odd⟩⟩
    · rw [ht] at upper
      cases upper
    · rw [ht] at lower
      cases lower
      exact odd hex
  · rw [call_parseBytes_of_not_pairs pairs]
    rw [trim_eq ascii] at pairs
    cases mark : afterHexMark? (Text.trim answer.toList) with
    | none =>
      have plain : convertBytes name answer = .ok (.bytes (Text.utf8 answer)) := by
        rw [convertBytes, mark]
      rw [plain]
      refine iff_of_true rfl ?_
      rintro ⟨digits, upper | ⟨lower, _⟩⟩
      · rw [afterHexMark?_eq_some.mpr (.inr upper)] at mark
        cases mark
      · rw [afterHexMark?_eq_some.mpr (.inl lower)] at mark
        cases mark
    | some digits =>
      have taken : TakenForText answer := by
        rcases afterHexMark?_eq_some.mp mark with lower | upper
        · exact ⟨digits, .inr ⟨lower, fun hex => pairs ⟨digits, lower, hex⟩⟩⟩
        · exact ⟨digits, .inl upper⟩
      have low : ∀ c ∈ digits, c.toNat < 128 := by
        intro c hc
        rcases afterHexMark?_eq_some.mp mark with h | h <;>
          exact ascii_trim ascii c (by rw [h]; simp [hc])
      refine iff_of_false ?_ (not_not_intro taken)
      rw [convertBytes_of_mark mark]
      cases read : Text.readHex (digits.flatMap String.utf8EncodeChar) with
      | error reason => exact id
      | ok bytes =>
        intro same
        have spells := (Text.readHex_ok_iff low).mp read
        exact utf8_ne_of_spells ascii mark spells (Value.bytes.inj same)

end

inductive Literal where
  | quoted (s : String)
  | bigint (n : Nat)
  | undefined

def Literal.text : Literal → String
  | quoted s => Text.quoted s
  | bigint n => s!"{n}n"
  | undefined => "undefined"

def Literal.value : Literal → Value
  | quoted s => .text s.toList
  | bigint n => .bigint n
  | undefined => .undefined

/-- What is done with an answer: nothing, or a call that has it between other arguments. -/
inductive Reader where
  | plain
  | helper (f : Function) (before after : List Literal)

def Reader.text (ask : String) : Reader → String
  | plain => ask
  | helper f before after =>
    let arguments := before.map Literal.text ++ [ask] ++ after.map Literal.text
    f.name ++ "(" ++ ", ".intercalate arguments ++ ")"

def Reader.take (answer : String) : Reader → Option Outcome
  | plain => some (.ok (.text answer.toList))
  | helper f before after =>
    f.call (before.map Literal.value ++ [.text answer.toList] ++ after.map Literal.value)

def Reader.ofKind (name : String) : ParameterKind → Reader
  | .integer range =>
    .helper parseInteger [.quoted name] [.bigint range.min, (range.max.map .bigint).getD .undefined]
  | .boolean => .helper parseBoolean [.quoted name] []
  | .bytes => .helper parseBytes [] []
  | .text => .plain

def Reader.ofParameter (p : Parameter) : Reader := .ofKind p.name (parameterKind p.declaredType)

def helperProgram : List String :=
  [truthy.line, falsy.line] ++ [""] ++ (parseInteger.lines ++ [""] ++
    (parseBoolean.lines ++ [""] ++ (parseBytes.lines ++ [""])))

theorem helperProgram_infix : helperProgram <:+: helperLines := by
  unfold helperProgram helperLines
  obtain ⟨words, integer, boolean, bytes⟩ := lines_helpers
  rw [words, integer, boolean, bytes]
  simp only [List.flatMap_cons, ← List.append_assoc]
  exact (List.prefix_append _ _).isInfix

/-- A call with an answer is written as the generated module has it. -/
theorem text_ofKind (name ask : String) (kind : ParameterKind) :
    (Reader.ofKind name kind).text ask = readerText name ask kind := by
  have shown : ∀ s : String, toString s = s := fun _ => rfl
  have separate : "parseInteger(" = "parseInteger" ++ "(" ∧
      "parseBoolean(" = "parseBoolean" ++ "(" ∧ "parseBytes(" = "parseBytes" ++ "(" ∧
      "n, " = "n" ++ ", " := by
    decide
  unfold Reader.ofKind readerText
  rw [separate.1, separate.2.1, separate.2.2.1, separate.2.2.2]
  cases kind with
  | integer range =>
    obtain ⟨min, max⟩ := range
    cases max <;>
      simp only [Reader.text, parseInteger, List.map_cons, List.map_nil, List.cons_append,
        List.nil_append, Literal.text, String.intercalate_cons_cons, String.intercalate_singleton,
        Option.map_none, Option.map_some, Option.getD_none, Option.getD_some, shown,
        String.append_assoc]
  | boolean =>
    simp only [Reader.text, parseBoolean, List.map_cons, List.map_nil, List.cons_append,
      List.nil_append, Literal.text, String.intercalate_cons_cons, String.intercalate_singleton,
      shown, String.append_assoc]
  | bytes =>
    simp only [Reader.text, parseBytes, List.map_nil, List.nil_append, List.append_nil,
      String.intercalate_singleton, shown, String.append_assoc]
  | text => rfl

/-- The whole reader of a parameter differs from a session at no other answer. -/
theorem take_ofParameter_iff {p : Parameter} {answer : String} (ascii : IsAscii answer) :
    Alike ((Reader.ofParameter p).take answer) (convert p answer) ↔
      ¬(parameterKind p.declaredType = .bytes ∧ TakenForText answer) := by
  rw [convert_eq, Reader.ofParameter]
  cases parameterKind p.declaredType with
  | integer range =>
    have bound : ((range.max.map Literal.bigint).getD .undefined).value = upperBound range.max := by
      cases range.max <;> rfl
    refine iff_of_true ?_ (fun h => nomatch h.1)
    have alike : Alike (parseInteger.call [.text p.name.toList, .text answer.toList,
        .bigint range.min, upperBound range.max]) (convertInteger p.name range answer) :=
      alike_integer ascii range
    rw [← bound] at alike
    exact alike
  | boolean => exact iff_of_true (alike_boolean ascii) (fun h => nomatch h.1)
  | bytes => exact (alike_bytes_iff ascii).trans (by simp)
  | text => exact iff_of_true rfl (fun h => nomatch h.1)

variable {i : Interface} {k : Nat} {o : Operation}

def takingLine (p : Parameter) (ask : String) : String :=
  s!"          const {identifier p.name} = {(Reader.ofParameter p).text ask};"

theorem readerLines_eq (rules : List ChoiceRule) (o : Operation) :
    readerLines rules o = o.parameters.map fun p => takingLine p (Ask.ofParameter rules p).code := by
  have line : ∀ p, readerLine p (Ask.ofParameter rules p).code (parameterKind p.declaredType) =
      takingLine p (Ask.ofParameter rules p).code := by
    intro p
    unfold readerLine takingLine
    rw [Reader.ofParameter, text_ofKind]
  exact List.map_congr_left fun p _ => line p

theorem take_of_takenForText {p : Parameter} {answer : String} (ascii : IsAscii answer)
    (bytes : parameterKind p.declaredType = .bytes) (taken : TakenForText answer) :
    (Reader.ofParameter p).take answer = some (.ok (.bytes (Text.utf8 answer))) := by
  have called : (Reader.ofParameter p).take answer = parseBytes.call [.text answer.toList] := by
    rw [Reader.ofParameter, bytes]
    rfl
  rw [called]
  refine call_parseBytes_of_not_pairs ?_
  rw [trim_eq ascii]
  rintro ⟨digits, lower, hex⟩
  rcases taken with ⟨others, upper | ⟨odd, not⟩⟩
  · rw [lower] at upper
    cases upper
  · rw [lower] at odd
    cases odd
    exact not hex

/-- The generated module asks for a parameter as a session does, and takes every answer of ASCII
characters as the session does, except that it gives the bytes of the answer for what a session
takes for hexadecimal and the helper does not. -/
theorem cli_takes_alike_iff (options : SessionOptions) (hk : i.operations[k]? = some o) :
    ∃ (cli : String) (ask : Parameter → String),
      ⟨cliPath, cli⟩ ∈ generate i options ∧ Shows cli helperProgram ∧
      Shows cli ([caseLine (k + 1), "        try \x7b"] ++
        o.parameters.map (fun p => takingLine p (ask p)) ++ [requestLine o]) ∧
      ∀ p ∈ o.parameters, ∀ prompt, AsksFreely options.choiceRules p prompt →
        ask p = questionText prompt ∧
        ∀ answer, IsAscii answer →
          (Alike ((Reader.ofParameter p).take answer) (convert p answer) ↔
            ¬(parameterKind p.declaredType = .bytes ∧ TakenForText answer)) ∧
          (parameterKind p.declaredType = .bytes → TakenForText answer →
            (Reader.ofParameter p).take answer = some (.ok (.bytes (Text.utf8 answer)))) := by
  have mem : OperationCase.ofOperation options.choiceRules (1 + k) o ∈
      (Cli.ofInterface i options).cases := mem_operationCases.mpr ⟨k, o, hk, rfl⟩
  have inside := (lines_readers options.choiceRules (1 + k) o).trans (infix_flatMap mem)
  rw [Nat.add_comm 1 k, readerLines_eq] at inside
  have helpers : helperProgram <:+: (Cli.ofInterface i options).headLines ++ helperLines ++
      (Cli.ofInterface i options).loopLines :=
    infix_append_right _ (infix_append_left _ helperProgram_infix)
  refine ⟨(Cli.ofInterface i options).text, _, List.mem_cons_of_mem _ (List.mem_singleton_self _),
    shows_of_infix helpers, shows_of_infix (infix_case inside), fun p _ prompt free =>
      ⟨?_, fun answer ascii => ⟨take_ofParameter_iff ascii, take_of_takenForText ascii⟩⟩⟩
  have none : choicesFor options.choiceRules p = [] := by
    by_contra some
    exact (asksByNumber_of_ne_nil some).not_asksFreely free
  rw [code_ask_of_eq_nil none, (asksFreely_of_eq_nil none).prompt_eq free]

/-- Hexadecimal with blanks around it is taken alike; of `0XBEEF` the generated module makes
text. -/
theorem memo_takes_alike_or_text :
    let memo : Parameter := ⟨"memo", "Bytes<4>"⟩
    let reader := Reader.ofParameter memo
    ∃ cli : String, ⟨cliPath, cli⟩ ∈ generate poll .standard ∧ Shows cli helperProgram ∧
      Alike (reader.take " 0xBEEF ") (convert memo " 0xBEEF ") ∧
      ¬Alike (reader.take "0XBEEF") (convert memo "0XBEEF") ∧
      reader.take "0XBEEF" = some (.ok (.bytes [48, 88, 66, 69, 69, 70])) := by
  intro memo reader
  have unlisted : choicesFor SessionOptions.standard.choiceRules memo = [] := by decide +kernel
  obtain ⟨cli, ask, file, helpers, _, takes⟩ :=
    cli_takes_alike_iff (i := poll) (k := 1) .standard rfl
  have ofMemo := (takes memo (List.mem_cons_of_mem _ (List.mem_singleton_self _)) _
    (asksFreely_of_eq_nil unlisted)).2
  have kind : parameterKind memo.declaredType = .bytes := by decide +kernel
  have lower := ofMemo " 0xBEEF " (by decide +kernel)
  have upper := ofMemo "0XBEEF" (by decide +kernel)
  have marked : Text.trim "0XBEEF".toList = '0' :: 'X' :: "BEEF".toList := by decide +kernel
  have trimmed : Text.trim " 0xBEEF ".toList = '0' :: 'x' :: "BEEF".toList := by decide +kernel
  have taken : TakenForText "0XBEEF" := ⟨_, .inl marked⟩
  have read : ¬TakenForText " 0xBEEF " := by
    rintro ⟨digits, h | ⟨h, odd⟩⟩
    · rw [trimmed] at h
      cases h
    · rw [trimmed] at h
      cases h
      exact odd (by decide +kernel)
  refine ⟨cli, file, helpers, lower.1.mpr fun h => read h.2,
    fun alike => upper.1.mp alike ⟨kind, taken⟩, ?_⟩
  rw [upper.2 kind taken]
  decide +kernel

/-- An odd number of digits is an error in a session, and text in the generated module; digits after
`0X` are bytes in a session, and text in the generated module. -/
theorem hexadecimal_taken_for_text :
    let key : Parameter := ⟨"key", "Bytes<32>"⟩
    let reader := Reader.ofParameter key
    AsksFreely SessionOptions.standard.choiceRules key "key (Bytes<32>): " ∧
      reader.text (questionText "key (Bytes<32>): ") =
        "parseBytes(await rl.question(\"key (Bytes<32>): \"))" ∧
      convert key "0xabc" = .error (.invalidHex "key" .oddLength) ∧
      reader.take "0xabc" = some (.ok (.bytes [48, 120, 97, 98, 99])) ∧
      convert key "0XAB" = .ok (.bytes [171]) ∧
      reader.take "0XAB" = some (.ok (.bytes [48, 88, 65, 66])) := by
  intro key reader
  have unlisted : choicesFor SessionOptions.standard.choiceRules key = [] := by decide +kernel
  exact ⟨asksFreely_of_eq_nil unlisted, by decide +kernel, by decide +kernel, by decide +kernel,
    by decide +kernel, by decide +kernel⟩

end ContractSurface.TypeScript
