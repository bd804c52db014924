import ContractSurface.Text.Blank
import ContractSurface.Text.Hex
import ContractSurface.Text.Numeral
import ContractSurface.Text.Utf8
import Mathlib.Computability.RegularExpressions

/-! # The language of the helper functions

The helper functions that convert answers use little of the language they are written in. This
module has that part: its syntax, the text of the syntax, and what it means. An operation that is
used outside of what is said about it here has no value, and then the whole call has none.
-/
namespace ContractSurface.TypeScript.Script

def isSpace (c : Char) : Bool := (Text.isBlank c && c != '\x85') || c == '\uFEFF'

def trim (cs : List Char) : List Char := ((cs.dropWhile isSpace).reverse.dropWhile isSpace).reverse

def isAscii (c : Char) : Bool := c.toNat < 128

inductive CharClass where
  | digit
  | hexDigit

def CharClass.source : CharClass → String
  | digit => "\\d"
  | hexDigit => "[0-9a-fA-F]"

def CharClass.members : CharClass → List Char
  | digit => ['0', '1', '2', '3', '4', '5', '6', '7', '8', '9']
  | hexDigit =>
    ['0', '1', '2', '3', '4', '5', '6', '7', '8', '9', 'a', 'b', 'c', 'd', 'e', 'f',
     'A', 'B', 'C', 'D', 'E', 'F']

inductive Pattern where
  | text (s : String)
  | oneOrMore (c : CharClass)
  | twice (c : CharClass)
  | repeated (p : Pattern)
  | followed (p q : Pattern)

def Pattern.source : Pattern → String
  | text s => s
  | oneOrMore c => c.source ++ "+"
  | twice c => c.source ++ "\x7b2\x7d"
  | repeated p => "(" ++ p.source ++ ")*"
  | followed p q => p.source ++ q.source

def CharClass.expression (c : CharClass) : RegularExpression Char :=
  (c.members.map RegularExpression.char).foldr (· + ·) 0

def Pattern.expression : Pattern → RegularExpression Char
  | text s => (s.toList.map RegularExpression.char).foldr (· * ·) 1
  | oneOrMore c => c.expression * c.expression.star
  | twice c => c.expression * c.expression
  | repeated p => p.expression.star
  | followed p q => p.expression * q.expression

theorem mem_matches_chars {members cs : List Char} :
    cs ∈ ((members.map RegularExpression.char).foldr (· + ·) 0).matches' ↔
      ∃ x ∈ members, cs = [x] := by
  induction members with
  | nil => simp [RegularExpression.matches'_zero]
  | cons x members ih =>
    have first : cs ∈ (RegularExpression.char x).matches' ↔ cs = [x] := by
      rw [RegularExpression.matches'_char]
      rfl
    rw [List.map_cons, List.foldr_cons, RegularExpression.matches'_add, Language.mem_add, ih, first,
      List.exists_mem_cons_iff]

theorem mem_matches_class {c : CharClass} {cs : List Char} :
    cs ∈ c.expression.matches' ↔ ∃ x ∈ c.members, cs = [x] := mem_matches_chars

theorem mem_matches_text {s : String} {cs : List Char} :
    cs ∈ (Pattern.text s).expression.matches' ↔ cs = s.toList := by
  have product : ∀ letters cs : List Char,
      cs ∈ ((letters.map RegularExpression.char).foldr (· * ·) 1).matches' ↔ cs = letters := by
    intro letters
    induction letters with
    | nil => simp [RegularExpression.matches'_epsilon]
    | cons x letters ih =>
      intro cs
      rw [List.map_cons, List.foldr_cons, RegularExpression.matches'_mul,
        RegularExpression.matches'_char, Language.mem_mul]
      simp only [ih]
      constructor
      · rintro ⟨_, rfl, _, rfl, rfl⟩
        rfl
      · rintro rfl
        exact ⟨[x], rfl, letters, rfl, rfl⟩
  exact product s.toList cs

theorem mem_matches_star {c : CharClass} {cs : List Char} :
    cs ∈ c.expression.star.matches' ↔ ∀ x ∈ cs, x ∈ c.members := by
  rw [RegularExpression.matches'_star, Language.mem_kstar]
  constructor
  · rintro ⟨parts, rfl, single⟩ x hx
    obtain ⟨part, mem, inPart⟩ := List.mem_flatten.mp hx
    obtain ⟨y, hy, rfl⟩ := mem_matches_class.mp (single part mem)
    rwa [List.mem_singleton.mp inPart]
  · intro all
    refine ⟨cs.map ([·]), by simp [← List.flatMap_def], fun part mem => ?_⟩
    obtain ⟨x, hx, rfl⟩ := List.mem_map.mp mem
    exact mem_matches_class.mpr ⟨x, all x hx, rfl⟩

theorem rmatch_oneOrMore {c : CharClass} {cs : List Char} :
    (Pattern.oneOrMore c).expression.rmatch cs = true ↔ cs ≠ [] ∧ ∀ x ∈ cs, x ∈ c.members := by
  rw [RegularExpression.rmatch_iff_matches', Pattern.expression, RegularExpression.matches'_mul,
    Language.mem_mul]
  constructor
  · rintro ⟨_, first, rest, later, rfl⟩
    obtain ⟨x, hx, rfl⟩ := mem_matches_class.mp first
    refine ⟨by simp, ?_⟩
    simpa using ⟨hx, mem_matches_star.mp later⟩
  · rintro ⟨nonempty, all⟩
    cases cs with
    | nil => exact absurd rfl nonempty
    | cons x rest =>
      refine ⟨[x], mem_matches_class.mpr ⟨x, all x (by simp), rfl⟩, rest, ?_, rfl⟩
      exact mem_matches_star.mpr fun y hy => all y (List.mem_cons_of_mem x hy)

theorem mem_matches_twice {c : CharClass} {cs : List Char} :
    cs ∈ (Pattern.twice c).expression.matches' ↔
      ∃ x ∈ c.members, ∃ y ∈ c.members, cs = [x, y] := by
  rw [Pattern.expression, RegularExpression.matches'_mul, Language.mem_mul]
  constructor
  · rintro ⟨_, first, _, second, rfl⟩
    obtain ⟨x, hx, rfl⟩ := mem_matches_class.mp first
    obtain ⟨y, hy, rfl⟩ := mem_matches_class.mp second
    exact ⟨x, hx, y, hy, rfl⟩
  · rintro ⟨x, hx, y, hy, rfl⟩
    exact ⟨[x], mem_matches_class.mpr ⟨x, hx, rfl⟩, [y], mem_matches_class.mpr ⟨y, hy, rfl⟩, rfl⟩

/-- Pairs of a class are texts of even length over it. -/
theorem mem_matches_pairs {c : CharClass} {cs : List Char} :
    cs ∈ (Pattern.repeated (.twice c)).expression.matches' ↔
      cs.length % 2 = 0 ∧ ∀ x ∈ cs, x ∈ c.members := by
  rw [Pattern.expression, RegularExpression.matches'_star, Language.mem_kstar]
  constructor
  · rintro ⟨parts, rfl, pairs⟩
    induction parts with
    | nil => simp
    | cons part parts ih =>
      obtain ⟨x, hx, y, hy, rfl⟩ := mem_matches_twice.mp (pairs part (by simp))
      obtain ⟨even, all⟩ := ih fun p hp => pairs p (List.mem_cons_of_mem _ hp)
      rw [List.flatten_cons, List.cons_append, List.cons_append, List.nil_append]
      refine ⟨by simp only [List.length_cons]; omega, ?_⟩
      simpa using ⟨hx, hy, by simpa using all⟩
  · rintro ⟨even, all⟩
    induction cs using List.twoStepInduction with
    | nil => exact ⟨[], rfl, by simp⟩
    | singleton x => simp at even
    | cons_cons x y rest ih _ =>
      simp only [List.mem_cons, forall_eq_or_imp] at all
      have evenRest : rest.length % 2 = 0 := by
        simp only [List.length_cons] at even
        omega
      obtain ⟨parts, rfl, pairs⟩ := ih evenRest all.2.2
      refine ⟨[x, y] :: parts, rfl, ?_⟩
      simp only [List.mem_cons, forall_eq_or_imp]
      exact ⟨mem_matches_twice.mpr ⟨x, all.1, y, all.2.1, rfl⟩, pairs⟩

inductive Value where
  | text (cs : List Char)
  | bigint (n : Nat)
  | number (n : Nat)
  | boolean (b : Bool)
  | bytes (bs : List UInt8)
  | undefined
  deriving DecidableEq

abbrev Scope := List (String × Value)

structure WordList where
  name : String
  words : List String

def WordList.line (l : WordList) : String :=
  let quoted := ", ".intercalate (l.words.map fun w => "'" ++ w ++ "'")
  s!"const {l.name} = [{quoted}];"

inductive Operator where
  | trim
  | lowerCase
  | length
  | not
  | group
  | test (p : Pattern)
  | isIn (l : WordList)
  | bigint
  | parseHex
  | newBytes
  | encode

def Operator.text (e : String) : Operator → String
  | trim => e ++ ".trim()"
  | lowerCase => e ++ ".toLowerCase()"
  | length => e ++ ".length"
  | not => "!" ++ e
  | group => "(" ++ e ++ ")"
  | test p => "/^" ++ p.source ++ "$/.test(" ++ e ++ ")"
  | isIn l => l.name ++ ".includes(" ++ e ++ ")"
  | bigint => "BigInt(" ++ e ++ ")"
  | parseHex => "parseInt(" ++ e ++ ", 16)"
  | newBytes => "new Uint8Array(" ++ e ++ ")"
  | encode => "new TextEncoder().encode(" ++ e ++ ")"

/-- The value of hexadecimal digits, most significant first. A number is exact up to 13 of them. -/
def hexValue? (cs : List Char) : Option Nat :=
  if cs.isEmpty || 13 < cs.length then none
  else cs.foldlM (fun n c => (Text.nibble? c.toNat).map (16 * n + ·)) 0

def Operator.apply : Operator → Value → Option Value
  | trim, .text cs => some (.text (Script.trim cs))
  | lowerCase, .text cs => if cs.all isAscii then some (.text (cs.map Char.toLower)) else none
  | length, .text cs => if cs.all isAscii then some (.number cs.length) else none
  | length, .bytes bs => some (.number bs.length)
  | not, .boolean b => some (.boolean !b)
  | group, v => some v
  | test p, .text cs => some (.boolean (p.expression.rmatch cs))
  | isIn l, .text cs => some (.boolean (l.words.contains (String.ofList cs)))
  | bigint, .text cs => if Text.isDigits cs then some (.bigint (Text.decimalValue cs)) else none
  | parseHex, .text cs => (hexValue? cs).map .number
  | newBytes, .number n => some (.bytes (List.replicate n 0))
  | encode, .text cs => some (.bytes (Text.utf8 (String.ofList cs)))
  | _, _ => none

section

variable (cs : List Char)

@[simp] theorem apply_trim : Operator.trim.apply (.text cs) = some (.text (Script.trim cs)) := rfl

@[simp] theorem apply_not (b : Bool) : Operator.not.apply (.boolean b) = some (.boolean !b) := rfl

@[simp] theorem apply_group (v : Value) : Operator.group.apply v = some v := by cases v <;> rfl

@[simp] theorem apply_test (p : Pattern) :
    (Operator.test p).apply (.text cs) = some (.boolean (p.expression.rmatch cs)) := rfl

@[simp] theorem apply_isIn (l : WordList) : (Operator.isIn l).apply (.text cs) =
    some (.boolean (l.words.contains (String.ofList cs))) := rfl

@[simp] theorem apply_lowerCase (ascii : cs.all isAscii = true) :
    Operator.lowerCase.apply (.text cs) = some (.text (cs.map Char.toLower)) := if_pos ascii

@[simp] theorem apply_length (ascii : cs.all isAscii = true) :
    Operator.length.apply (.text cs) = some (.number cs.length) := if_pos ascii

@[simp] theorem apply_bigint (digits : Text.isDigits cs = true) :
    Operator.bigint.apply (.text cs) = some (.bigint (Text.decimalValue cs)) := if_pos digits

@[simp] theorem apply_parseHex :
    Operator.parseHex.apply (.text cs) = (hexValue? cs).map .number := rfl

@[simp] theorem apply_newBytes (n : Nat) :
    Operator.newBytes.apply (.number n) = some (.bytes (List.replicate n 0)) := rfl

@[simp] theorem apply_encode :
    Operator.encode.apply (.text cs) = some (.bytes (Text.utf8 (String.ofList cs))) := rfl

end

inductive Binary where
  | less
  | greater
  | differs
  | plus
  | times
  | divided
  | sliceFrom

def Binary.text (a b : String) : Binary → String
  | less => a ++ " < " ++ b
  | greater => a ++ " > " ++ b
  | differs => a ++ " !== " ++ b
  | plus => a ++ " + " ++ b
  | times => a ++ " * " ++ b
  | divided => a ++ " / " ++ b
  | sliceFrom => a ++ ".slice(" ++ b ++ ")"

def Binary.apply : Binary → Value → Value → Option Value
  | less, .bigint a, .bigint b => some (.boolean (a < b))
  | greater, .bigint a, .bigint b => some (.boolean (b < a))
  | differs, v, .undefined => some (.boolean (v ≠ .undefined))
  | plus, .number a, .number b => some (.number (a + b))
  | times, .number a, .number b => some (.number (a * b))
  | divided, .number a, .number b => if b ∣ a ∧ b ≠ 0 then some (.number (a / b)) else none
  | sliceFrom, .text cs, .number n => if cs.all isAscii then some (.text (cs.drop n)) else none
  | _, _, _ => none

@[simp] theorem apply_less (a b : Nat) :
    Binary.less.apply (.bigint a) (.bigint b) = some (.boolean (a < b)) := rfl

@[simp] theorem apply_greater (a b : Nat) :
    Binary.greater.apply (.bigint a) (.bigint b) = some (.boolean (b < a)) := rfl

@[simp] theorem apply_differs (v : Value) :
    Binary.differs.apply v .undefined = some (.boolean (v ≠ .undefined)) := by cases v <;> rfl

@[simp] theorem apply_plus (a b : Nat) :
    Binary.plus.apply (.number a) (.number b) = some (.number (a + b)) := rfl

@[simp] theorem apply_times (a b : Nat) :
    Binary.times.apply (.number a) (.number b) = some (.number (a * b)) := rfl

@[simp] theorem apply_divided {a b : Nat} (exact : b ∣ a ∧ b ≠ 0) :
    Binary.divided.apply (.number a) (.number b) = some (.number (a / b)) := if_pos exact

@[simp] theorem apply_sliceFrom {cs : List Char} (ascii : cs.all isAscii = true) (n : Nat) :
    Binary.sliceFrom.apply (.text cs) (.number n) = some (.text (cs.drop n)) := if_pos ascii

inductive Expression where
  | name (x : String)
  | numeral (n : Nat)
  | undefined
  | truth (b : Bool)
  | emptyText
  | operation (o : Operator) (e : Expression)
  | binary (o : Binary) (a b : Expression)
  | slice (e start stop : Expression)
  | both (a b : Expression)
  | either (a b : Expression)
  | orElse (a b : Expression)

def Expression.text : Expression → String
  | name x => x
  | numeral n => toString n
  | undefined => "undefined"
  | truth b => if b then "true" else "false"
  | emptyText => "''"
  | operation o e => o.text e.text
  | binary o a b => o.text a.text b.text
  | slice e start stop => e.text ++ ".slice(" ++ start.text ++ ", " ++ stop.text ++ ")"
  | both a b => a.text ++ " && " ++ b.text
  | either a b => a.text ++ " || " ++ b.text
  | orElse a b => a.text ++ " ?? " ++ b.text

/-- The second part of `&&`, `||` and `??` counts only if the first part leaves it open. -/
def Expression.eval (scope : Scope) : Expression → Option Value
  | name x => scope.lookup x
  | numeral n => some (.number n)
  | undefined => some .undefined
  | truth b => some (.boolean b)
  | emptyText => some (.text [])
  | operation o e => do o.apply (← e.eval scope)
  | binary o a b => do o.apply (← a.eval scope) (← b.eval scope)
  | slice e start stop => do
    match ← e.eval scope, ← start.eval scope, ← stop.eval scope with
    | .text cs, .number first, .number last =>
      if cs.all isAscii then some (.text ((cs.take last).drop first)) else none
    | _, _, _ => none
  | both a b => do
    match ← a.eval scope with
    | .boolean true => b.eval scope
    | .boolean false => some (.boolean false)
    | _ => none
  | either a b => do
    match ← a.eval scope with
    | .boolean true => some (.boolean true)
    | .boolean false => b.eval scope
    | _ => none
  | orElse a b => do
    match ← a.eval scope with
    | .undefined => b.eval scope
    | v => some v

section

variable {scope : Scope} {e a b : Expression} {v w : Value}

@[simp] theorem eval_name (x : String) : (Expression.name x).eval scope = scope.lookup x := rfl

@[simp] theorem eval_numeral (n : Nat) : (Expression.numeral n).eval scope = some (.number n) := rfl

@[simp] theorem eval_undefined : Expression.undefined.eval scope = some .undefined := rfl

@[simp] theorem eval_truth (b : Bool) : (Expression.truth b).eval scope = some (.boolean b) := rfl

@[simp] theorem eval_emptyText : Expression.emptyText.eval scope = some (.text []) := rfl

@[simp] theorem eval_operation (o : Operator) (he : e.eval scope = some v) :
    (Expression.operation o e).eval scope = o.apply v := by
  change e.eval scope >>= _ = _
  rw [he]
  rfl

@[simp] theorem eval_binary (o : Binary) (ha : a.eval scope = some v) (hb : b.eval scope = some w) :
    (Expression.binary o a b).eval scope = o.apply v w := by
  change a.eval scope >>= _ = _
  rw [ha, Option.bind_eq_bind, Option.bind_some, hb]
  rfl

theorem eval_slice {cs : List Char} {first last : Nat} {start stop : Expression}
    (he : e.eval scope = some (.text cs)) (hfirst : start.eval scope = some (.number first))
    (hlast : stop.eval scope = some (.number last)) (ascii : cs.all isAscii = true) :
    (Expression.slice e start stop).eval scope = some (.text ((cs.take last).drop first)) := by
  change e.eval scope >>= _ = _
  rw [he, Option.bind_eq_bind, Option.bind_some, hfirst, Option.bind_some, hlast]
  exact if_pos ascii

theorem eval_both_false (ha : a.eval scope = some (.boolean false)) :
    (Expression.both a b).eval scope = some (.boolean false) := by
  change a.eval scope >>= _ = _
  rw [ha]
  rfl

theorem eval_both_true (ha : a.eval scope = some (.boolean true)) (hb : b.eval scope = some v) :
    (Expression.both a b).eval scope = some v := by
  change a.eval scope >>= _ = _
  rw [ha]
  exact hb

theorem eval_orElse_undefined (ha : a.eval scope = some .undefined) :
    (Expression.orElse a b).eval scope = b.eval scope := by
  change a.eval scope >>= _ = _
  rw [ha]
  rfl

theorem eval_orElse_of_ne (ha : a.eval scope = some v) (hv : v ≠ .undefined) :
    (Expression.orElse a b).eval scope = some v := by
  change a.eval scope >>= _ = _
  rw [ha]
  cases v with
  | undefined => exact absurd rfl hv
  | _ => rfl

theorem eval_either {p q : Bool} (ha : a.eval scope = some (.boolean p))
    (hb : b.eval scope = some (.boolean q)) :
    (Expression.either a b).eval scope = some (.boolean (p || q)) := by
  change a.eval scope >>= _ = _
  rw [ha]
  cases p
  · exact hb
  · rfl

end

inductive Piece where
  | text (s : String)
  | shown (e : Expression)

def Piece.source : Piece → String
  | text s => s
  | shown e => "$\x7b" ++ e.text ++ "\x7d"

def Piece.eval (scope : Scope) : Piece → Option String
  | text s => some s
  | shown e => do
    match ← e.eval scope with
    | .text cs => some (String.ofList cs)
    | .bigint n => some (toString n)
    | _ => none

section

variable {scope : Scope} {e : Expression}

@[simp] theorem eval_piece_text (s : String) : (Piece.text s).eval scope = some s := rfl

@[simp] theorem eval_shown_text {cs : List Char} (he : e.eval scope = some (.text cs)) :
    (Piece.shown e).eval scope = some (String.ofList cs) := by
  change e.eval scope >>= _ = _
  rw [he]
  rfl

@[simp] theorem eval_shown_bigint {n : Nat} (he : e.eval scope = some (.bigint n)) :
    (Piece.shown e).eval scope = some (toString n) := by
  change e.eval scope >>= _ = _
  rw [he]
  rfl

end

/-- The body of a function. Each condition guards a body of its own, so what follows it is done only
if the condition fails. -/
inductive Body where
  | returns (e : Expression)
  | throws (message : List Piece)
  | const (x : String) (e : Expression) (rest : Body)
  | returnsIf (condition e : Expression) (rest : Body)
  | guarded (condition : Expression) (inner rest : Body)
  | fills (x : String) (e : Expression) (rest : Body)

def indent (depth : Nat) (line : String) : String :=
  String.ofList (List.replicate (2 * depth) ' ') ++ line

def Body.lines (depth : Nat) : Body → List String
  | returns e => [indent depth s!"return {e.text};"]
  | throws message =>
    let template := String.join (message.map Piece.source)
    [indent depth ("throw new Error(`" ++ template ++ "`);")]
  | const x e rest => indent depth s!"const {x} = {e.text};" :: rest.lines depth
  | returnsIf condition e rest =>
    indent depth s!"if ({condition.text}) return {e.text};" :: rest.lines depth
  | guarded condition inner rest =>
    indent depth s!"if ({condition.text}) \x7b" ::
      (inner.lines (depth + 1) ++ indent depth "\x7d" :: rest.lines depth)
  | fills x e rest =>
    [indent depth s!"for (let i = 0; i < {x}.length; i++) \x7b",
     indent (depth + 1) s!"{x}[i] = {e.text};",
     indent depth "\x7d"] ++ rest.lines depth

/-- One turn of a loop that sets the byte `i` of `x`. Of a number the lowest eight bits are kept. -/
def fillStep (scope : Scope) (x : String) (e : Expression) (bs : List UInt8) (i : Nat) :
    Option (List UInt8) :=
  match e.eval (("i", .number i) :: (x, .bytes bs) :: scope) with
  | some (.number n) => some (bs.set i (UInt8.ofNat n))
  | _ => none

abbrev Outcome := Except String Value

def Body.run (scope : Scope) : Body → Option Outcome
  | returns e => (e.eval scope).map .ok
  | throws message => (message.mapM (Piece.eval scope)).map fun parts => .error (String.join parts)
  | const x e rest => do rest.run ((x, ← e.eval scope) :: scope)
  | returnsIf condition e rest => do
    match ← condition.eval scope with
    | .boolean true => (e.eval scope).map .ok
    | .boolean false => rest.run scope
    | _ => none
  | guarded condition inner rest => do
    match ← condition.eval scope with
    | .boolean true => inner.run scope
    | .boolean false => rest.run scope
    | _ => none
  | fills x e rest =>
    match scope.lookup x with
    | some (.bytes bs) => do
      let filled ← (List.range bs.length).foldlM (fillStep scope x e) bs
      rest.run ((x, .bytes filled) :: scope)
    | _ => none

section

variable {scope : Scope} {e : Expression} {v : Value} {inner rest : Body}

@[simp] theorem run_returns (he : e.eval scope = some v) :
    (Body.returns e).run scope = some (.ok v) := by
  change (e.eval scope).map _ = _
  rw [he]
  rfl

@[simp] theorem run_throws {message : List Piece} {parts : List String}
    (h : message.mapM (Piece.eval scope) = some parts) :
    (Body.throws message).run scope = some (.error (String.join parts)) := by
  change (message.mapM (Piece.eval scope)).map _ = _
  rw [h]
  rfl

@[simp] theorem run_const {x : String} (he : e.eval scope = some v) :
    (Body.const x e rest).run scope = rest.run ((x, v) :: scope) := by
  change e.eval scope >>= _ = _
  rw [he]
  rfl

@[simp] theorem run_guarded {b : Bool} (he : e.eval scope = some (.boolean b)) :
    (Body.guarded e inner rest).run scope = if b then inner.run scope else rest.run scope := by
  change e.eval scope >>= _ = _
  rw [he]
  cases b <;> rfl

/-- A guarded return is done if its condition holds, and else the body goes on. -/
@[simp] theorem run_returnsIf {b : Bool} {result : Expression}
    (hc : e.eval scope = some (.boolean b)) (hr : result.eval scope = some v) :
    (Body.returnsIf e result rest).run scope = if b then some (.ok v) else rest.run scope := by
  change e.eval scope >>= _ = _
  rw [hc]
  cases b
  · rfl
  · exact run_returns hr

end

section

variable {bytes : List UInt8} {turn : List UInt8 → Nat → Option (List UInt8)}

/-- After `k` turns the first `k` bytes are set and the rest are still zero. -/
theorem foldlM_range_take (sets : ∀ bs i b, bytes[i]? = some b → turn bs i = some (bs.set i b))
    {k : Nat} (hk : k ≤ bytes.length) :
    (List.range k).foldlM turn (List.replicate bytes.length 0) =
      some (bytes.take k ++ List.replicate (bytes.length - k) 0) := by
  induction k with
  | zero => simp
  | succ k ih =>
    have next : bytes[k]? = some bytes[k] := List.getElem?_eq_getElem hk
    have left : bytes.length - k = (bytes.length - (k + 1)) + 1 := by omega
    have before : (bytes.take k).length = k := by simp; omega
    rw [List.range_succ, List.foldlM_append, ih (by omega)]
    simp only [Option.bind_eq_bind, Option.bind_some, List.foldlM_cons, List.foldlM_nil,
      sets _ _ _ next, Option.pure_def]
    rw [left, List.replicate_succ, List.set_append_right _ _ (by omega), before, Nat.sub_self,
      List.set_cons_zero, List.take_succ_eq_append_getElem hk, List.append_assoc]
    rfl

/-- A loop that sets each byte in its turn gives the bytes. -/
theorem foldlM_range (sets : ∀ bs i b, bytes[i]? = some b → turn bs i = some (bs.set i b)) :
    (List.range bytes.length).foldlM turn (List.replicate bytes.length 0) = some bytes := by
  simpa using foldlM_range_take sets (le_refl bytes.length)

end

theorem run_fills {scope : Scope} {x : String} {e : Expression} {rest : Body}
    {bytes filled : List UInt8} (hx : scope.lookup x = some (.bytes bytes))
    (hf : (List.range bytes.length).foldlM (fillStep scope x e) bytes = some filled) :
    (Body.fills x e rest).run scope = rest.run ((x, .bytes filled) :: scope) := by
  rw [Body.run, hx]
  dsimp only
  rw [hf]
  rfl

structure Function where
  name : String
  parameters : List (String × String)
  result : String
  body : Body

def Function.lines (f : Function) : List String :=
  let parameters := ", ".intercalate (f.parameters.map fun p => p.1 ++ p.2)
  [s!"function {f.name}({parameters}): {f.result} \x7b"] ++ f.body.lines 1 ++ ["\x7d"]

def Function.call (f : Function) (arguments : List Value) : Option Outcome :=
  f.body.run ((f.parameters.map (·.1)).zip arguments)

end ContractSurface.TypeScript.Script
