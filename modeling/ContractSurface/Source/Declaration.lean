import ContractSurface.Interface.Basic
import ContractSurface.Source.Lexer

/-! # Declarations of a contract source

Two statements are recognised,

    export [sealed | pure] ledger NAME : TYPE ;
    export [sealed | pure] circuit NAME [<...>] ( PARAMETERS ) [: TYPE] { ... }

and everything else is passed over. A statement that breaks off yields nothing, and reading goes
on where it stopped, so an `export` is never swallowed by the statement before it unless brackets
are left open there. Comments inside a statement do not belong to its types.
-/
namespace ContractSurface.Source

structure Circuit where
  name : String
  parameters : List Parameter
  returnType : String
  doc : List String
  deriving DecidableEq, Repr

inductive Declaration where
  | ledger (field : StateVariable)
  | circuit (circuit : Circuit)
  deriving DecidableEq, Repr

structure Declarations where
  circuits : List Circuit
  ledgers : List StateVariable
  deriving DecidableEq, Repr

/-- The tokens before the first one at bracket depth zero that satisfies `stop` or is `export`,
comments left out, and the tokens from there on. -/
def collectUntil (stop : Token → Bool) : Nat → List Token → List Token × List Token
  | _, [] => ([], [])
  | depth, t :: ts =>
    if depth = 0 ∧ (stop t ∨ t = Token.exportWord) then ([], t :: ts)
    else
      let r := collectUntil stop (t.depthAfter depth) ts
      (if t.isComment then r.1 else t :: r.1, r.2)

def skipGroup : Nat → List Token → List Token
  | _, [] => []
  | depth, t :: ts =>
    if t.closes ∧ t.depthAfter depth = 0 then ts else skipGroup (t.depthAfter depth) ts

def lastWord? (ts : List Token) : Option String :=
  ts.reverse.findSome? fun
    | .ident name => some name
    | _ => none

/-- A parameter is named by the last identifier before its first colon; its type follows the
colon and may be missing. -/
def parameter? (ts : List Token) : Option Parameter :=
  let isName (t : Token) := t != .punct ':'
  (lastWord? (ts.takeWhile isName)).map fun name =>
    ⟨name, renderType ((ts.dropWhile isName).drop 1)⟩

def commaSegments : Nat → List Token → List (List Token)
  | _, [] => [[]]
  | depth, t :: ts =>
    if t = .punct ',' ∧ depth = 0 then [] :: commaSegments 0 ts
    else
      match commaSegments (t.depthAfter depth) ts with
      | [] => [[t]]
      | segment :: rest => (t :: segment) :: rest

def splitParameters (ts : List Token) : List Parameter :=
  (commaSegments 0 ts).filterMap parameter?

def readLedger : List Token → Option Declaration × List Token
  | .ident name :: .punct ':' :: ts =>
    let r := collectUntil (· = .punct ';') 0 ts
    let rest := if r.2.head? = some (.punct ';') then r.2.drop 1 else r.2
    (if r.1.isEmpty then none else some (.ledger ⟨name, renderType r.1⟩), rest)
  | .ident _ :: ts => (none, ts)
  | ts => (none, ts)

def readReturnType : List Token → String × List Token
  | .punct ':' :: ts =>
    let r := collectUntil (fun t => t = .punct '\x7b' || t = .punct ';') 0 ts
    (renderType r.1, r.2)
  | ts => (voidType, ts)

def afterGroup (ts : List Token) : List Token :=
  if ts.head? = some (.punct '<') then skipGroup 0 ts else ts

def readSignature (name : String) (doc : List String) :
    List Token → Option Declaration × List Token
  | .punct '(' :: inside =>
    let r := collectUntil (· = .punct ')') 0 inside
    match r.2 with
    | .punct ')' :: after =>
      let result := readReturnType after
      (some (.circuit ⟨name, splitParameters r.1, result.1, doc⟩), result.2)
    | rest => (none, rest)
  | ts => (none, ts)

def readCircuit (doc : List String) : List Token → Option Declaration × List Token
  | .ident name :: ts => readSignature name doc (afterGroup ts)
  | ts => (none, ts)

def readStatement (doc : List String) (keyword : String) (ts : List Token) :
    Option Declaration × List Token :=
  if keyword = "ledger" then readLedger ts
  else if keyword = "circuit" then readCircuit doc ts
  else (none, ts)

def isModifier (word : String) : Bool := word == "sealed" || word == "pure"

def readExport (doc : List String) : List Token → Option Declaration × List Token
  | .ident word :: ts =>
    if isModifier word then
      match ts with
      | .ident keyword :: rest => readStatement doc keyword rest
      | _ => (none, ts)
    else readStatement doc word ts
  | ts => (none, ts)

-- Every reader leaves an end of what it was given.

theorem collectUntil_suffix (stop : Token → Bool) (depth : Nat) (ts : List Token) :
    (collectUntil stop depth ts).2 <:+ ts := by
  induction ts generalizing depth with
  | nil => exact List.suffix_rfl
  | cons t ts ih =>
    unfold collectUntil
    split
    · exact List.suffix_rfl
    · exact (ih (t.depthAfter depth)).trans (List.suffix_cons t ts)

theorem skipGroup_suffix (depth : Nat) (ts : List Token) : skipGroup depth ts <:+ ts := by
  induction ts generalizing depth with
  | nil => exact List.suffix_rfl
  | cons t ts ih =>
    unfold skipGroup
    split
    · exact List.suffix_cons t ts
    · exact (ih (t.depthAfter depth)).trans (List.suffix_cons t ts)

theorem readLedger_suffix (ts : List Token) : (readLedger ts).2 <:+ ts := by
  unfold readLedger
  split
  · next name rest =>
    have header : rest <:+ .ident name :: .punct ':' :: rest := List.suffix_append [_, _] rest
    have collected := (collectUntil_suffix (· = .punct ';') 0 rest).trans header
    dsimp only
    split
    · exact (List.drop_suffix 1 _).trans collected
    · exact collected
  · exact List.suffix_cons _ _
  · exact List.suffix_rfl

theorem readReturnType_suffix (ts : List Token) : (readReturnType ts).2 <:+ ts := by
  unfold readReturnType
  split
  · exact (collectUntil_suffix _ 0 _).trans (List.suffix_cons _ _)
  · exact List.suffix_rfl

theorem afterGroup_suffix (ts : List Token) : afterGroup ts <:+ ts := by
  unfold afterGroup
  split
  · exact skipGroup_suffix 0 ts
  · exact List.suffix_rfl

theorem readSignature_suffix (name : String) (doc : List String) (ts : List Token) :
    (readSignature name doc ts).2 <:+ ts := by
  unfold readSignature
  split
  · next inside =>
    have list := (collectUntil_suffix (· = .punct ')') 0 inside).trans
      (List.suffix_cons (.punct '(') inside)
    dsimp only
    split
    · next after hafter =>
      rw [hafter] at list
      exact ((readReturnType_suffix after).trans (List.suffix_cons _ _)).trans list
    · exact list
  · exact List.suffix_rfl

theorem readCircuit_suffix (doc : List String) (ts : List Token) :
    (readCircuit doc ts).2 <:+ ts := by
  unfold readCircuit
  split
  · next name rest =>
    exact ((readSignature_suffix name doc _).trans (afterGroup_suffix rest)).trans
      (List.suffix_cons _ _)
  · exact List.suffix_rfl

theorem readStatement_suffix (doc : List String) (keyword : String) (ts : List Token) :
    (readStatement doc keyword ts).2 <:+ ts := by
  unfold readStatement
  split
  · exact readLedger_suffix ts
  · split
    · exact readCircuit_suffix doc ts
    · exact List.suffix_rfl

/-- Reading a declaration goes on in its own text. -/
theorem readExport_suffix (doc : List String) (ts : List Token) :
    (readExport doc ts).2 <:+ ts := by
  unfold readExport
  split
  · next word rest =>
    split
    · split
      · next keyword rest =>
        exact (readStatement_suffix doc keyword rest).trans (List.suffix_append [_, _] rest)
      · exact List.suffix_cons _ _
    · exact (readStatement_suffix doc word rest).trans (List.suffix_cons _ _)
  · exact List.suffix_rfl

/-- The declarations of a token list. The comments directly before an `export` describe what it
declares. -/
def readDeclarations (doc : List String) : List Token → List Declaration
  | [] => []
  | t :: ts =>
    match t with
    | .comment line => readDeclarations (doc ++ [line]) ts
    | _ =>
      if t = Token.exportWord then
        (readExport doc ts).1.toList ++ readDeclarations [] (readExport doc ts).2
      else readDeclarations [] ts
termination_by ts => ts.length
decreasing_by
  · simp
  · exact Nat.lt_succ_of_le (readExport_suffix doc ts).length_le
  · simp

def Declaration.ledger? : Declaration → Option StateVariable
  | .ledger field => some field
  | .circuit _ => none

def Declaration.circuit? : Declaration → Option Circuit
  | .ledger _ => none
  | .circuit c => some c

def declarations (source : String) : Declarations :=
  let found := readDeclarations [] (tokens source)
  ⟨found.filterMap Declaration.circuit?, found.filterMap Declaration.ledger?⟩

end ContractSurface.Source
