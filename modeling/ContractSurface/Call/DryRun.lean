import ContractSurface.Call.Argument
import ContractSurface.Interface.Basic
import ContractSurface.Text.Utf8

/-! # Dry runs of a contract

A dry run answers calls without a network. It records every call that it takes, gives each
transaction the next block height and an identifier made of that height and the name of the
circuit, and answers queries with nothing. Some circuits can be set to refuse every call, and some
to take one call only; a refused call changes nothing.
-/
namespace ContractSurface

inductive InvocationError where
  | unsupported (name : String)
  | rejected (message : String)
  deriving DecidableEq, Repr

def InvocationError.message : InvocationError → String
  | .unsupported name => s!"operation `{name}` is not exposed by the contract binding"
  | .rejected message => message

structure TransactionData where
  txId : String
  blockHeight : Nat
  deriving DecidableEq, Repr

structure RecordedCall where
  name : String
  arguments : List Argument
  isTransaction : Bool
  deriving DecidableEq, Repr

structure DryRun where
  blockHeight : Nat
  calls : List RecordedCall
  ledger : List (String × Json)
  rejections : List (String × String)
  onceOnly : List String

namespace DryRun

def fresh (ledger : List (String × Json)) (rejections : List (String × String))
    (onceOnly : List String) : DryRun := ⟨0, [], ledger, rejections, onceOnly⟩

def hasCalled (d : DryRun) (name : String) : Bool := d.calls.any (·.name == name)

def refusal? (d : DryRun) (name : String) : Option InvocationError :=
  match d.rejections.lookup name with
  | some message => some (.rejected message)
  | none =>
    if d.onceOnly.contains name && d.hasCalled name then
      some (.rejected s!"failed assert: {name} already performed")
    else none

def taking (d : DryRun) (call : RecordedCall) : DryRun :=
  { d with
    calls := d.calls ++ [call]
    blockHeight := if call.isTransaction then d.blockHeight + 1 else d.blockHeight }

/-- The bytes of `n`, most significant first, in the given number of places. -/
def bigEndian : Nat → Nat → List UInt8
  | 0, _ => []
  | places + 1, n => bigEndian places (n / 256) ++ [UInt8.ofNat (n % 256)]

def transactionId (height : Nat) (name : String) : String :=
  Text.hexText (bigEndian 8 height ++ Text.utf8 name)

def callTx (d : DryRun) (name : String) (arguments : List Argument) :
    Except InvocationError TransactionData × DryRun :=
  match d.refusal? name with
  | some e => (.error e, d)
  | none =>
    let d := d.taking ⟨name, arguments, true⟩
    (.ok ⟨transactionId d.blockHeight name, d.blockHeight⟩, d)

def query (d : DryRun) (name : String) (arguments : List Argument) :
    Except InvocationError Json × DryRun :=
  match d.refusal? name with
  | some e => (.error e, d)
  | none => (.ok .null, d.taking ⟨name, arguments, false⟩)

def ledgerState (d : DryRun) : List (String × Json) := d.ledger

end DryRun

end ContractSurface
