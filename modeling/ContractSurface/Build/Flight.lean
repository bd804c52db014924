/-! # Single flights

At most one flight is out at a time, and none starts within the quiet time after the last one came
back. Times are counts of milliseconds on one clock.
-/
namespace ContractSurface

inductive SkipReason where
  | inFlight
  | debounced
  deriving DecidableEq, Repr

structure Flight where
  quiet : Nat
  isRunning : Bool
  lastCompleted : Option Nat
  deriving DecidableEq, Repr

namespace Flight

def grounded (quiet : Nat) : Flight := ⟨quiet, false, none⟩

/-- The quiet time after the last flight has not passed. -/
def isResting (f : Flight) (now : Nat) : Bool :=
  match f.lastCompleted with
  | some t => now - t < f.quiet
  | none => false

/-- Starts a flight, unless one is out or the last one has just come back. -/
def tryBegin (f : Flight) (now : Nat) : Except SkipReason Flight :=
  if f.isRunning then .error .inFlight
  else if f.isResting now then .error .debounced
  else .ok { f with isRunning := true }

def complete (f : Flight) (now : Nat) : Flight :=
  { f with isRunning := false, lastCompleted := some now }

end Flight

end ContractSurface
