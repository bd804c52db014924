import ContractSurface.Build.Flight
import Mathlib.Data.List.Basic

/-! # Flights one after the other

The flag of a flight is taken before the time of the last flight is looked at, and it is given back
if too little time has passed. A logbook follows every guard that was handed out, whenever it is
dropped: never more than one is out, and between two flights lies the quiet time.
-/
namespace ContractSurface

namespace Flight

def claim (f : Flight) : Bool × Flight :=
  if f.isRunning then (false, f) else (true, { f with isRunning := true })

def giveBack (f : Flight) : Flight := { f with isRunning := false }

/-- Starts a flight in single steps, with what becomes of the flag on the way. -/
def attempt (f : Flight) (now : Nat) : Except SkipReason Unit × Flight :=
  match f.claim with
  | (false, f) => (.error .inFlight, f)
  | (true, f) => if f.isResting now then (.error .debounced, f.giveBack) else (.ok (), f)

variable {f : Flight} {now : Nat}

theorem isResting_iff :
    f.isResting now = true ↔ ∃ t, f.lastCompleted = some t ∧ now - t < f.quiet := by
  unfold isResting
  cases f.lastCompleted with
  | none => simp
  | some t => simp

/-- What an attempt does: it is refused and leaves everything as it was, or it sets the flag. -/
theorem attempt_cases (f : Flight) (now : Nat) :
    (f.isRunning = true ∧ f.attempt now = (.error .inFlight, f)) ∨
    (f.isRunning = false ∧ f.isResting now = true ∧ f.attempt now = (.error .debounced, f)) ∨
    (f.isRunning = false ∧ f.isResting now = false ∧
      f.attempt now = (.ok (), { f with isRunning := true })) := by
  cases running : f.isRunning with
  | true =>
    left
    exact ⟨rfl, by simp [attempt, claim, running]⟩
  | false =>
    right
    have same : { f with isRunning := true }.isResting now = f.isResting now := rfl
    have back : giveBack { f with isRunning := true } = f := by
      rw [giveBack, ← running]
    cases resting : f.isResting now with
    | true =>
      left
      exact ⟨rfl, rfl, by simp [attempt, claim, running, same, resting, back]⟩
    | false =>
      right
      exact ⟨rfl, rfl, by simp [attempt, claim, running, same, resting]⟩

theorem tryBegin_inFlight_iff : f.tryBegin now = .error .inFlight ↔ f.isRunning = true := by
  unfold tryBegin
  cases f.isRunning <;> cases f.isResting now <;> simp

theorem tryBegin_debounced_iff : f.tryBegin now = .error .debounced ↔
    ¬f.isRunning = true ∧ f.isResting now = true := by
  unfold tryBegin
  cases f.isRunning <;> cases f.isResting now <;> simp

theorem exists_tryBegin_iff : (∃ begun, f.tryBegin now = .ok begun) ↔
    ¬f.isRunning = true ∧ ¬f.isResting now = true := by
  unfold tryBegin
  cases f.isRunning <;> cases f.isResting now <;> simp

/-- In single steps or at once, a flight starts in the same cases. -/
theorem attempt_eq (f : Flight) (now : Nat) :
    f.attempt now = match f.tryBegin now with
      | .ok begun => (.ok (), begun)
      | .error reason => (.error reason, f) := by
  rcases f.attempt_cases now with ⟨running, eq⟩ | ⟨running, resting, eq⟩ | ⟨running, resting, eq⟩
  · rw [eq]
    simp [tryBegin, running]
  · rw [eq]
    simp [tryBegin, running, resting]
  · rw [eq]
    simp [tryBegin, running, resting]

end Flight

structure Trip where
  began : Nat
  ended : Option Nat

def Trip.isOut (t : Trip) : Bool := t.ended.isNone

/-- The one flight that all trips share, the time, and the trips in the order of their begin. -/
structure Logbook where
  flight : Flight
  now : Nat
  trips : List Trip

namespace Logbook

inductive Event where
  | attempt
  | drop (k : Nat)
  | pass (time : Nat)

def opened (quiet : Nat) : Logbook := ⟨.grounded quiet, 0, []⟩

def after (b : Logbook) : Event → Logbook
  | .attempt =>
    match b.flight.attempt b.now with
    | (.ok _, flight) => { b with flight, trips := b.trips ++ [⟨b.now, none⟩] }
    | (.error _, flight) => { b with flight }
  | .drop k =>
    match b.trips[k]? with
    | some ⟨began, none⟩ =>
      { b with flight := b.flight.complete b.now, trips := b.trips.set k ⟨began, some b.now⟩ }
    | _ => b
  | .pass time => { b with now := b.now + time }

def run (b : Logbook) (events : List Event) : Logbook := events.foldl after b

def IsOut (b : Logbook) : Prop := ∃ t ∈ b.trips, t.isOut = true

def ends (b : Logbook) : List Nat := b.trips.filterMap (·.ended)

def LastEnd (b : Logbook) (t : Nat) : Prop := t ∈ b.ends ∧ ∀ e ∈ b.ends, e ≤ t

/-- The first trip was over for the quiet time when the second one began. -/
def Spaced (quiet : Nat) (first second : Trip) : Prop :=
  ∃ e, first.ended = some e ∧ e + quiet ≤ second.began

structure Kept (quiet : Nat) (b : Logbook) : Prop where
  sameQuiet : b.flight.quiet = quiet
  running : b.flight.isRunning = true ↔ b.IsOut
  stamp : b.flight.lastCompleted = b.ends.max?
  past : ∀ e ∈ b.ends, e ≤ b.now
  spaced : b.trips.Pairwise (Spaced quiet)

variable {quiet : Nat} {b : Logbook}

theorem lastEnd_iff {t : Nat} : b.LastEnd t ↔ b.ends.max? = some t :=
  List.max?_eq_some_iff.symm

theorem ends_concat (b : Logbook) (t : Trip) (flight : Flight) :
    ends { b with flight, trips := b.trips ++ [t] } = b.ends ++ t.ended.toList := by
  unfold ends
  rw [List.filterMap_append]
  cases h : t.ended <;> simp [h]

/-- Behind a trip whose guard is out there is no other one, and all before it are over. -/
theorem Spaced.isOut_eq_false {earlier later : List Trip} {t : Trip}
    (h : (earlier ++ t :: later).Pairwise (Spaced quiet)) (out : t.isOut = true) :
    later = [] ∧ ∀ s ∈ earlier, s.isOut = false := by
  obtain ⟨_, among, across⟩ := List.pairwise_append.mp h
  constructor
  · cases later with
    | nil => rfl
    | cons s later =>
      obtain ⟨e, ended, _⟩ := (List.pairwise_cons.mp among).1 s List.mem_cons_self
      rw [Trip.isOut, ended] at out
      cases out
  · intro s hs
    obtain ⟨e, ended, _⟩ := across s hs t List.mem_cons_self
    rw [Trip.isOut, ended]
    rfl

theorem Kept.split (h : Kept quiet b) {earlier later : List Trip} {t : Trip}
    (ht : b.trips = earlier ++ t :: later) (out : t.isOut = true) :
    b.trips = earlier ++ [t] ∧ ∀ s ∈ earlier, s.isOut = false := by
  have spaced := h.spaced
  rw [ht] at spaced
  obtain ⟨rfl, ended⟩ := Spaced.isOut_eq_false spaced out
  exact ⟨ht, ended⟩

/-- At most one guard is out at a time. -/
theorem Kept.countP_isOut_le (h : Kept quiet b) : b.trips.countP (·.isOut) ≤ 1 := by
  by_cases out : b.IsOut
  · obtain ⟨t, ht, out⟩ := out
    obtain ⟨earlier, later, split⟩ := List.append_of_mem ht
    obtain ⟨whole, ended⟩ := h.split split out
    have none : earlier.countP (·.isOut) = 0 :=
      List.countP_eq_zero.mpr fun s hs => by simp [ended s hs]
    have one : b.trips.countP (·.isOut) = 1 := by
      simp [whole, List.countP_append, none, out]
    exact Nat.le_of_eq one
  · have none : b.trips.countP (·.isOut) = 0 :=
      List.countP_eq_zero.mpr fun s hs isOut => out ⟨s, hs, isOut⟩
    omega

/-- The flag rests up to, and not at, the end of the quiet time. -/
theorem Kept.isResting_iff (h : Kept quiet b) :
    b.flight.isResting b.now = true ↔ ∃ t, b.LastEnd t ∧ b.now < t + quiet := by
  rw [Flight.isResting_iff, h.sameQuiet, h.stamp]
  constructor
  · rintro ⟨t, stamped, early⟩
    have last := lastEnd_iff.mpr stamped
    have past := h.past t last.1
    exact ⟨t, last, by omega⟩
  · rintro ⟨t, last, early⟩
    have past := h.past t last.1
    exact ⟨t, lastEnd_iff.mp last, by omega⟩

theorem Kept.awake_iff (h : Kept quiet b) :
    ¬b.flight.isResting b.now = true ↔ ∀ t, b.LastEnd t → t + quiet ≤ b.now := by
  rw [h.isResting_iff]
  constructor
  · intro awake t last
    by_contra early
    exact awake ⟨t, last, by omega⟩
  · rintro waited ⟨t, last, early⟩
    have := waited t last
    omega

/-- When no guard is out and the quiet time has passed, every trip so far is over for that time. -/
theorem Kept.rested (h : Kept quiet b) (idle : ¬b.IsOut)
    (awake : ¬b.flight.isResting b.now = true) : ∀ s ∈ b.trips, Spaced quiet s ⟨b.now, none⟩ := by
  intro s hs
  cases ended : s.ended with
  | none => exact absurd ⟨s, hs, by rw [Trip.isOut, ended]; rfl⟩ idle
  | some e =>
    have he : e ∈ b.ends := List.mem_filterMap.mpr ⟨s, hs, ended⟩
    obtain ⟨t, ht⟩ := Option.ne_none_iff_exists'.mp
      (fun none => List.ne_nil_of_mem he (List.max?_eq_none_iff.mp none))
    have last : b.LastEnd t := lastEnd_iff.mpr ht
    have waited := h.awake_iff.mp awake t last
    have le := last.2 e he
    refine ⟨e, ended, ?_⟩
    show e + quiet ≤ b.now
    omega

/-- An attempt keeps the books. -/
theorem Kept.attempt (h : Kept quiet b) : Kept quiet (b.after .attempt) := by
  rcases b.flight.attempt_cases b.now with ⟨_, eq⟩ | ⟨_, _, eq⟩ | ⟨running, resting, eq⟩
  · rw [after, eq]
    exact h
  · rw [after, eq]
    exact h
  · rw [after, eq]
    have idle : ¬b.IsOut := by
      rw [← h.running, running]
      decide
    have ends := (b.ends_concat ⟨b.now, none⟩ { b.flight with isRunning := true }).trans
      (List.append_nil _)
    refine ⟨h.sameQuiet, ?_, ?_, ?_, ?_⟩
    · exact iff_of_true rfl ⟨⟨b.now, none⟩, List.mem_append_right _ List.mem_cons_self, rfl⟩
    · exact h.stamp.trans (congrArg List.max? ends.symm)
    · intro e he
      exact h.past e (ends ▸ he)
    · refine List.pairwise_append.mpr ⟨h.spaced, List.pairwise_singleton _ _, ?_⟩
      intro s hs second hsecond
      rw [List.mem_singleton.mp hsecond]
      exact h.rested idle (by rw [resting]; decide) s hs

/-- What comes of dropping a guard: the trip is over now, and it was the last one. -/
theorem Kept.drop_cases (h : Kept quiet b) (k : Nat) :
    b.after (.drop k) = b ∨ ∃ earlier began, b.trips = earlier ++ [⟨began, none⟩] ∧
      (∀ s ∈ earlier, s.isOut = false) ∧
      b.after (.drop k) = { b with
        flight := b.flight.complete b.now, trips := earlier ++ [⟨began, some b.now⟩] } := by
  cases hk : b.trips[k]? with
  | none =>
    left
    rw [after, hk]
  | some t =>
    obtain ⟨began, ended⟩ := t
    cases ended with
    | some e =>
      left
      rw [after, hk]
    | none =>
      right
      obtain ⟨hlt, found⟩ := List.getElem?_eq_some_iff.mp hk
      obtain ⟨earlier, later, split, length, replaced⟩ := List.exists_of_set hlt
      rw [found] at split
      obtain ⟨whole, ended⟩ := h.split split rfl
      have last : later = [] := by
        have eq := split.symm.trans whole
        simpa using eq
      refine ⟨earlier, began, whole, ended, ?_⟩
      rw [after, hk, ← last, ← replaced]

/-- The drop of any guard, out or not, keeps the books. -/
theorem Kept.drop (h : Kept quiet b) (k : Nat) : Kept quiet (b.after (.drop k)) := by
  rcases h.drop_cases k with same | ⟨earlier, began, whole, ended, dropped⟩
  · rwa [same]
  · have ends :
        (earlier ++ [Trip.mk began (some b.now)]).filterMap (·.ended) = b.ends ++ [b.now] := by
      simp [Logbook.ends, whole]
    have spaced := h.spaced
    rw [whole] at spaced
    obtain ⟨before, _, across⟩ := List.pairwise_append.mp spaced
    rw [dropped]
    refine ⟨h.sameQuiet, ?_, ?_, ?_, ?_⟩
    · refine iff_of_false (by simp [Flight.complete]) ?_
      rintro ⟨s, hs, out⟩
      rcases List.mem_append.mp hs with hs | hs
      · rw [ended s hs] at out
        cases out
      · rw [List.mem_singleton.mp hs] at out
        cases out
    · rw [Logbook.ends, ends]
      refine (List.max?_eq_some_iff.mpr ⟨List.mem_append_right _ List.mem_cons_self, ?_⟩).symm
      intro e he
      rcases List.mem_append.mp he with he | he
      · exact h.past e he
      · exact Nat.le_of_eq (List.mem_singleton.mp he)
    · rw [Logbook.ends, ends]
      intro e he
      rcases List.mem_append.mp he with he | he
      · exact h.past e he
      · exact Nat.le_of_eq (List.mem_singleton.mp he)
    · refine List.pairwise_append.mpr ⟨before, List.pairwise_singleton _ _, ?_⟩
      intro s hs second hsecond
      rw [List.mem_singleton.mp hsecond]
      exact across s hs ⟨began, none⟩ List.mem_cons_self

theorem Kept.after (h : Kept quiet b) (e : Event) : Kept quiet (b.after e) := by
  cases e with
  | attempt => exact h.attempt
  | drop k => exact h.drop k
  | pass time =>
    have past : ∀ e ∈ b.ends, e ≤ b.now + time :=
      fun e he => Nat.le_trans (h.past e he) (Nat.le_add_right _ _)
    exact ⟨h.sameQuiet, h.running, h.stamp, past, h.spaced⟩

/-- Whatever happens, and however often, the books are kept. -/
theorem kept_run (quiet : Nat) (events : List Event) : Kept quiet ((opened quiet).run events) := by
  have start : Kept quiet (opened quiet) := by
    refine ⟨rfl, iff_of_false Bool.false_ne_true ?_, rfl, nofun, .nil⟩
    rintro ⟨t, ht, _⟩
    cases ht
  generalize opened quiet = b at start
  unfold run
  induction events generalizing b with
  | nil => exact start
  | cons e events ih => exact ih _ (start.after e)

/-- In every history of attempts, dropped guards and passing time the flag is up exactly while a
guard is out, and no second one is. An attempt is refused while a guard is out, or else if less than
the quiet time has passed since the last flight was completed, and a refusal changes nothing. Of two
flights in a row the second begins when the first one has been over for the quiet time. -/
theorem flights_stand_apart (quiet : Nat) (events : List Event) :
    let b := (opened quiet).run events
    (b.flight.isRunning = true ↔ b.IsOut) ∧
    b.trips.countP (·.isOut) ≤ 1 ∧
    (∀ t, b.flight.lastCompleted = some t ↔ b.LastEnd t) ∧
    (b.flight.tryBegin b.now = .error .inFlight ↔ b.IsOut) ∧
    (b.flight.tryBegin b.now = .error .debounced ↔
      ¬b.IsOut ∧ ∃ t, b.LastEnd t ∧ b.now < t + quiet) ∧
    ((∃ begun, b.flight.tryBegin b.now = .ok begun) ↔
      ¬b.IsOut ∧ ∀ t, b.LastEnd t → t + quiet ≤ b.now) ∧
    (∀ reason, b.flight.tryBegin b.now = .error reason →
      b.flight.attempt b.now = (.error reason, b.flight) ∧ b.after .attempt = b) ∧
    (∀ begun, b.flight.tryBegin b.now = .ok begun →
      b.flight.attempt b.now = (.ok (), begun) ∧
      b.after .attempt = ⟨begun, b.now, b.trips ++ [⟨b.now, none⟩]⟩) ∧
    ∀ k first second, b.trips[k]? = some first → b.trips[k + 1]? = some second →
      ∃ e, first.ended = some e ∧ e + quiet ≤ second.began := by
  intro b
  have kept : Kept quiet b := kept_run quiet events
  have stamp : ∀ t, b.flight.lastCompleted = some t ↔ b.LastEnd t := by
    intro t
    rw [kept.stamp, lastEnd_iff]
  refine ⟨kept.running, kept.countP_isOut_le, stamp, ?_, ?_, ?_, ?_, ?_, ?_⟩
  · rw [← kept.running, Flight.tryBegin_inFlight_iff]
  · rw [← kept.running, ← kept.isResting_iff, Flight.tryBegin_debounced_iff]
  · rw [← kept.running, Flight.exists_tryBegin_iff, ← kept.awake_iff]
  · intro reason refused
    have stays : b.flight.attempt b.now = (.error reason, b.flight) := by
      rw [Flight.attempt_eq, refused]
    exact ⟨stays, by rw [after, stays]⟩
  · intro begun granted
    have goes : b.flight.attempt b.now = (.ok (), begun) := by
      rw [Flight.attempt_eq, granted]
    exact ⟨goes, by rw [after, goes]⟩
  · intro k first second hfirst hsecond
    obtain ⟨hk, rfl⟩ := List.getElem?_eq_some_iff.mp hfirst
    obtain ⟨hk', rfl⟩ := List.getElem?_eq_some_iff.mp hsecond
    exact List.pairwise_iff_getElem.mp kept.spaced k (k + 1) hk hk' (Nat.lt_succ_self k)

example : ((opened 2000).run [.attempt, .pass 10, .drop 0, .pass 1999, .attempt, .pass 1,
    .attempt]).trips.map (·.began) = [0, 2010] := by decide

end Logbook

end ContractSurface
