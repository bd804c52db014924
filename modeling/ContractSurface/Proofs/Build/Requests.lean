import ContractSurface.Proofs.Build.Order

/-! # Requests that come while a build is going on

Builds are requested at any time, and each request is followed on its own: what it waits for is its
own affair, everything else it shares with the other ones. What keeps builds apart is then the
flight alone. Of any number of requests at most one waits at a time, the ones that came after it
were skipped, and the flight is out exactly as long as there is one that waits.
-/
namespace ContractSurface

/-- A request, and what has become of it: the steps that it handed out, the one it waits for, and
its result with the time at which it came. -/
structure Request where
  handed : List ExternalStep
  pending : Option Pending
  returned : Option (RunResult × Nat)

namespace Request

def isWaiting (c : Request) : Bool := c.pending.isSome

def isSkipped (c : Request) : Bool :=
  match c.returned with
  | some (.ok (.skipped _), _) => true
  | _ => false

def endOfBuild? (c : Request) : Option Nat :=
  if c.isSkipped then none else c.returned.map (·.2)

def goneOn (c : Request) (o : Orchestrator) (outcome : Option RunResult × Orchestrator) :
    Request where
  handed := c.handed ++ outcome.2.handed.drop o.handed.length
  pending := outcome.2.pending
  returned := outcome.1.map fun result => (result, outcome.2.now)

/-- A request was skipped, waits for a step that it handed out, or has come to the end of its
build. -/
inductive WellFormed : Request → Prop where
  | skipped (reason : SkipReason) (time : Nat) :
    WellFormed ⟨[], none, some (.ok (.skipped reason), time)⟩
  | waiting (earlier : List ExternalStep) (p : Pending) :
    WellFormed ⟨earlier ++ [p.step], some p, none⟩
  | ended (handed : List ExternalStep) (result : Except PipelineError BuildReport) (time : Nat) :
    WellFormed ⟨handed, none, some (result.map .completed, time)⟩

variable {c : Request}

theorem isWaiting_of_pending {p : Pending} (hp : c.pending = some p) : c.isWaiting = true := by
  rw [isWaiting, hp]
  rfl

theorem isSkipped_ended (handed : List ExternalStep) (result : Except PipelineError BuildReport)
    (time : Nat) : isSkipped ⟨handed, none, some (result.map .completed, time)⟩ = false := by
  cases result <;> rfl

theorem endOfBuild?_ended (handed : List ExternalStep)
    (result : Except PipelineError BuildReport) (time : Nat) :
    endOfBuild? ⟨handed, none, some (result.map .completed, time)⟩ = some time := by
  rw [endOfBuild?, isSkipped_ended]
  rfl

/-- A skipped request left nothing behind. -/
theorem WellFormed.eq_of_isSkipped (h : c.WellFormed) (hs : c.isSkipped = true) :
    c.handed = [] ∧ c.isWaiting = false ∧ c.endOfBuild? = none := by
  cases h with
  | skipped reason time => exact ⟨rfl, rfl, rfl⟩
  | waiting earlier p => cases hs
  | ended handed result time =>
    rw [isSkipped_ended] at hs
    cases hs

theorem WellFormed.not_isSkipped (h : c.WellFormed) (hw : c.isWaiting = true) :
    c.isSkipped = false := by
  cases h with
  | waiting earlier p => rfl
  | _ => cases hw

theorem WellFormed.endOfBuild?_of_isWaiting (h : c.WellFormed) (hw : c.isWaiting = true) :
    c.endOfBuild? = none := by
  cases h with
  | waiting earlier p => rfl
  | _ => cases hw

end Request

def buildEnds (cs : List Request) : List Nat := cs.filterMap (·.endOfBuild?)

namespace Orchestrator

/-- Takes up what the runner made of the step that the build waits for, which may be an error of
any kind. -/
def heed (o : Orchestrator) (made : Except PipelineError CommandOutput) :
    Option RunResult × Orchestrator :=
  match made, o.pending with
  | .ok output, _ => o.reply (.ok output)
  | .error e, some _ => o.settle (.done (.error e), o.files)
  | .error _, none => (none, o)

theorem reply_error {o : Orchestrator} {p : Pending} (hp : o.pending = some p) (cause : String) :
    o.reply (.error cause) = o.heed (.error (.spawn p.step.name cause)) := by
  simp only [reply, heed, hp, Job.resume]

inductive GoesOn (o : Orchestrator) : Option RunResult × Orchestrator → Prop where
  | waits (p : Pending) (files : FileStore) :
    GoesOn o (none, { o with files, pending := some p, handed := o.handed ++ [p.step] })
  | ends (result : Except PipelineError BuildReport) (files : FileStore) :
    GoesOn o (some (result.map .completed),
      { o with files, pending := none, flight := o.flight.complete o.now })

theorem goesOn_settle (o : Orchestrator) (p : Progress × FileStore) : o.GoesOn (o.settle p) := by
  obtain ⟨progress, files⟩ := p
  cases progress with
  | waiting job step rest => exact .waits ⟨job, step, rest⟩ files
  | done result => exact .ends result files

theorem settle_pending (o : Orchestrator) (pending : Option Pending) (p : Progress × FileStore) :
    settle { o with pending } p = o.settle p := by
  obtain ⟨progress, files⟩ := p
  cases progress <;> rfl

theorem goesOn_heed {o : Orchestrator} {p : Pending} (hp : o.pending = some p)
    (made : Except PipelineError CommandOutput) : o.GoesOn (o.heed made) := by
  cases made with
  | ok output =>
    rw [heed, reply, hp]
    exact o.goesOn_settle _
  | error e =>
    simp only [heed, hp]
    exact o.goesOn_settle _

def facing (o : Orchestrator) (p : Pending) (files : FileStore) : Orchestrator :=
  { o with files, pending := some p }

def begun (o : Orchestrator) : Orchestrator :=
  { o with flight := { o.flight with isRunning := true }, executions := o.executions + 1 }

theorem request_of_ready {o : Orchestrator} (running : o.flight.isRunning = false)
    (resting : o.flight.isResting o.now = false) :
    o.request = o.begun.settle (startBuild o.settings o.options o.files) := by
  simp [request, Flight.tryBegin, begun, running, resting]

/-- A request is skipped while the flight is out or rests, and begins a build otherwise. -/
theorem request_cases (o : Orchestrator) :
    (o.flight.isRunning = true ∧ o.request = (some (.ok (.skipped .inFlight)), o)) ∨
    (o.flight.isRunning = false ∧ o.flight.isResting o.now = true ∧
      o.request = (some (.ok (.skipped .debounced)), o)) ∨
    (o.flight.isRunning = false ∧ o.flight.isResting o.now = false ∧
      o.begun.GoesOn o.request) := by
  cases running : o.flight.isRunning with
  | true => exact Or.inl ⟨rfl, by simp [request, Flight.tryBegin, running]⟩
  | false =>
    right
    cases resting : o.flight.isResting o.now with
    | true => exact Or.inl ⟨rfl, rfl, by simp [request, Flight.tryBegin, running, resting]⟩
    | false =>
      refine Or.inr ⟨rfl, rfl, ?_⟩
      rw [request_of_ready running resting]
      exact o.begun.goesOn_settle _

end Orchestrator

/-- The orchestrator that all requests share, and the requests in the order in which they came. -/
structure Desk where
  shared : Orchestrator
  requests : List Request

namespace Desk

/-- What happens at a desk: a build is requested, the runner has made something of the step that a
request waits for and of the files, time passes, or files are changed by someone else. -/
inductive Event where
  | request
  | heed (k : Nat) (made : Except PipelineError CommandOutput) (files : FileStore)
  | pass (milliseconds : Nat)
  | edit (files : FileStore)

def ofSettings (settings : BuildSettings) (options : SessionOptions) (files : FileStore) : Desk :=
  ⟨.ofSettings settings options files, []⟩

def request (d : Desk) : Desk :=
  let outcome := d.shared.request
  ⟨{ outcome.2 with pending := none },
    d.requests ++ [Request.goneOn ⟨[], none, none⟩ d.shared outcome]⟩

/-- The request goes on with what the runner made of its step; one that does not wait is left
alone. -/
def heed (d : Desk) (k : Nat) (made : Except PipelineError CommandOutput) (files : FileStore) :
    Desk :=
  match d.requests[k]? with
  | none => d
  | some c =>
    match c.pending with
    | none => d
    | some p =>
      let outcome := (d.shared.facing p files).heed made
      ⟨{ outcome.2 with pending := none },
        d.requests.set k (c.goneOn (d.shared.facing p files) outcome)⟩

def after (d : Desk) : Event → Desk
  | .request => d.request
  | .heed k made files => d.heed k made files
  | .pass milliseconds => { d with shared := d.shared.advance milliseconds }
  | .edit files => { d with shared := { d.shared with files } }

def run (d : Desk) (events : List Event) : Desk := events.foldl after d

/-- The steps that were handed out are those of the requests, one block after the other. The builds
that were begun are the requests that were not skipped. The flight is out while a request waits, and
it keeps the time at which the last build ended. All that came behind a request that waits was
skipped. -/
structure Orderly (quiet : Nat) (d : Desk) : Prop where
  pending : d.shared.pending = none
  handed : d.shared.handed = d.requests.flatMap (·.handed)
  executions : d.shared.executions = d.requests.countP (!·.isSkipped)
  flight : d.shared.flight =
    ⟨quiet, d.requests.any (·.isWaiting), (buildEnds d.requests).getLast?⟩
  past : ∀ t ∈ buildEnds d.requests, t ≤ d.shared.now
  ordered : (buildEnds d.requests).Pairwise (· ≤ ·)
  wellFormed : ∀ c ∈ d.requests, c.WellFormed
  apart : d.requests.Pairwise fun c c' => c.isWaiting = true → c'.isSkipped = true

def NoneWaits (cs : List Request) : Prop := ∀ x ∈ cs, x.WellFormed ∧ x.isWaiting = false

def AllSkipped (cs : List Request) : Prop := ∀ x ∈ cs, x.WellFormed ∧ x.isSkipped = true

/-- The build of the request `c` is at work. No request before it waits, and every later one was
skipped. -/
structure AtWork (quiet : Nat) (o : Orchestrator) (earlier : List Request) (c : Request)
    (later : List Request) : Prop where
  handed : o.handed = earlier.flatMap (·.handed) ++ c.handed
  executions : o.executions = earlier.countP (!·.isSkipped) + 1
  flight : o.flight = ⟨quiet, true, (buildEnds earlier).getLast?⟩
  past : ∀ t ∈ buildEnds earlier, t ≤ o.now
  ordered : (buildEnds earlier).Pairwise (· ≤ ·)
  before : NoneWaits earlier
  behind : AllSkipped later

variable {quiet : Nat} {d : Desk} {o : Orchestrator} {earlier later : List Request} {c : Request}

theorem NoneWaits.any_isWaiting (he : NoneWaits earlier) : earlier.any (·.isWaiting) = false :=
  List.any_eq_false.mpr fun x hx => by rw [(he x hx).2]; decide

theorem AllSkipped.noneWaits (hl : AllSkipped later) : NoneWaits later :=
  fun x hx => ⟨(hl x hx).1, ((hl x hx).1.eq_of_isSkipped (hl x hx).2).2.1⟩

-- Requests behind the one that works leave no trace, since they were skipped.

section Split

variable (hl : AllSkipped later)
include hl

theorem handed_split : (earlier ++ c :: later).flatMap (·.handed) =
    earlier.flatMap (·.handed) ++ c.handed := by
  have none : later.flatMap (·.handed) = [] :=
    List.flatMap_eq_nil_iff.mpr fun x hx => ((hl x hx).1.eq_of_isSkipped (hl x hx).2).1
  rw [List.flatMap_append, List.flatMap_cons, none, List.append_nil]

theorem executions_split (hc : c.isSkipped = false) :
    (earlier ++ c :: later).countP (!·.isSkipped) = earlier.countP (!·.isSkipped) + 1 := by
  have none : later.countP (!·.isSkipped) = 0 :=
    List.countP_eq_zero.mpr fun x hx => by rw [(hl x hx).2]; decide
  have one : (c :: later).countP (!·.isSkipped) = 1 := by
    rw [List.countP_cons_of_pos (by rw [hc]; rfl), none]
  rw [List.countP_append, one]

theorem waiting_split (he : NoneWaits earlier) :
    (earlier ++ c :: later).any (·.isWaiting) = c.isWaiting := by
  rw [List.any_append, List.any_cons, he.any_isWaiting, hl.noneWaits.any_isWaiting, Bool.false_or,
    Bool.or_false]

theorem buildEnds_split :
    buildEnds (earlier ++ c :: later) = buildEnds earlier ++ c.endOfBuild?.toList := by
  have none : later.filterMap (·.endOfBuild?) = [] :=
    List.filterMap_eq_nil_iff.mpr fun x hx => ((hl x hx).1.eq_of_isSkipped (hl x hx).2).2.2
  unfold buildEnds
  rw [List.filterMap_append, List.filterMap_cons, none]
  cases c.endOfBuild? <;> rfl

end Split

theorem apart_split (hl : AllSkipped later) (he : NoneWaits earlier) :
    (earlier ++ c :: later).Pairwise fun c c' => c.isWaiting = true → c'.isSkipped = true := by
  have idle {x y : Request} (hx : x ∈ earlier) (waiting : x.isWaiting = true) :
      y.isSkipped = true := by
    rw [(he x hx).2] at waiting
    cases waiting
  refine List.pairwise_append.mpr ⟨?_, List.pairwise_cons.mpr ⟨?_, ?_⟩, ?_⟩
  · exact List.pairwise_of_forall_mem_list fun x hx y _ => idle hx
  · exact fun x hx _ => (hl x hx).2
  · exact List.pairwise_of_forall_mem_list fun x _ y hy _ => (hl y hy).2
  · exact fun x hx y _ => idle hx

theorem wellFormed_split (hl : AllSkipped later) (he : NoneWaits earlier) (hc : c.WellFormed) :
    ∀ x ∈ earlier ++ c :: later, x.WellFormed := by
  intro x hx
  rcases List.mem_append.mp hx with hx | hx
  · exact (he x hx).1
  · rcases List.mem_cons.mp hx with rfl | hx
    · exact hc
    · exact (hl x hx).1

/-- A build at work goes on in good order. -/
theorem AtWork.orderly (h : AtWork quiet o earlier c later)
    {outcome : Option RunResult × Orchestrator} (hg : o.GoesOn outcome) :
    Orderly quiet ⟨{ outcome.2 with pending := none }, earlier ++ c.goneOn o outcome :: later⟩ := by
  cases hg with
  | waits p files =>
    have gone : c.goneOn o (none,
        { o with files, pending := some p, handed := o.handed ++ [p.step] }) =
        ⟨c.handed ++ [p.step], some p, none⟩ := by simp [Request.goneOn]
    have ends : buildEnds (earlier ++ ⟨c.handed ++ [p.step], some p, none⟩ :: later) =
        buildEnds earlier := (buildEnds_split h.behind).trans (List.append_nil _)
    rw [gone]
    refine ⟨rfl, ?_, ?_, ?_, ?_, ?_, ?_, apart_split h.behind h.before⟩
    · rw [handed_split h.behind, ← List.append_assoc, ← h.handed]
    · rw [executions_split h.behind rfl]
      exact h.executions
    · rw [waiting_split h.behind h.before, ends]
      exact h.flight
    · rw [ends]
      exact h.past
    · rw [ends]
      exact h.ordered
    · exact wellFormed_split h.behind h.before (.waiting _ p)
  | ends result files =>
    have gone : c.goneOn o (some (result.map .completed),
        { o with files, pending := none, flight := o.flight.complete o.now }) =
        ⟨c.handed, none, some (result.map .completed, o.now)⟩ := by simp [Request.goneOn]
    have ends : buildEnds (earlier ++
        ⟨c.handed, none, some (result.map .completed, o.now)⟩ :: later) =
        buildEnds earlier ++ [o.now] := by
      rw [buildEnds_split h.behind, Request.endOfBuild?_ended]
      rfl
    rw [gone]
    refine ⟨rfl, ?_, ?_, ?_, ?_, ?_, ?_, apart_split h.behind h.before⟩
    · rw [handed_split h.behind, ← h.handed]
    · rw [executions_split h.behind (Request.isSkipped_ended _ result _)]
      exact h.executions
    · rw [waiting_split h.behind h.before, ends, List.getLast?_concat, h.flight]
      rfl
    · rw [ends]
      intro t ht
      rcases List.mem_append.mp ht with ht | ht
      · exact h.past t ht
      · exact Nat.le_of_eq (List.mem_singleton.mp ht)
    · rw [ends]
      refine List.pairwise_append.mpr ⟨h.ordered, List.pairwise_singleton _ _, ?_⟩
      intro t ht now hnow
      rw [List.mem_singleton.mp hnow]
      exact h.past t ht
    · exact wellFormed_split h.behind h.before (.ended _ result _)

/-- The request that waits is at work. -/
theorem Orderly.atWork (h : Orderly quiet d) (hd : d.requests = earlier ++ c :: later)
    (hc : c.isWaiting = true) (p : Pending) (files : FileStore) :
    AtWork quiet (d.shared.facing p files) earlier c later := by
  have wellFormed := h.wellFormed
  have apart := h.apart
  rw [hd] at wellFormed apart
  obtain ⟨_, among, across⟩ := List.pairwise_append.mp apart
  have whole := wellFormed c (by simp)
  have unskipped : c.isSkipped = false := whole.not_isSkipped hc
  have before : NoneWaits earlier := by
    intro x hx
    refine ⟨wellFormed x (List.mem_append_left _ hx), ?_⟩
    -- behind an earlier request that waits, this one would have been skipped
    cases waiting : x.isWaiting with
    | false => rfl
    | true =>
      have skipped := across x hx c List.mem_cons_self waiting
      rw [unskipped] at skipped
      cases skipped
  have behind : AllSkipped later := by
    intro x hx
    refine ⟨wellFormed x (List.mem_append_right _ (List.mem_cons_of_mem _ hx)), ?_⟩
    exact (List.pairwise_cons.mp among).1 x hx hc
  have unended : c.endOfBuild? = none := whole.endOfBuild?_of_isWaiting hc
  have ends : buildEnds d.requests = buildEnds earlier := by
    rw [hd, buildEnds_split behind, unended]
    exact List.append_nil _
  refine ⟨?_, ?_, ?_, ?_, ?_, before, behind⟩
  · rw [← handed_split behind, ← hd]
    exact h.handed
  · rw [← executions_split behind unskipped, ← hd]
    exact h.executions
  · rw [← ends, ← hc, ← waiting_split behind before, ← hd]
    exact h.flight
  · rw [← ends]
    exact h.past
  · rw [← ends]
    exact h.ordered

/-- A request that is skipped changes nothing but the list of requests. -/
theorem Orderly.skip (h : Orderly quiet d) (reason : SkipReason) (time : Nat) :
    Orderly quiet ⟨d.shared, d.requests ++ [⟨[], none, some (.ok (.skipped reason), time)⟩]⟩ := by
  have wellFormed := Request.WellFormed.skipped reason time
  have ends : buildEnds (d.requests ++ [⟨[], none, some (.ok (.skipped reason), time)⟩]) =
      buildEnds d.requests := by
    simp [buildEnds, Request.endOfBuild?, Request.isSkipped]
  refine ⟨h.pending, ?_, ?_, ?_, ?_, ?_, ?_, ?_⟩
  · simpa using h.handed
  · simpa [Request.isSkipped] using h.executions
  · rw [ends]
    simpa [Request.isWaiting] using h.flight
  · rw [ends]
    exact h.past
  · rw [ends]
    exact h.ordered
  · intro x hx
    rcases List.mem_append.mp hx with hx | hx
    · exact h.wellFormed x hx
    · exact List.mem_singleton.mp hx ▸ wellFormed
  · refine List.pairwise_append.mpr ⟨h.apart, List.pairwise_singleton _ _, ?_⟩
    intro x _ y hy _
    rw [List.mem_singleton.mp hy]
    rfl

/-- A request that starts a build is the one at work. -/
theorem Orderly.begun (h : Orderly quiet d) (hr : d.shared.flight.isRunning = false) :
    AtWork quiet d.shared.begun d.requests ⟨[], none, none⟩ [] := by
  have unwaiting : d.requests.any (·.isWaiting) = false := by
    rw [h.flight] at hr
    exact hr
  refine ⟨?_, ?_, ?_, h.past, h.ordered, ?_, nofun⟩
  · rw [List.append_nil]
    exact h.handed
  · exact congrArg (· + 1) h.executions
  · rw [Orchestrator.begun, h.flight]
  · intro x hx
    have waiting := List.any_eq_false.mp unwaiting x hx
    exact ⟨h.wellFormed x hx, by simpa using waiting⟩

/-- A request is skipped while another one waits, or in the quiet time after the last build. Any
other request begins a build. -/
theorem request_cases (h : d.shared.pending = none) :
    (∃ reason, d.request = ⟨d.shared,
        d.requests ++ [⟨[], none, some (.ok (.skipped reason), d.shared.now)⟩]⟩ ∧
      (reason = .inFlight ∧ d.shared.flight.isRunning = true ∨
        reason = .debounced ∧ d.shared.flight.isRunning = false ∧
          d.shared.flight.isResting d.shared.now = true)) ∨
    (d.shared.flight.isRunning = false ∧ d.shared.flight.isResting d.shared.now = false ∧
      d.shared.begun.GoesOn d.shared.request ∧
      d.request = ⟨{ d.shared.request.2 with pending := none },
        d.requests ++ [Request.goneOn ⟨[], none, none⟩ d.shared.begun d.shared.request]⟩) := by
  have same : { d.shared with pending := none } = d.shared := by rw [← h]
  rcases d.shared.request_cases with ⟨running, skipped⟩ | ⟨running, resting, skipped⟩ |
    ⟨running, resting, goes⟩
  · refine Or.inl ⟨.inFlight, ?_, Or.inl ⟨rfl, running⟩⟩
    simp [request, skipped, Request.goneOn, h, same]
  · refine Or.inl ⟨.debounced, ?_, Or.inr ⟨rfl, running, resting⟩⟩
    simp [request, skipped, Request.goneOn, h, same]
  · exact Or.inr ⟨running, resting, goes, rfl⟩

theorem Orderly.request (h : Orderly quiet d) : Orderly quiet d.request := by
  rcases d.request_cases h.pending with ⟨reason, skipped, _⟩ | ⟨running, _, goes, began⟩
  · rw [skipped]
    exact h.skip reason _
  · rw [began]
    exact (h.begun running).orderly goes

/-- A request that waits goes on with what the runner made; for any other one nothing happens. -/
theorem heed_cases (d : Desk) (k : Nat) (made : Except PipelineError CommandOutput)
    (files : FileStore) :
    (d.requests[k]?.bind (·.pending) = none ∧ d.heed k made files = d) ∨
      ∃ earlier c later p, d.requests = earlier ++ c :: later ∧ earlier.length = k ∧
        c.pending = some p ∧
        d.heed k made files = ⟨{ ((d.shared.facing p files).heed made).2 with pending := none },
          earlier ++ c.goneOn (d.shared.facing p files) ((d.shared.facing p files).heed made) ::
            later⟩ := by
  cases hk : d.requests[k]? with
  | none => exact Or.inl ⟨rfl, by rw [heed, hk]⟩
  | some c =>
    cases hp : c.pending with
    | none =>
      refine Or.inl ⟨hp, ?_⟩
      rw [heed, hk]
      simp only [hp]
    | some p =>
      right
      obtain ⟨hlt, rfl⟩ := List.getElem?_eq_some_iff.mp hk
      obtain ⟨earlier, later, split, length, replaced⟩ := List.exists_of_set hlt
      refine ⟨earlier, _, later, p, split, length, hp, ?_⟩
      rw [heed, hk, ← replaced]
      simp only [hp]

theorem Orderly.heed (h : Orderly quiet d) (k : Nat)
    (made : Except PipelineError CommandOutput) (files : FileStore) :
    Orderly quiet (d.heed k made files) := by
  rcases d.heed_cases k made files with ⟨_, same⟩ | ⟨earlier, c, later, p, split, _, hp, gone⟩
  · rwa [same]
  · rw [gone]
    have waiting := Request.isWaiting_of_pending hp
    exact (h.atWork split waiting p files).orderly (Orchestrator.goesOn_heed rfl made)

theorem Orderly.after (h : Orderly quiet d) (e : Event) : Orderly quiet (d.after e) := by
  cases e with
  | request => exact h.request
  | heed k made files => exact h.heed k made files
  | pass milliseconds =>
    have past : ∀ t ∈ buildEnds d.requests, t ≤ d.shared.now + milliseconds :=
      fun t ht => Nat.le_trans (h.past t ht) (Nat.le_add_right _ _)
    exact ⟨h.pending, h.handed, h.executions, h.flight, past, h.ordered, h.wellFormed, h.apart⟩
  | edit files =>
    exact ⟨h.pending, h.handed, h.executions, h.flight, h.past, h.ordered, h.wellFormed, h.apart⟩

/-- Whatever happens at a desk, its requests are in order. -/
theorem orderly_run (settings : BuildSettings) (options : SessionOptions) (files : FileStore)
    (events : List Event) :
    Orderly settings.debounceMs ((ofSettings settings options files).run events) := by
  have start : Orderly settings.debounceMs (ofSettings settings options files) :=
    ⟨rfl, rfl, rfl, rfl, nofun, .nil, nofun, .nil⟩
  generalize ofSettings settings options files = d at start
  unfold run
  induction events generalizing d with
  | nil => exact start
  | cons e events ih => exact ih _ (start.after e)

/-- The orchestrator that keeps the one build that waits in a place of its own. -/
def oneSlot (d : Desk) : Orchestrator :=
  { d.shared with pending := d.requests.findSome? (·.pending) }

def Event.onOneSlot (d : Desk) (o : Orchestrator) : Event → Orchestrator
  | .request => o.request.2
  | .heed k made files =>
    match d.requests[k]?.bind (·.pending) with
    | some _ => (Orchestrator.heed { o with files } made).2
    | none => o
  | .pass milliseconds => o.advance milliseconds
  | .edit files => { o with files }

theorem NoneWaits.findSome?_pending (he : NoneWaits earlier) :
    earlier.findSome? (·.pending) = none := by
  refine List.findSome?_eq_none_iff.mpr fun x hx => ?_
  have idle := (he x hx).2
  rwa [Request.isWaiting, Option.isSome_eq_false_iff, Option.isNone_iff_eq_none] at idle

theorem findSome?_split (he : NoneWaits earlier) (hl : NoneWaits later) :
    (earlier ++ c :: later).findSome? (·.pending) = c.pending := by
  rw [List.findSome?_append, he.findSome?_pending, List.findSome?_cons, hl.findSome?_pending]
  cases c.pending <;> rfl

/-- An orchestrator with one place for a build goes the same way as a desk, since no second build
is ever there to be put into it. -/
theorem Orderly.oneSlot_after (h : Orderly quiet d) (e : Event) :
    (d.after e).oneSlot = e.onOneSlot d d.oneSlot := by
  cases e with
  | request =>
    show d.request.oneSlot = d.oneSlot.request.2
    rcases d.request_cases h.pending with ⟨reason, skipped, why⟩ | ⟨running, resting, _, began⟩
    · have same : d.oneSlot.request.2 = d.oneSlot := by
        rcases d.oneSlot.request_cases with ⟨_, eq⟩ | ⟨_, _, eq⟩ | ⟨running', resting', _⟩
        · rw [eq]
        · rw [eq]
        · rcases why with ⟨_, running⟩ | ⟨_, _, resting⟩
          · exact absurd (running.symm.trans running') (by decide)
          · exact absurd (resting.symm.trans resting') (by decide)
      rw [skipped, same]
      simp [oneSlot]
    · have work := h.begun running
      have same : d.oneSlot.request = d.shared.request := by
        rw [Orchestrator.request_of_ready running resting,
          ← d.shared.begun.settle_pending (d.requests.findSome? (·.pending))]
        exact Orchestrator.request_of_ready (o := d.oneSlot) running resting
      rw [same, began, oneSlot, findSome?_split work.before work.behind.noneWaits]
      rfl
  | heed k made files =>
    show (d.heed k made files).oneSlot = _
    rcases d.heed_cases k made files with
      ⟨idle, same⟩ | ⟨earlier, c, later, p, split, length, hp, gone⟩
    · rw [same, Event.onOneSlot, idle]
    · have waiting := Request.isWaiting_of_pending hp
      have work := h.atWork split waiting p files
      have behind := work.behind.noneWaits
      have slot : d.requests.findSome? (·.pending) = some p := by
        rw [split, findSome?_split work.before behind, hp]
      have own : d.requests[k]?.bind (·.pending) = some p := by
        rw [split, ← length]
        simpa using hp
      rw [gone, oneSlot, findSome?_split work.before behind, Event.onOneSlot, own, oneSlot, slot]
      rfl
  | pass milliseconds => rfl
  | edit files => rfl

def IsBusy (d : Desk) : Prop := ∃ c ∈ d.requests, c.isWaiting = true

def IsResting (quiet : Nat) (d : Desk) : Prop :=
  ∃ t, (buildEnds d.requests).getLast? = some t ∧ d.shared.now < t + quiet

theorem Orderly.isRunning_iff (h : Orderly quiet d) :
    d.shared.flight.isRunning = true ↔ d.IsBusy := by
  rw [h.flight]
  exact List.any_eq_true

/-- The flight rests for the quiet time after the last build. -/
theorem Orderly.isResting_iff (h : Orderly quiet d) :
    d.shared.flight.isResting d.shared.now = true ↔ d.IsResting quiet := by
  rw [h.flight, Flight.isResting, IsResting]
  cases last : (buildEnds d.requests).getLast? with
  | none => simp
  | some t =>
    have past := h.past t (List.mem_of_getLast? last)
    constructor
    · intro early
      have early : d.shared.now - t < quiet := of_decide_eq_true early
      exact ⟨t, rfl, by omega⟩
    · rintro ⟨u, hu, early⟩
      cases hu
      have early : d.shared.now - t < quiet := by omega
      exact decide_eq_true early

/-- At most one request waits for a step. -/
theorem Orderly.countP_isWaiting_le (h : Orderly quiet d) :
    d.requests.countP (·.isWaiting) ≤ 1 := by
  have wellFormed := h.wellFormed
  have apart := h.apart
  generalize d.requests = cs at wellFormed apart
  induction cs with
  | nil => exact Nat.zero_le _
  | cons c cs ih =>
    obtain ⟨first, rest⟩ := List.pairwise_cons.mp apart
    by_cases waiting : c.isWaiting = true
    · have none : cs.countP (·.isWaiting) = 0 := by
        refine List.countP_eq_zero.mpr fun x hx => ?_
        have whole := wellFormed x (List.mem_cons_of_mem _ hx)
        rw [(whole.eq_of_isSkipped (first x hx waiting)).2.1]
        decide
      have one : (c :: cs).countP (·.isWaiting) = 1 := by
        rw [List.countP_cons_of_pos waiting, none]
      exact Nat.le_of_eq one
    · rw [List.countP_cons_of_neg waiting]
      exact ih (fun x hx => wellFormed x (List.mem_cons_of_mem _ hx)) rest

/-- What becomes of a request that comes now. -/
theorem Orderly.request_outcome (h : Orderly quiet d) :
    ∃ c, d.request.requests = d.requests ++ [c] ∧
      (d.IsBusy → c = ⟨[], none, some (.ok (.skipped .inFlight), d.shared.now)⟩ ∧
        d.request.shared = d.shared) ∧
      (¬d.IsBusy → d.IsResting quiet →
        c = ⟨[], none, some (.ok (.skipped .debounced), d.shared.now)⟩ ∧
          d.request.shared = d.shared) ∧
      (¬d.IsBusy → ¬d.IsResting quiet → c.isSkipped = false ∧
        d.request.shared.executions = d.shared.executions + 1) := by
  rw [← h.isRunning_iff, ← h.isResting_iff]
  rcases d.request_cases h.pending with ⟨reason, skipped, why⟩ | ⟨running, resting, goes, began⟩
  · rw [skipped]
    rcases why with ⟨rfl, running⟩ | ⟨rfl, running, resting⟩
    · exact ⟨_, rfl, fun _ => ⟨rfl, rfl⟩, fun idle => absurd running idle,
        fun idle => absurd running idle⟩
    · refine ⟨_, rfl, fun busy => ?_, fun _ _ => ⟨rfl, rfl⟩, fun _ awake => absurd resting awake⟩
      rw [running] at busy
      cases busy
  · rw [began, running, resting]
    refine ⟨_, rfl, nofun, fun _ => nofun, fun _ _ => ?_⟩
    generalize d.shared.request = outcome at goes ⊢
    cases goes with
    | waits p files => exact ⟨rfl, rfl⟩
    | ends result files => exact ⟨by cases result <;> rfl, rfl⟩

theorem getElem?_of_concat {α : Type} {xs : List α} {a x : α} {k : Nat}
    (h : (xs ++ [a])[k]? = some x) : x = a ∨ xs[k]? = some x := by
  rcases Nat.lt_or_ge k xs.length with hk | hk
  · right
    rwa [List.getElem?_append_left hk] at h
  · left
    rw [List.getElem?_append_right hk] at h
    exact List.mem_singleton.mp (List.mem_of_getElem? h)

theorem getElem?_of_split {α : Type} {xs ys : List α} {a b x : α} {k : Nat}
    (h : (xs ++ a :: ys)[k]? = some x) : x = a ∨ (xs ++ b :: ys)[k]? = some x := by
  rcases Nat.lt_trichotomy k xs.length with hk | rfl | hk
  · right
    rwa [List.getElem?_append_left hk] at h ⊢
  · left
    simpa using h.symm
  · right
    obtain ⟨j, rfl⟩ := Nat.exists_eq_add_of_lt hk
    simpa [List.getElem?_append, Nat.add_assoc] using h

/-- When the build at work ends, the flight comes back at that time. -/
theorem AtWork.released (h : AtWork quiet o earlier c later)
    {outcome : Option RunResult × Orchestrator} (hg : o.GoesOn outcome)
    (hr : (c.goneOn o outcome).returned ≠ none) :
    outcome.2.flight = ⟨quiet, false, some outcome.2.now⟩ := by
  cases hg with
  | waits p files => exact absurd rfl hr
  | ends result files =>
    show o.flight.complete o.now = _
    rw [h.flight]
    rfl

/-- When the build of a request returns, the flight is back and the quiet time begins. -/
theorem Orderly.released (h : Orderly quiet d) {e : Event} {k : Nat}
    (hk : (d.after e).requests[k]? = some c) (unskipped : c.isSkipped = false)
    (returned : c.returned ≠ none)
    (before : ∀ b, d.requests[k]? = some b → b.returned = none) :
    (d.after e).shared.flight = ⟨quiet, false, some (d.after e).shared.now⟩ := by
  cases e with
  | request =>
    show d.request.shared.flight = ⟨quiet, false, some d.request.shared.now⟩
    rcases d.request_cases h.pending with ⟨reason, skipped, _⟩ | ⟨running, _, goes, began⟩
    · have hk : d.request.requests[k]? = some c := hk
      rw [skipped] at hk
      rcases getElem?_of_concat hk with rfl | same
      · cases unskipped
      · exact absurd (before c same) returned
    · have hk : d.request.requests[k]? = some c := hk
      rw [began] at hk ⊢
      rcases getElem?_of_concat hk with rfl | same
      · exact (h.begun running).released goes returned
      · exact absurd (before c same) returned
  | heed j made files =>
    have hk : (d.heed j made files).requests[k]? = some c := hk
    show (d.heed j made files).shared.flight = ⟨quiet, false, some (d.heed j made files).shared.now⟩
    rcases d.heed_cases j made files with ⟨_, same⟩ | ⟨earlier, b, later, p, split, _, hp, gone⟩
    · rw [same] at hk
      exact absurd (before c hk) returned
    · rw [gone] at hk ⊢
      rcases getElem?_of_split hk with rfl | same
      · have waiting := Request.isWaiting_of_pending hp
        have work := h.atWork split waiting p files
        exact work.released (Orchestrator.goesOn_heed rfl made) returned
      · exact absurd (before c (split ▸ same)) returned
  | pass milliseconds => exact absurd (before c hk) returned
  | edit files => exact absurd (before c hk) returned

/-- Builds do not overlap, however requests, steps, time and changes of files are interleaved. At
any time the desk is orderly, so that steps were handed out in one block for each build. A request
that comes now is skipped and changes nothing while a build waits, or in the quiet time after the
last one; any other request begins a build. When a build returns, the flight is back. An
orchestrator with one place for a build goes the same way. -/
theorem builds_do_not_overlap (settings : BuildSettings) (options : SessionOptions)
    (files : FileStore) (events : List Event) :
    let d := (ofSettings settings options files).run events
    Orderly settings.debounceMs d ∧ d.requests.countP (·.isWaiting) ≤ 1 ∧
    (∃ c, d.request.requests = d.requests ++ [c] ∧
      (d.IsBusy → c = ⟨[], none, some (.ok (.skipped .inFlight), d.shared.now)⟩ ∧
        d.request.shared = d.shared) ∧
      (¬d.IsBusy → d.IsResting settings.debounceMs →
        c = ⟨[], none, some (.ok (.skipped .debounced), d.shared.now)⟩ ∧
          d.request.shared = d.shared) ∧
      (¬d.IsBusy → ¬d.IsResting settings.debounceMs → c.isSkipped = false ∧
        d.request.shared.executions = d.shared.executions + 1)) ∧
    ∀ e : Event, (d.after e).oneSlot = e.onOneSlot d d.oneSlot ∧
      ∀ (k : Nat) (c : Request), (d.after e).requests[k]? = some c → c.isSkipped = false →
        c.returned ≠ none → (∀ b : Request, d.requests[k]? = some b → b.returned = none) →
        (d.after e).shared.flight =
          ⟨settings.debounceMs, false, some (d.after e).shared.now⟩ := by
  intro d
  have orderly : Orderly settings.debounceMs d := orderly_run settings options files events
  refine ⟨orderly, orderly.countP_isWaiting_le, orderly.request_outcome, fun e => ?_⟩
  refine ⟨orderly.oneSlot_after e, ?_⟩
  intro k c hk unskipped returned before
  exact orderly.released hk unskipped returned before

/-- Of two requests the second comes while the first one waits. When the step of that one fails,
its build returns, and a third request comes just too soon. -/
theorem voteDesk_skips_second_and_third :
    let desk := ofSettings voteBuild.settings voteBuild.options voteBuild.files
    let fails := Event.heed 0 (.ok ⟨some 2, "", ""⟩) voteBuild.files
    let early := desk.run [.request, .pass 10, .request]
    let late := desk.run [.request, .pass 10, .request, fails, .pass 1999]
    early.requests.map (·.isSkipped) = [false, true] ∧
    (early.after fails).shared.flight = ⟨2000, false, some 10⟩ ∧
    late.shared.handed = [⟨"build contract", "make", [], some "contract"⟩] ∧
    ∃ c, late.request.requests = late.requests ++ [c] ∧ late.request.shared = late.shared ∧
      c.returned = some (.ok (.skipped .debounced), 2009) := by
  intro desk fails early late
  obtain ⟨_, _, _, returns⟩ := builds_do_not_overlap voteBuild.settings voteBuild.options
    voteBuild.files [.request, .pass 10, .request]
  obtain ⟨orderly, _, ⟨c, came, _, rests, _⟩, _⟩ := builds_do_not_overlap voteBuild.settings
    voteBuild.options voteBuild.files [.request, .pass 10, .request, fails, .pass 1999]
  have first : ((early.after fails).requests[0]?.map fun a => (a.isSkipped, a.returned.isSome)) =
      some (false, true) := by decide +kernel
  obtain ⟨a, ha, state⟩ := Option.map_eq_some_iff.mp first
  obtain ⟨unskipped, returned⟩ := Prod.mk.inj state
  have waits : early.requests[0]?.bind (·.returned) |>.isNone := by decide +kernel
  have idle : ¬late.IsBusy := by
    rw [← orderly.isRunning_iff]
    decide +kernel
  have resting : late.IsResting 2000 := ⟨10, by decide +kernel, by decide +kernel⟩
  have time : late.shared.now = 2009 := by decide +kernel
  obtain ⟨skipped, same⟩ := rests idle resting
  refine ⟨by decide +kernel, ?_, by decide +kernel, c, came, same, ?_⟩
  · refine ((returns fails).2 0 a ha unskipped ?_ ?_).trans ?_
    · intro none
      rw [none] at returned
      cases returned
    · intro b hb
      have hb : early.requests[0]? = some b := hb
      rw [hb] at waits
      simpa using waits
    · decide +kernel
  · rw [skipped]
    exact congrArg (fun now => some (Except.ok (RunOutcome.skipped .debounced), now)) time

end Desk

end ContractSurface
