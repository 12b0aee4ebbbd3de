import Sequencer.Proofs.Counters
import Sequencer.Proofs.Observation
import Sequencer.Proofs.Sample

/-!
# Statistics and events

Counters and events are kept by separate notes in the journal, and they never drift apart: the
statistics of a run are read off its events.  Four counters count events of one kind each.  The
fifth, the depth reached, is the deepest frame that the events announce; a frame is announced by
`nestedEntered` or, one level above it, by `finalizerRan`.
-/

namespace Sequencer

variable {S : Signature} {E A : Type}

namespace TraceEvent

def isRequest : TraceEvent → Bool
  | capabilityResolved _ _ => true
  | capabilityUnresolved _ _ => true
  | _ => false

def isStep : TraceEvent → Bool
  | capabilityResolved _ _ => true
  | capabilityUnresolved _ _ => true
  | failed _ => true
  | nestedEntered _ => true
  | finalizerRegistered _ => true
  | _ => false

def isFinalizerRan : TraceEvent → Bool
  | finalizerRan _ => true
  | _ => false

def isSuppression : TraceEvent → Bool
  | finalizerSuppressed _ => true
  | _ => false

/-- The depth of the frame that opens after the event; zero if none does. -/
def announced : TraceEvent → Nat
  | nestedEntered depth => depth
  | finalizerRan depth => depth + 1
  | _ => 0

end TraceEvent

/-! ## Counters of one kind of event -/

/-- The counter goes up by one at every moment that leaves an event of the kind, and only there. -/
def Counts (S : Signature) (counter : RunStats → Nat) (kind : TraceEvent → Bool) : Prop :=
  ∀ (stats : RunStats) (moment : Moment S),
    counter (moment.count stats) = counter stats + moment.event?.toList.countP kind

theorem Counts.foldl {counter : RunStats → Nat} {kind : TraceEvent → Bool}
    (counts : Counts S counter kind) (stats : RunStats) (history : History S) :
    counter (history.foldl Moment.count stats) =
      counter stats + (fullTrace history).countP kind := by
  induction history generalizing stats with
  | nil => simp
  | cons moment history ih =>
      rw [List.foldl_cons, ih, counts, fullTrace_cons, List.countP_append, Nat.add_assoc]

theorem counts_requests : Counts S RunStats.capabilityRequests TraceEvent.isRequest := by
  intro stats moment
  cases moment <;> rfl

theorem counts_steps : Counts S RunStats.steps TraceEvent.isStep := by
  intro stats moment
  cases moment <;> rfl

theorem counts_finalizersRun : Counts S RunStats.finalizersRun TraceEvent.isFinalizerRan := by
  intro stats moment
  cases moment <;> rfl

theorem counts_suppressed : Counts S RunStats.suppressed TraceEvent.isSuppression := by
  intro stats moment
  cases moment <;> rfl

/-! ## The depth reached -/

def deepest (trace : List TraceEvent) : Nat :=
  (trace.map TraceEvent.announced).foldr max 0

@[simp] theorem deepest_nil : deepest [] = 0 := rfl

@[simp] theorem deepest_cons (event : TraceEvent) (trace : List TraceEvent) :
    deepest (event :: trace) = max event.announced (deepest trace) := rfl

@[simp] theorem deepest_append (before after : List TraceEvent) :
    deepest (before ++ after) = max (deepest before) (deepest after) := by
  induction before with
  | nil => simp
  | cons event before ih => rw [List.cons_append, deepest_cons, ih, deepest_cons, max_assoc]

theorem deepest_moments (discarded : Discarded E) (depth : Nat) :
    deepest (fullTrace (discarded.moments depth : History S)) = 0 := by
  cases discarded <;> rfl

theorem Machine.maxDepth_discard (discarded : Discarded E) (depth : Nat) (suppressed : Array E)
    (state : RunState S) :
    (Machine.discard discarded depth suppressed state).2.journal.stats.maxDepth =
      state.journal.stats.maxDepth := by
  cases discarded <;> simp [Machine.discard]

def Deepens (state : RunState S) (history : History S) (after : RunState S) : Prop :=
  after.journal.stats.maxDepth =
    max state.journal.stats.maxDepth (deepest (fullTrace history))

theorem Deepens.trans {state state' state'' : RunState S} {before after : History S}
    (first : Deepens state before state') (second : Deepens state' after state'') :
    Deepens state (before ++ after) state'' := by
  rw [Deepens, second, first, fullTrace_append, deepest_append, max_assoc]

theorem Deepens.silent {state after : RunState S} {moment : Moment S}
    (kept : after.journal.stats.maxDepth = state.journal.stats.maxDepth)
    (quiet : deepest moment.event?.toList = 0) : Deepens state [moment] after := by
  simp [Deepens, kept, quiet]

/-- A frame reaches its own depth; its event stands outside it. -/
def depthsAnnounced (S : Signature) : RunInvariant S where
  Within _ state history out := Deepens state history out.state
  Nested _ _ state history out := Deepens state history out.state
  Driven _ frame state history out := Deepens (state.reach frame.depth) history out.state
  Drained _ _ state history out := Deepens state history out.state
  value _ _ _ := by simp [Deepens]
  acted h := h
  followed first second := first.trans second
  interrupted _ h := h
  recovered first second := first.trans (Deepens.trans (.silent rfl rfl) second)
  registered _ h := h.trans (.silent (by simp [RunStats.countStep]) rfl)
  resolved _ _ _ := .silent (by simp [RunStats.countStep]) rfl
  unresolved _ _ _ := .silent (by simp [RunStats.countStep]) rfl
  failed _ _ _ := .silent (by simp [RunStats.countStep]) rfl
  detached _ _ := .silent rfl rfl
  nested h := h
  attempted h := h.trans (.silent rfl rfl)
  bracketed {_ _ _ frame state history out} h := by
    -- The frame reaches its depth before its history begins; `entered` announces just that.
    have inside : out.state.journal.stats.maxDepth =
        max (max state.journal.stats.maxDepth frame.depth) (deepest (fullTrace history)) := by
      simpa [Deepens, RunStats.countStep] using h
    simp [Deepens, inside, Moment.event?, TraceEvent.announced, max_assoc]
  driven {_ _ _ _ _ _ before after body out} evaluated drained := by
    have opened := evaluated.trans drained
    simpa [Deepens, Moment.event?] using opened
  drained _ := by simp [Deepens]
  finalized {_ _ settled frame state _ _ before after result out} _ driven drained := by
    have inside : result.state.journal.stats.maxDepth =
        max (max state.journal.stats.maxDepth (frame.depth + 1)) (deepest (fullTrace before)) := by
      simpa [Deepens] using driven
    rw [Deepens, Machine.maxDepth_discard, inside] at drained
    simp [Deepens, drained, deepest_moments, Moment.event?, TraceEvent.announced, max_assoc]

attribute [ext] RunStats

def RunStats.ofEvents (depth : Nat) (trace : List TraceEvent) : RunStats where
  steps := trace.countP TraceEvent.isStep
  capabilityRequests := trace.countP TraceEvent.isRequest
  finalizersRun := trace.countP TraceEvent.isFinalizerRan
  suppressed := trace.countP TraceEvent.isSuppression
  maxDepth := max depth (deepest trace)

theorem Runs.journal_eq {procedures : Procedures S} {sequence : Sequence S E A}
    {context : Context S} {depth : Nat} {config : EngineConfig} {world : S.World}
    {history : History S} {out : Evaluated S E A}
    (run : Runs procedures (.drive sequence) { context, depth } ⟨{ config }, world⟩ history out) :
    out.state.journal =
      .keeping config (.ofEvents depth (fullTrace history)) (fullTrace history) := by
  have replayed : out.state.journal = ({ config } : Journal).replay history := run.replayed
  rw [Journal.replay_fresh] at replayed
  have reached : Deepens (RunState.reach ⟨{ config }, world⟩ depth) history out.state :=
    (depthsAnnounced S).of_runs run
  have maxDepth : (history.foldl Moment.count {}).maxDepth =
      max depth (deepest (fullTrace history)) := by
    simpa [Deepens, replayed, Journal.keeping] using reached
  have stats : history.foldl Moment.count {} = .ofEvents depth (fullTrace history) := by
    ext
    · simp [counts_steps.foldl, RunStats.ofEvents]
    · simp [counts_requests.foldl, RunStats.ofEvents]
    · simp [counts_finalizersRun.foldl, RunStats.ofEvents]
    · simp [counts_suppressed.foldl, RunStats.ofEvents]
    · exact maxDepth
  rw [replayed, stats]

/-! ## All events of a run -/

namespace Interpreter

/-- These are the events of the run: what an engine with room for all of them records. -/
def TracesFully (interpreter : Interpreter S) (sequence : Sequence S E A) (context : Context S)
    (world : S.World) (full : List TraceEvent) : Prop :=
  ∃ capacity report left,
    (Interpreter.mk ⟨true, capacity⟩ interpreter.procedures).Completes sequence context world
      report left ∧
    report.dropped = 0 ∧ report.trace.toList = full

variable {interpreter : Interpreter S} {sequence : Sequence S E A} {context : Context S}
  {world left : S.World} {history : History S} {report : RunReport E A}

theorem Records.tracesFully_iff
    (records : interpreter.Records sequence context world history report left)
    {full : List TraceEvent} :
    interpreter.TracesFully sequence context world full ↔ full = fullTrace history := by
  constructor
  · rintro ⟨capacity, report', left', completes, undropped, rfl⟩
    obtain ⟨history', records'⟩ := completes_iff_records.mp completes
    have same := (records'.unique (records.under ⟨true, capacity⟩)).1
    rw [RunReport.eq_under_iff] at same
    obtain ⟨trace, dropped⟩ := same.2.2.2.2 rfl
    rw [trace, List.take_of_length_le]
    simp only at dropped ⊢
    omega
  · rintro rfl
    have under := records.under ⟨true, (fullTrace history).length⟩
    refine ⟨(fullTrace history).length, _, left, completes_iff_records.mpr ⟨history, under⟩, ?_, ?_⟩
    · simp [RunReport.under, Journal.keeping]
    · simp [RunReport.under, Journal.keeping]

theorem Records.stats_eq
    (records : interpreter.Records sequence context world history report left) :
    report.stats = .ofEvents 0 (fullTrace history) := by
  obtain ⟨out, run, rfl, rfl⟩ := records
  simp [report, Evaluated.driven, run.journal_eq, Journal.keeping]

end Interpreter

/-- The statistics of a completed run are a function of its events, whether these are kept,
dropped or not recorded at all. -/
theorem statistics_follow_events {interpreter : Interpreter S} {sequence : Sequence S E A}
    {context : Context S} {world left : S.World} {report : RunReport E A}
    (completes : interpreter.Completes sequence context world report left) :
    (∃! full, interpreter.TracesFully sequence context world full) ∧
    ∀ full, interpreter.TracesFully sequence context world full →
      report.stats.capabilityRequests = full.countP TraceEvent.isRequest ∧
      report.stats.steps = full.countP TraceEvent.isStep ∧
      report.stats.finalizersRun = full.countP TraceEvent.isFinalizerRan ∧
      report.stats.suppressed = full.countP TraceEvent.isSuppression ∧
      report.stats.maxDepth = (full.map TraceEvent.announced).foldr max 0 := by
  obtain ⟨history, records⟩ := Interpreter.completes_iff_records.mp completes
  constructor
  · exact ⟨fullTrace history, records.tracesFully_iff.mpr rfl,
      fun other traced => records.tracesFully_iff.mp traced⟩
  · intro full traced
    obtain rfl := records.tracesFully_iff.mp traced
    rw [records.stats_eq]
    exact ⟨rfl, rfl, rfl, rfl, Nat.zero_max _⟩

def untidyRequest : Sequence Sample.signature String Nat :=
  ((Sequence.service (Sample.key 0 "limit")).ensuring
    ((Sequence.fail "cleanup" : Sequence Sample.signature String Unit).nested)).nested

theorem statistics_follow_events_untidy : ∃ report full,
    Sample.interpreter.Completes untidyRequest .empty [] report [] ∧
    Sample.interpreter.TracesFully untidyRequest .empty [] full ∧ full.length = 9 ∧
    report.trace = #[] ∧ report.stats.maxDepth = 3 ∧
    report.stats.steps = full.countP TraceEvent.isStep ∧
    3 = (full.map TraceEvent.announced).foldr max 0 := by
  have completes : Sample.interpreter.Completes untidyRequest .empty [] _ [] := ⟨12, rfl⟩
  have traced : Sample.interpreter.TracesFully untidyRequest .empty [] _ :=
    ⟨9, _, [], ⟨12, rfl⟩, rfl, rfl⟩
  obtain ⟨-, steps, -, -, reached⟩ := (statistics_follow_events completes).2 _ traced
  exact ⟨_, _, completes, traced, rfl, rfl, rfl, steps, reached⟩

end Sequencer
