import Sequencer.Proofs.RunInvariant

/-!
# Replaying a history

The journal of a run is its history written down: each moment counts what it counts and
records what it records, wherever in the run it happens.  The configuration decides how much
of the record is kept, and nothing else.
-/

namespace Sequencer

variable {S : Signature} {E A : Type}

def Moment.event? : Moment S → Option TraceEvent
  | .resolved depth capability => some (.capabilityResolved depth capability.name)
  | .unresolved depth capability => some (.capabilityUnresolved depth capability.name)
  | .failed depth _ => some (.failed depth)
  | .entered depth => some (.nestedEntered depth)
  | .exited depth ok => some (.nestedExited depth ok)
  | .registered depth _ => some (.finalizerRegistered depth)
  | .finalizing depth => some (.finalizerRan depth)
  | .suppressed depth _ => some (.finalizerSuppressed depth)
  | .outlived depth => some (.finalizerSuppressed depth)
  | _ => none

def Moment.count (stats : RunStats) : Moment S → RunStats
  | .opened _ _ depth => { stats with maxDepth := max stats.maxDepth depth }
  | .resolved _ _ => stats.countStep .requestCapability
  | .unresolved _ _ => stats.countStep .requestCapability
  | .failed _ _ => stats.countStep .fail
  | .entered _ => stats.countStep .runNested
  | .registered _ _ => stats.countStep .finalize
  | .finalizing _ => { stats with finalizersRun := stats.finalizersRun + 1 }
  | .suppressed _ _ => { stats with suppressed := stats.suppressed + 1 }
  | .outlived _ => { stats with suppressed := stats.suppressed + 1 }
  | _ => stats

def fullTrace (history : History S) : List TraceEvent :=
  history.filterMap Moment.event?

@[simp] theorem fullTrace_nil : fullTrace ([] : History S) = [] := rfl

@[simp] theorem fullTrace_cons (moment : Moment S) (history : History S) :
    fullTrace (moment :: history) = moment.event?.toList ++ fullTrace history := by
  cases h : moment.event? <;> simp [fullTrace, h]

@[simp] theorem fullTrace_append (before after : History S) :
    fullTrace (before ++ after) = fullTrace before ++ fullTrace after :=
  List.filterMap_append

namespace Journal

def note (journal : Journal) (moment : Moment S) : Journal :=
  let counted := { journal with stats := moment.count journal.stats }
  match moment.event? with
  | none => counted
  | some event => counted.record event

def replay (journal : Journal) (history : History S) : Journal :=
  history.foldl note journal

@[simp] theorem replay_nil (journal : Journal) : journal.replay ([] : History S) = journal := rfl

@[simp] theorem replay_cons (journal : Journal) (moment : Moment S) (history : History S) :
    journal.replay (moment :: history) = (journal.note moment).replay history := rfl

@[simp] theorem replay_append (journal : Journal) (before after : History S) :
    journal.replay (before ++ after) = (journal.replay before).replay after :=
  List.foldl_append

end Journal

theorem Machine.discard_state (discarded : Discarded E) (depth : Nat) (suppressed : Array E)
    (state : RunState S) :
    (Machine.discard discarded depth suppressed state).2 =
      { state with journal := state.journal.replay (discarded.moments depth : History S) } := by
  cases discarded <;> rfl

def journalReplay (S : Signature) : RunInvariant S where
  Within _ state history out := out.state.journal = state.journal.replay history
  Nested _ _ state history out := out.state.journal = state.journal.replay history
  Driven _ _ state history out := out.state.journal = state.journal.replay history
  Drained _ _ state history out := out.state.journal = state.journal.replay history
  value _ _ _ := rfl
  acted h := h
  followed first second := by
    rw [Journal.replay_append, ← first]
    exact second
  interrupted _ h := h
  recovered first second := by
    rw [Journal.replay_append, ← first]
    exact second
  registered _ h := by
    rw [Journal.replay_append, ← h]
    rfl
  resolved _ _ _ := rfl
  unresolved _ _ _ := rfl
  failed _ _ _ := rfl
  detached _ _ := rfl
  nested h := h
  attempted h := by
    rw [Journal.replay_append, ← h]
    rfl
  bracketed h := by
    rw [Journal.replay_append, Journal.replay_cons]
    exact congrArg (Journal.record · _) h
  driven body drain := by
    rw [Journal.replay_append, Journal.replay_append, Journal.replay_cons]
    rw [drain, body]
    rfl
  drained _ := rfl
  finalized _ result drain := by
    rw [drain, Machine.discard_state, Journal.replay_append, Journal.replay_append,
      Journal.replay_cons]
    exact congrArg (fun journal : Journal => (journal.replay _).replay _) result

theorem Runs.replayed {procedures : Procedures S} {task : Task S E A} {frame : Frame S E}
    {state : RunState S} {history : History S} {out : Evaluated S E A}
    (run : Runs procedures task frame state history out) :
    out.state.journal = state.journal.replay history := by
  have holds := (journalReplay S).of_runs run
  cases task <;> exact holds

/-! ## What is kept -/

namespace Journal

def keeping (config : EngineConfig) (stats : RunStats) (events : List TraceEvent) : Journal where
  config
  stats
  events := if config.recordTrace then (events.take config.traceCapacity).toArray else #[]
  dropped := if config.recordTrace then events.length - config.traceCapacity else 0

theorem record_keeping (config : EngineConfig) (stats : RunStats) (events : List TraceEvent)
    (event : TraceEvent) :
    (keeping config stats events).record event = keeping config stats (events ++ [event]) := by
  cases recording : config.recordTrace with
  | false => simp [record, keeping, recording]
  | true =>
      by_cases room : events.length < config.traceCapacity
      · have kept : events.take config.traceCapacity = events := List.take_of_length_le (by omega)
        have kept' : (events ++ [event]).take config.traceCapacity = events ++ [event] :=
          List.take_of_length_le (by simp; omega)
        have none : events.length - config.traceCapacity = 0 := by omega
        have none' : events.length + 1 - config.traceCapacity = 0 := by omega
        simp [record, keeping, recording, kept, kept', none, none', room]
      · have kept : (events ++ [event]).take config.traceCapacity =
            events.take config.traceCapacity := List.take_append_of_le_length (by omega)
        simp only [record, keeping, recording, kept, if_true, List.size_toArray,
          List.length_take, List.length_append, List.length_singleton]
        rw [if_neg (by omega), show events.length + 1 - config.traceCapacity =
          events.length - config.traceCapacity + 1 by omega]

theorem replay_keeping (config : EngineConfig) (stats : RunStats) (past : List TraceEvent)
    (history : History S) :
    (keeping config stats past).replay history =
      keeping config (history.foldl Moment.count stats) (past ++ fullTrace history) := by
  induction history generalizing stats past with
  | nil => simp
  | cons moment history ih =>
      have noted : (keeping config stats past).note moment =
          keeping config (moment.count stats) (past ++ moment.event?.toList) := by
        cases h : moment.event? with
        | none => simp [note, keeping, h]
        | some event =>
            simp only [note, h]
            exact record_keeping config (moment.count stats) past event
      rw [replay_cons, noted, ih, fullTrace_cons, List.append_assoc, List.foldl_cons]

theorem replay_fresh (config : EngineConfig) (history : History S) :
    ({ config } : Journal).replay history =
      keeping config (history.foldl Moment.count {}) (fullTrace history) := by
  have fresh : ({ config } : Journal) = keeping config {} [] := by simp [keeping]
  rw [fresh, replay_keeping, List.nil_append]

end Journal

/-- A report holds the counters of the history and what the configuration keeps of its events. -/
theorem Interpreter.Records.replay {interpreter : Interpreter S} {sequence : Sequence S E A}
    {context : Context S} {world left : S.World} {history : History S} {report : RunReport E A}
    (records : interpreter.Records sequence context world history report left) :
    report.stats = history.foldl Moment.count {} ∧
      report.trace =
        (Journal.keeping interpreter.config report.stats (fullTrace history)).events ∧
      report.dropped =
        (Journal.keeping interpreter.config report.stats (fullTrace history)).dropped := by
  obtain ⟨out, run, rfl, rfl⟩ := records
  have replayed : out.state.journal = ({ config := interpreter.config } : Journal).replay history :=
    (journalReplay S).of_runs run
  rw [Journal.replay_fresh] at replayed
  simp [Interpreter.report, Evaluated.driven, replayed, Journal.keeping]

end Sequencer
