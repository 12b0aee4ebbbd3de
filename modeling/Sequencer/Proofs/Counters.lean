import Sequencer.Machine.Frame

/-!
# Counters

What each note in the journal does to the statistics.  Recording an event does nothing to
them, whether the event is kept or dropped.
-/

namespace Sequencer

variable {S : Signature}

@[simp] theorem Journal.stats_record (journal : Journal) (event : TraceEvent) :
    (journal.record event).stats = journal.stats := by
  unfold Journal.record
  split
  · split <;> rfl
  · rfl

namespace RunState

@[simp] theorem stats_record (state : RunState S) (event : TraceEvent) :
    (state.record event).journal.stats = state.journal.stats :=
  Journal.stats_record _ _

@[simp] theorem stats_countStep (state : RunState S) (kind : StepKind) :
    (state.countStep kind).journal.stats = state.journal.stats.countStep kind := rfl

@[simp] theorem stats_reach (state : RunState S) (depth : Nat) :
    (state.reach depth).journal.stats =
      { state.journal.stats with maxDepth := max state.journal.stats.maxDepth depth } := rfl

@[simp] theorem stats_finalizerRan (state : RunState S) (depth : Nat) :
    (state.finalizerRan depth).journal.stats =
      { state.journal.stats with finalizersRun := state.journal.stats.finalizersRun + 1 } :=
  Journal.stats_record _ _

@[simp] theorem stats_suppressed (state : RunState S) (depth : Nat) :
    (state.suppressed depth).journal.stats =
      { state.journal.stats with suppressed := state.journal.stats.suppressed + 1 } :=
  Journal.stats_record _ _

@[simp] theorem stats_registered (state : RunState S) (depth : Nat) :
    (state.registered depth).journal.stats = state.journal.stats.countStep .finalize :=
  stats_record _ _

end RunState

@[simp] theorem RunStats.suppressed_countStep (stats : RunStats) (kind : StepKind) :
    (stats.countStep kind).suppressed = stats.suppressed := rfl

end Sequencer
