import Sequencer.EngineConfig
import Sequencer.Trace

/-!
# Journals

What a run writes down while it goes on.  Counters are always kept.  Events are kept when
the configuration records traces and there is room; the others are only counted as dropped.
-/

namespace Sequencer

structure Journal where
  config : EngineConfig
  stats : RunStats := {}
  events : Array TraceEvent := #[]
  dropped : Nat := 0

namespace Journal

def record (journal : Journal) (event : TraceEvent) : Journal :=
  if journal.config.recordTrace then
    if journal.events.size < journal.config.traceCapacity then
      { journal with events := journal.events.push event }
    else
      { journal with dropped := journal.dropped + 1 }
  else
    journal

def countStep (journal : Journal) (kind : StepKind) : Journal :=
  { journal with stats := journal.stats.countStep kind }

def reach (journal : Journal) (depth : Nat) : Journal :=
  { journal with stats := { journal.stats with maxDepth := max journal.stats.maxDepth depth } }

def finalizerRan (journal : Journal) (depth : Nat) : Journal :=
  { journal with stats := { journal.stats with finalizersRun := journal.stats.finalizersRun + 1 } }
    |>.record (.finalizerRan depth)

def suppressed (journal : Journal) (depth : Nat) : Journal :=
  { journal with stats := { journal.stats with suppressed := journal.stats.suppressed + 1 } }
    |>.record (.finalizerSuppressed depth)

end Journal

end Sequencer
