/-!
# Traces and statistics

The events a run can record, each with the nesting depth of the frame it happened in, and
the counters every run keeps.
-/

namespace Sequencer

inductive TraceEvent where
  | capabilityResolved (depth : Nat) (name : String)
  | capabilityUnresolved (depth : Nat) (name : String)
  | failed (depth : Nat)
  | nestedEntered (depth : Nat)
  | nestedExited (depth : Nat) (ok : Bool)
  | finalizerRegistered (depth : Nat)
  | finalizerRan (depth : Nat)
  | finalizerSuppressed (depth : Nat)
  deriving DecidableEq

inductive StepKind where
  | requestCapability
  | fail
  | runNested
  | finalize
  deriving DecidableEq

def StepKind.text : StepKind → String
  | requestCapability => "request-capability"
  | fail => "fail"
  | runNested => "run-nested"
  | finalize => "finalize"

structure RunStats where
  steps : Nat := 0
  capabilityRequests : Nat := 0
  finalizersRun : Nat := 0
  suppressed : Nat := 0
  maxDepth : Nat := 0
  deriving DecidableEq, Inhabited

namespace RunStats

def countStep (stats : RunStats) (kind : StepKind) : RunStats :=
  { stats with
    steps := stats.steps + 1
    capabilityRequests := stats.capabilityRequests + if kind = .requestCapability then 1 else 0 }

def combine (stats other : RunStats) : RunStats where
  steps := stats.steps + other.steps
  capabilityRequests := stats.capabilityRequests + other.capabilityRequests
  finalizersRun := stats.finalizersRun + other.finalizersRun
  suppressed := stats.suppressed + other.suppressed
  maxDepth := max stats.maxDepth other.maxDepth

end RunStats

end Sequencer
