import Sequencer.Machine.Drive

/-!
# Running sequences

An `Interpreter` is a configuration and the procedures sequences may call.  It holds no
state of its own: a run takes a sequence, a context and a world, and gives a report and the
world it leaves.
-/

namespace Sequencer

structure RunReport (E A : Type) where
  exit : Except Defect (Outcome E A)
  /-- Failures that lost to an earlier one, in the order they were discarded. -/
  suppressed : Array E
  stats : RunStats
  trace : Array TraceEvent
  dropped : Nat

def RunReport.isSuccess {E A : Type} (report : RunReport E A) : Bool :=
  match report.exit with
  | .ok (.ok _) => true
  | _ => false

structure Interpreter (S : Signature) where
  config : EngineConfig := {}
  procedures : Procedures S

namespace Interpreter

variable {S : Signature} {E A : Type}

def report (driven : Driven S E A) : RunReport E A where
  exit := driven.settled.exit .ok .err
  suppressed := driven.suppressed
  stats := driven.state.journal.stats
  trace := driven.state.journal.events
  dropped := driven.state.journal.dropped

def run (interpreter : Interpreter S) (fuel : Nat) (sequence : Sequence S E A)
    (context : Context S) (world : S.World) : Except Stop (RunReport E A × S.World) :=
  match (Machine.level interpreter.procedures fuel).drive sequence context 0
      ⟨{ config := interpreter.config }, world⟩ with
  | .error stop => .error stop
  | .ok driven => .ok (report driven, driven.state.world)

/-- The run ends with this report and leaves this world, given fuel enough. -/
def Completes (interpreter : Interpreter S) (sequence : Sequence S E A) (context : Context S)
    (world : S.World) (report : RunReport E A) (left : S.World) : Prop :=
  ∃ fuel, interpreter.run fuel sequence context world = .ok (report, left)

end Interpreter

end Sequencer
