import Sequencer.Interrupt
import Sequencer.Journal
import Sequencer.Sequence

/-!
# Frames and what a run carries through them

A frame has a context, a nesting depth, the finalizers registered on it and the failures
discarded in it.  The journal and the world outlive frames; together they are the
`RunState`.
-/

namespace Sequencer

structure Frame (S : Signature) (E : Type) where
  context : Context S
  depth : Nat
  /-- Newest first. -/
  finalizers : List (Sequence S E Unit) := []
  suppressed : Array E := #[]

structure RunState (S : Signature) where
  journal : Journal
  world : S.World

/-- The engine could not finish, for a reason that is no answer of the sequence. -/
inductive Stop where
  | outOfFuel
  | misshapen (capability : Capability)
  deriving DecidableEq

structure Evaluated (S : Signature) (E A : Type) where
  settled : Settled E A
  frame : Frame S E
  state : RunState S

structure Driven (S : Signature) (E A : Type) where
  settled : Settled E A
  suppressed : Array E
  state : RunState S

namespace RunState

variable {S : Signature}

def record (state : RunState S) (event : TraceEvent) : RunState S :=
  { state with journal := state.journal.record event }

def countStep (state : RunState S) (kind : StepKind) : RunState S :=
  { state with journal := state.journal.countStep kind }

def reach (state : RunState S) (depth : Nat) : RunState S :=
  { state with journal := state.journal.reach depth }

def finalizerRan (state : RunState S) (depth : Nat) : RunState S :=
  { state with journal := state.journal.finalizerRan depth }

def suppressed (state : RunState S) (depth : Nat) : RunState S :=
  { state with journal := state.journal.suppressed depth }

end RunState

namespace Frame

variable {S : Signature} {E : Type}

def register (frame : Frame S E) (finalizer : Sequence S E Unit) : Frame S E :=
  { frame with finalizers := finalizer :: frame.finalizers }

end Frame

def RunState.registered {S : Signature} (state : RunState S) (depth : Nat) : RunState S :=
  (state.countStep .finalize).record (.finalizerRegistered depth)

end Sequencer
