import Sequencer.Machine.Frame

/-!
# Histories

A history lists what happens in a run, in the order it happens.  It says more than a trace:
which finalizer is registered, which failure is raised, recovered from or discarded, where
a frame opens and where its result leaves it.  Every moment carries the depth of the frame
it belongs to; `entered` and `exited` carry the depth of the nested frame, as their events do.
-/

namespace Sequencer

/-- A failure together with its type: frames of one run need not share their error type. -/
structure Failure : Type 1 where
  {E : Type}
  error : E

inductive Moment (S : Signature) : Type 1 where
  | opened {E A : Type} (sequence : Sequence S E A) (context : Context S) (depth : Nat)
  | settled (depth : Nat)
  /-- The finalizers of the frame have run, and its result reaches whoever opened it. -/
  | closed (depth : Nat)
  | entered (depth : Nat)
  | exited (depth : Nat) (ok : Bool)
  | resolved (depth : Nat) (capability : Capability)
  | unresolved (depth : Nat) (capability : Capability)
  | detached (depth : Nat)
  | failed (depth : Nat) (failure : Failure)
  | recovered (depth : Nat) (failure : Failure)
  /-- An attempt is over; a failure of what it ran is handed back as a value. -/
  | attempted (depth : Nat) (handed : Option Failure)
  | registered {E : Type} (depth : Nat) (finalizer : Sequence S E Unit)
  | finalizing (depth : Nat)
  | suppressed (depth : Nat) (failure : Failure)
  | outlived (depth : Nat)

abbrev History (S : Signature) := List (Moment S)

def Discarded.moments {E : Type} {S : Signature} (depth : Nat) : Discarded E → History S
  | .nothing => []
  | .failure error => [.suppressed depth ⟨error⟩]
  | .defect => [.outlived depth]

end Sequencer
