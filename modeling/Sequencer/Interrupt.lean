/-!
# Interrupts

Why a frame stops early.  A domain failure belongs to the sequence and can be recovered
from; a `Defect` is a fault of whoever assembled the run and cannot.
-/

namespace Sequencer

inductive Defect where
  | unresolvedCapability (name : String) (id : Nat)
  /-- A routine gave back an abort token although its own handle never aborted. -/
  | detachedAbort
  deriving DecidableEq

namespace Defect

def capabilityName? : Defect → Option String
  | unresolvedCapability name _ => some name
  | detachedAbort => none

def isUnresolvedCapability : Defect → Bool
  | unresolvedCapability _ _ => true
  | detachedAbort => false

def message : Defect → String
  | unresolvedCapability name id => s!"Unresolved capability `{name}` (key #{id})"
  | detachedAbort => "Routine returned an abort token its own handle never issued"

end Defect

inductive Interrupt (E : Type) where
  | failed (error : E)
  | defect (defect : Defect)
  deriving DecidableEq

abbrev Settled (E A : Type) := Except (Interrupt E) A

/-- What is lost when a finalizer's result is folded into a frame that has settled. -/
inductive Discarded (E : Type) where
  | nothing
  | failure (error : E)
  | defect
  deriving DecidableEq

namespace Settled

variable {E A R : Type}

def isSuccess : Settled E A → Bool
  | .ok _ => true
  | .error _ => false

/-- Fold a finalizer's result into the frame's: a defect wins over a failure, the earlier
of two failures or of two defects wins, and a value gives way to both. -/
def absorb : Settled E A → Settled E Unit → Settled E A × Discarded E
  | settled, .ok _ => (settled, .nothing)
  | .ok _, .error interrupt => (.error interrupt, .nothing)
  | .error (.failed earlier), .error (.defect defect) => (.error (.defect defect), .failure earlier)
  | .error earlier, .error (.failed error) => (.error earlier, .failure error)
  | .error (.defect earlier), .error (.defect _) => (.error (.defect earlier), .defect)

/-- The same result seen from outside the run: a failure is an answer, a defect is not. -/
def exit (onOk : A → R) (onErr : E → R) : Settled E A → Except Defect R
  | .ok value => .ok (onOk value)
  | .error (.failed error) => .ok (onErr error)
  | .error (.defect defect) => .error defect

end Settled

end Sequencer
