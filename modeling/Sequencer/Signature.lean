/-!
# Signatures and capability keys

A `Signature` fixes what the sequences of one application may touch: the world their
effects act on, the shapes a capability value can have, and the named procedures they
may call.  A `Key` names a capability by identity.  Its name is for people, and two keys
of one name are different keys.
-/

namespace Sequencer

structure Signature where
  World : Type
  /-- Codes for the types of capability values. -/
  Shape : Type
  El : Shape → Type
  Proc : Type → Type → Type
  [shapeEq : DecidableEq Shape]

instance (S : Signature) : DecidableEq S.Shape := S.shapeEq

structure Capability where
  id : Nat
  name : String
  deriving DecidableEq

def Capability.text (capability : Capability) : String :=
  s!"{capability.name}#{capability.id}"

structure Key (S : Signature) (shape : S.Shape) where
  id : Nat
  name : String

namespace Key

variable {S : Signature} {shape shape' : S.Shape}

def capability (key : Key S shape) : Capability :=
  ⟨key.id, key.name⟩

/-- Keys are the same when their identities are, whatever they are called. -/
def same (key : Key S shape) (other : Key S shape') : Bool :=
  key.id == other.id

def text (key : Key S shape) : String :=
  s!"Key({key.capability.text})"

end Key

structure KeySupply where
  next : Nat

def KeySupply.fresh {S : Signature} (supply : KeySupply) (shape : S.Shape) (name : String) :
    Key S shape × KeySupply :=
  (⟨supply.next, name⟩, ⟨supply.next + 1⟩)

end Sequencer
