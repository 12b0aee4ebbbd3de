import Sequencer.Interpreter
import Sequencer.Sequence.Combinators

/-!
# A small application

Capabilities are numbers, the world is a list of notes and there are no procedures.  It is
all that is needed to see a theorem about runs at work.
-/

namespace Sequencer.Sample

@[reducible] def signature : Signature where
  World := List String
  Shape := Unit
  El _ := Nat
  Proc _ _ := Empty

def interpreter : Interpreter signature where
  procedures := ⟨nofun⟩

def key (id : Nat) (name : String) : Key signature () := ⟨id, name⟩

def note {E : Type} (text : String) : Sequence signature E Unit :=
  .sync fun notes => (notes ++ [text], ())

end Sequencer.Sample
