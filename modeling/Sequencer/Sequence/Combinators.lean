import Sequencer.Sequence

/-!
# Combinators

The vocabulary sequences are written in.  `either`, `mapErr` and `all` are routines; the
others are made of the constructors alone.
-/

namespace Sequencer

namespace Routine

variable {S : Signature} {E A : Type}

def collect : List (Sequence S E A) → List A → Routine S E (List A)
  | [], values => .done values.reverse
  | member :: rest, values =>
      .bind member fun
        | some value => collect rest (value :: values)
        | none => .abort

/-- Fail the frame.  The handle answers nothing but an abort, which is passed on. -/
def fail (error : E) : Routine S E A :=
  .perform (.fail error) fun (_ : Option A) => .abort

def service {shape : S.Shape} (key : Key S shape) (next : S.El shape → Routine S E A) :
    Routine S E A :=
  .perform (.request key) fun
    | some value => next value
    | none => .abort

end Routine

namespace Sequence

variable {S : Signature} {E F A B T : Type} {shape : S.Shape}

def fail (error : E) : Sequence S E A :=
  .perform (.fail error)

def service (key : Key S shape) : Sequence S E (S.El shape) :=
  .perform (.request key)

def sync (act : S.World → S.World × A) : Sequence S E A :=
  .effect act .succeed

def trySync (act : S.World → S.World × Except E A) : Sequence S E A :=
  .effect act fun
    | .ok value => .succeed value
    | .error error => fail error

def suspend (build : Unit → Sequence S E A) : Sequence S E A :=
  .effect (fun world => (world, ())) build

def map (sequence : Sequence S E A) (f : A → B) : Sequence S E B :=
  sequence.andThen fun value => .succeed (f value)

/-- Recover from a failure of `sequence`, not from one of the recovery. -/
def orElse (sequence : Sequence S E A) (recover : E → Sequence S E A) : Sequence S E A :=
  sequence.fold .succeed recover

def either (sequence : Sequence S F A) : Sequence S E (Outcome F A) :=
  .routine <| .attempt sequence fun
    | some outcome => .done outcome
    | none => .abort

def mapErr (sequence : Sequence S F A) (f : F → E) : Sequence S E A :=
  .routine <| .attempt sequence fun
    | some (.ok value) => .done value
    | some (.err error) => .fail (f error)
    | none => .abort

def provideLayer (sequence : Sequence S E A) (layer : Layer S) : Sequence S E A :=
  .perform (.nested layer sequence)

def nested (sequence : Sequence S E A) : Sequence S E A :=
  sequence.provideLayer .empty

def provide (sequence : Sequence S E A) (key : Key S shape) (value : S.El shape) :
    Sequence S E A :=
  sequence.provideLayer (Layer.empty.provide key value)

/-- Run the members left to right in the enclosing frame, up to the first that is
interrupted, and collect their values. -/
def all : List (Sequence S E A) → Sequence S E (List A)
  | [] => .succeed []
  | members => .routine (.collect members [])

def forEach (items : List T) (f : T → Sequence S E A) : Sequence S E (List A) :=
  all (items.map f)

end Sequence

end Sequencer
