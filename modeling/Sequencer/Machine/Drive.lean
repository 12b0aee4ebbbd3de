import Sequencer.Machine.Eval

/-!
# Driving frames

A frame is driven by evaluating its sequence and then running the finalizers registered on
it, newest first, each in a frame of its own one level deeper.  `level` ties the knot: a
frame at one level drives its nested frames and finalizers one level down.
-/

namespace Sequencer.Machine

variable {S : Signature} {E A : Type}

def discard (discarded : Discarded E) (depth : Nat) (suppressed : Array E) (state : RunState S) :
    Array E × RunState S :=
  match discarded with
  | .nothing => (suppressed, state)
  | .failure error => (suppressed.push error, state.suppressed depth)
  | .defect => (suppressed, state.suppressed depth)

def drain (level : Level S) (context : Context S) (depth : Nat) :
    List (Sequence S E Unit) → Settled E A → Array E → RunState S → Except Stop (Driven S E A)
  | [], settled, suppressed, state => .ok ⟨settled, suppressed, state⟩
  | finalizer :: older, settled, suppressed, state =>
      match level.drive finalizer context (depth + 1) (state.finalizerRan depth) with
      | .error stop => .error stop
      | .ok driven =>
          let merged := settled.absorb driven.settled
          let noted := discard merged.2 depth (suppressed ++ driven.suppressed) driven.state
          drain level context depth older merged.1 noted.1 noted.2

def drive (procedures : Procedures S) (level : Level S) (fuel : Nat) (sequence : Sequence S E A)
    (context : Context S) (depth : Nat) (state : RunState S) : Except Stop (Driven S E A) :=
  match eval procedures level fuel sequence { context, depth } (state.reach depth) with
  | .error stop => .error stop
  | .ok ⟨settled, frame, state⟩ =>
      drain level frame.context frame.depth frame.finalizers settled frame.suppressed state

/-- The engine with `n` levels of frames, each making at most `n` steps. -/
def level (procedures : Procedures S) : Nat → Level S
  | 0 => ⟨fun _ _ _ => .error .outOfFuel, fun _ _ _ _ => .error .outOfFuel⟩
  | n + 1 =>
      ⟨fun sequence frame state => eval procedures (level procedures n) (n + 1) sequence frame state,
        fun sequence context depth state =>
          drive procedures (level procedures n) (n + 1) sequence context depth state⟩

end Sequencer.Machine
