import Sequencer.Machine.Level

/-!
# The evaluation machine

A frame's sequence is evaluated by a machine with an explicit stack of continuations, so a
chain of any length needs no deeper recursion.  `step` takes a sequence apart, pushing what
comes after it, until a part settles; a settled part is handed to the top of the stack.
Only the frames and bound sequences of the `Level` below are run by recursion.
-/

namespace Sequencer.Machine

/-- What is left to do in a frame after a part that gives an `A`, on the way to an `R`. -/
inductive Stack (S : Signature) (E R : Type) : Type → Type 1 where
  | done : Stack S E R R
  | andThen {A B : Type} (next : A → Sequence S E B) (rest : Stack S E R B) : Stack S E R A
  | fold {A B : Type} (next : A → Sequence S E B) (recover : E → Sequence S E B)
      (rest : Stack S E R B) : Stack S E R A
  | ensure {A : Type} (finalizer : Sequence S E Unit) (rest : Stack S E R A) : Stack S E R A

inductive Control (S : Signature) (E A : Type) : Type 1 where
  | running (sequence : Sequence S E A)
  | settled (result : Settled E A)

structure Config (S : Signature) (E R : Type) : Type 1 where
  {A : Type}
  control : Control S E A
  stack : Stack S E R A
  frame : Frame S E
  state : RunState S

inductive Next (S : Signature) (E R : Type) : Type 1 where
  | more (config : Config S E R)
  | halted (result : Evaluated S E R)
  | stopped (stop : Stop)

variable {S : Signature} {E A R : Type}

def Next.ofEvaluated (stack : Stack S E R A) : Except Stop (Evaluated S E A) → Next S E R
  | .error stop => .stopped stop
  | .ok evaluated => .more ⟨.settled evaluated.settled, stack, evaluated.frame, evaluated.state⟩

def stepRunning (procedures : Procedures S) (level : Level S) (sequence : Sequence S E A)
    (stack : Stack S E R A) (frame : Frame S E) (state : RunState S) : Next S E R :=
  match sequence with
  | .succeed value => .more ⟨.settled (.ok value), stack, frame, state⟩
  | .perform step => .ofEvaluated stack (level.handle step frame state)
  | .effect act next =>
      let answer := act state.world
      .more ⟨.running (next answer.2), stack, frame, { state with world := answer.1 }⟩
  | .call proc => .more ⟨.running (procedures.body proc), stack, frame, state⟩
  | .andThen inner next => .more ⟨.running inner, .andThen next stack, frame, state⟩
  | .fold inner next recover => .more ⟨.running inner, .fold next recover stack, frame, state⟩
  | .ensuring inner finalizer => .more ⟨.running inner, .ensure finalizer stack, frame, state⟩
  | .routine body => .ofEvaluated stack (body.run level none frame state)

def stepSettled (result : Settled E A) (stack : Stack S E R A) (frame : Frame S E)
    (state : RunState S) : Next S E R :=
  match stack, result with
  | .done, result => .halted ⟨result, frame, state⟩
  | .andThen next rest, .ok value => .more ⟨.running (next value), rest, frame, state⟩
  | .andThen _ rest, .error interrupt => .more ⟨.settled (.error interrupt), rest, frame, state⟩
  | .fold next _ rest, .ok value => .more ⟨.running (next value), rest, frame, state⟩
  | .fold _ recover rest, .error (.failed error) =>
      .more ⟨.running (recover error), rest, frame, state⟩
  | .fold _ _ rest, .error (.defect defect) =>
      .more ⟨.settled (.error (.defect defect)), rest, frame, state⟩
  | .ensure finalizer rest, result =>
      .more ⟨.settled result, rest, frame.register finalizer, state.registered frame.depth⟩

def step (procedures : Procedures S) (level : Level S) (config : Config S E R) : Next S E R :=
  match config with
  | ⟨.running sequence, stack, frame, state⟩ =>
      stepRunning procedures level sequence stack frame state
  | ⟨.settled result, stack, frame, state⟩ => stepSettled result stack frame state

def loop (procedures : Procedures S) (level : Level S) :
    Nat → Config S E R → Except Stop (Evaluated S E R)
  | 0, _ => .error .outOfFuel
  | fuel + 1, config =>
      match step procedures level config with
      | .more next => loop procedures level fuel next
      | .halted result => .ok result
      | .stopped stop => .error stop

/-- Evaluate a sequence inside a frame, leaving the frame's finalizers alone. -/
def eval (procedures : Procedures S) (level : Level S) (fuel : Nat) (sequence : Sequence S E A)
    (frame : Frame S E) (state : RunState S) : Except Stop (Evaluated S E A) :=
  loop procedures level fuel ⟨.running sequence, .done, frame, state⟩

end Sequencer.Machine
