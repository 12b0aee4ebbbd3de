import Sequencer.Machine.Frame

/-!
# Suspension points and routines

`handle` answers one step against a frame, and `Routine.run` plays a routine against it.
Both leave the running of other sequences to the `Level` below: a bound sequence is
evaluated in the same frame, a nested one is driven in a frame of its own.  A routine's
handle latches the first interrupt.  From then on no call reaches the frame.
-/

namespace Sequencer

structure Level (S : Signature) where
  eval : {E A : Type} → Sequence S E A → Frame S E → RunState S → Except Stop (Evaluated S E A)
  drive : {E A : Type} → Sequence S E A → Context S → Nat → RunState S →
    Except Stop (Driven S E A)

namespace Level

variable {S : Signature} {E F A : Type}

def nested (level : Level S) (body : Sequence S E A) (context : Context S) (depth : Nat)
    (state : RunState S) : Except Stop (Driven S E A) :=
  match level.drive body context depth
      ((state.countStep .runNested).record (.nestedEntered depth)) with
  | .error stop => .error stop
  | .ok driven =>
      .ok { driven with
        state := driven.state.record (.nestedExited depth driven.settled.isSuccess) }

def handle (level : Level S) (step : Step S E A) (frame : Frame S E) (state : RunState S) :
    Except Stop (Evaluated S E A) :=
  match step with
  | .request key =>
      let state := state.countStep .requestCapability
      match frame.context.lookup key with
      | .found value =>
          .ok ⟨.ok value, frame, state.record (.capabilityResolved frame.depth key.name)⟩
      | .missing =>
          .ok ⟨.error (.defect (.unresolvedCapability key.name key.id)), frame,
            state.record (.capabilityUnresolved frame.depth key.name)⟩
      | .misshapen => .error (.misshapen key.capability)
  | .fail error =>
      .ok ⟨.error (.failed error), frame, (state.countStep .fail).record (.failed frame.depth)⟩
  | .nested layer body =>
      match level.nested body (frame.context.extend layer) (frame.depth + 1) state with
      | .error stop => .error stop
      | .ok driven =>
          .ok ⟨driven.settled, { frame with suppressed := frame.suppressed ++ driven.suppressed },
            driven.state⟩
  | .finalize finalizer =>
      .ok ⟨.ok (), frame.register finalizer, state.registered frame.depth⟩

/-- Drive a nested frame and hand back its outcome; what it suppressed stays with it. -/
def attempt (level : Level S) (inner : Sequence S F A) (frame : Frame S E) (state : RunState S) :
    Except Stop (Except Defect (Outcome F A) × RunState S) :=
  match level.nested inner frame.context (frame.depth + 1) state with
  | .error stop => .error stop
  | .ok driven => .ok (driven.settled.exit .ok .err, driven.state)

end Level

/-- How a routine settles: a latched interrupt decides, whatever the routine returned. -/
def Routine.settle {E A : Type} (latched : Option (Interrupt E)) (returned : Option A) :
    Settled E A :=
  match latched, returned with
  | some interrupt, _ => .error interrupt
  | none, some value => .ok value
  | none, none => .error (.defect .detachedAbort)

def Routine.run {S : Signature} (level : Level S) {E A : Type} :
    Routine S E A → Option (Interrupt E) → Frame S E → RunState S → Except Stop (Evaluated S E A)
  | .done value, latched, frame, state => .ok ⟨settle latched (some value), frame, state⟩
  | .abort, latched, frame, state => .ok ⟨settle latched none, frame, state⟩
  | .effect act next, latched, frame, state =>
      let answer := act state.world
      (next answer.2).run level latched frame { state with world := answer.1 }
  | .perform step next, none, frame, state =>
      match level.handle step frame state with
      | .error stop => .error stop
      | .ok ⟨.ok value, frame, state⟩ => (next (some value)).run level none frame state
      | .ok ⟨.error interrupt, frame, state⟩ => (next none).run level (some interrupt) frame state
  | .perform _ next, some interrupt, frame, state =>
      (next none).run level (some interrupt) frame state
  | .bind inner next, none, frame, state =>
      match level.eval inner frame state with
      | .error stop => .error stop
      | .ok ⟨.ok value, frame, state⟩ => (next (some value)).run level none frame state
      | .ok ⟨.error interrupt, frame, state⟩ => (next none).run level (some interrupt) frame state
  | .bind _ next, some interrupt, frame, state =>
      (next none).run level (some interrupt) frame state
  | .attempt inner next, none, frame, state =>
      match level.attempt inner frame state with
      | .error stop => .error stop
      | .ok (.ok outcome, state) => (next (some outcome)).run level none frame state
      | .ok (.error defect, state) => (next none).run level (some (.defect defect)) frame state
  | .attempt _ next, some interrupt, frame, state =>
      (next none).run level (some interrupt) frame state
  | .depth next, latched, frame, state => (next frame.depth).run level latched frame state
  | .context next, latched, frame, state => (next frame.context).run level latched frame state

end Sequencer
