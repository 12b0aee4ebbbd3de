import Sequencer.Interpreter
import Sequencer.Proofs.History

/-!
# Direct semantics

What running a sequence amounts to, without stack, levels or fuel.  `Runs` relates a piece
of work, the frame and the state it starts from, the history it makes and where it ends.
Its rules follow the structure of sequences, steps and routines.  The work of driving and
draining a frame ends, like all other work, with the frame as it is left.
-/

namespace Sequencer

variable {S : Signature} {E F A : Type}

/-- The world a routine leaves after its handle has aborted.  Calls on the handle come back
with nothing done, so what is left of the routine are its acts on the world. -/
def Routine.aftermath {S : Signature} {E A : Type} :
    Routine S E A → Frame S E → S.World → S.World
  | .done _, _, world => world
  | .abort, _, world => world
  | .effect act next, frame, world => (next (act world).2).aftermath frame (act world).1
  | .perform _ next, frame, world => (next none).aftermath frame world
  | .bind _ next, frame, world => (next none).aftermath frame world
  | .attempt _ next, frame, world => (next none).aftermath frame world
  | .depth next, frame, world => (next frame.depth).aftermath frame world
  | .context next, frame, world => (next frame.context).aftermath frame world

theorem Routine.induction {motive : Routine S E A → Prop}
    (done : ∀ value, motive (.done value)) (abort : motive .abort)
    (effect : ∀ {B : Type} (act : S.World → S.World × B) (next : B → Routine S E A),
      (∀ answer, motive (next answer)) → motive (.effect act next))
    (perform : ∀ {B : Type} (step : Step S E B) (next : Option B → Routine S E A),
      (∀ answer, motive (next answer)) → motive (.perform step next))
    (bind : ∀ {B : Type} (inner : Sequence S E B) (next : Option B → Routine S E A),
      (∀ answer, motive (next answer)) → motive (.bind inner next))
    (attempt : ∀ {F B : Type} (inner : Sequence S F B)
      (next : Option (Outcome F B) → Routine S E A),
      (∀ answer, motive (next answer)) → motive (.attempt inner next))
    (depth : ∀ next : Nat → Routine S E A, (∀ answer, motive (next answer)) →
      motive (.depth next))
    (context : ∀ next : Context S → Routine S E A, (∀ answer, motive (next answer)) →
      motive (.context next)) : (routine : Routine S E A) → motive routine
  | .done value => done value
  | .abort => abort
  | .effect act next => effect act next fun answer =>
      Routine.induction done abort effect perform bind attempt depth context (next answer)
  | .perform step next => perform step next fun answer =>
      Routine.induction done abort effect perform bind attempt depth context (next answer)
  | .bind inner next => bind inner next fun answer =>
      Routine.induction done abort effect perform bind attempt depth context (next answer)
  | .attempt inner next => attempt inner next fun answer =>
      Routine.induction done abort effect perform bind attempt depth context (next answer)
  | .depth next => depth next fun answer =>
      Routine.induction done abort effect perform bind attempt depth context (next answer)
  | .context next => context next fun answer =>
      Routine.induction done abort effect perform bind attempt depth context (next answer)

theorem Routine.run_latched (level : Level S) (routine : Routine S E A) (interrupt : Interrupt E)
    (frame : Frame S E) (state : RunState S) :
    routine.run level (some interrupt) frame state =
      .ok ⟨.error interrupt, frame,
        { state with world := routine.aftermath frame state.world }⟩ := by
  induction routine using Routine.induction generalizing state with
  | done value => rfl
  | abort => rfl
  | effect act next ih => exact ih _ _
  | perform step next ih => exact ih none state
  | bind inner next ih => exact ih none state
  | attempt inner next ih => exact ih none state
  | depth next ih => exact ih frame.depth state
  | context next ih => exact ih frame.context state

def Settled.ofExit : Except Defect A → Settled E A
  | .ok outcome => .ok outcome
  | .error defect => .error (.defect defect)

def Interrupt.failure? : Interrupt E → Option Failure
  | .failed error => some ⟨error⟩
  | .defect _ => none

def Settled.failure? : Settled E A → Option Failure
  | .ok _ => none
  | .error interrupt => interrupt.failure?

def Evaluated.driven (out : Evaluated S E A) : Driven S E A :=
  ⟨out.settled, out.frame.suppressed, out.state⟩

inductive Task (S : Signature) (E : Type) : Type → Type 1 where
  | evaluate {A : Type} (sequence : Sequence S E A) : Task S E A
  | handle {A : Type} (step : Step S E A) : Task S E A
  | play {A : Type} (routine : Routine S E A) : Task S E A
  | attempt {F A : Type} (inner : Sequence S F A) : Task S E (Outcome F A)
  | nest {A : Type} (sequence : Sequence S E A) : Task S E A
  | drive {A : Type} (sequence : Sequence S E A) : Task S E A
  | drain {A : Type} (settled : Settled E A) : Task S E A

inductive Runs {S : Signature} (procedures : Procedures S) : {E A : Type} →
    Task S E A → Frame S E → RunState S → History S → Evaluated S E A → Prop where
  | succeed {E A : Type} {frame : Frame S E} {state : RunState S} {value : A} :
      Runs procedures (.evaluate (.succeed value)) frame state [] ⟨.ok value, frame, state⟩
  | perform {E A : Type} {step : Step S E A} {frame : Frame S E} {state : RunState S}
      {history : History S} {out : Evaluated S E A}
      (handled : Runs procedures (.handle step) frame state history out) :
      Runs procedures (.evaluate (.perform step)) frame state history out
  | effect {E A B : Type} {act : S.World → S.World × B} {next : B → Sequence S E A}
      {frame : Frame S E} {state : RunState S} {history : History S} {out : Evaluated S E A}
      (after : Runs procedures (.evaluate (next (act state.world).2)) frame
        { state with world := (act state.world).1 } history out) :
      Runs procedures (.evaluate (.effect act next)) frame state history out
  | call {E A : Type} {proc : S.Proc E A} {frame : Frame S E} {state : RunState S}
      {history : History S} {out : Evaluated S E A}
      (body : Runs procedures (.evaluate (procedures.body proc)) frame state history out) :
      Runs procedures (.evaluate (.call proc)) frame state history out
  | andThenValue {E A B : Type} {inner : Sequence S E B} {next : B → Sequence S E A}
      {frame frame' : Frame S E} {state state' : RunState S} {before after : History S}
      {value : B} {out : Evaluated S E A}
      (first : Runs procedures (.evaluate inner) frame state before ⟨.ok value, frame', state'⟩)
      (second : Runs procedures (.evaluate (next value)) frame' state' after out) :
      Runs procedures (.evaluate (.andThen inner next)) frame state (before ++ after) out
  | andThenInterrupt {E A B : Type} {inner : Sequence S E B} {next : B → Sequence S E A}
      {frame frame' : Frame S E} {state state' : RunState S} {history : History S}
      {interrupt : Interrupt E}
      (first : Runs procedures (.evaluate inner) frame state history
        ⟨.error interrupt, frame', state'⟩) :
      Runs procedures (.evaluate (.andThen inner next)) frame state history
        ⟨.error interrupt, frame', state'⟩
  | foldValue {E A B : Type} {inner : Sequence S E B} {next : B → Sequence S E A}
      {recover : E → Sequence S E A} {frame frame' : Frame S E} {state state' : RunState S}
      {before after : History S} {value : B} {out : Evaluated S E A}
      (first : Runs procedures (.evaluate inner) frame state before ⟨.ok value, frame', state'⟩)
      (second : Runs procedures (.evaluate (next value)) frame' state' after out) :
      Runs procedures (.evaluate (.fold inner next recover)) frame state (before ++ after) out
  /-- The recovery is chosen by a failure of `inner`; its own failures pass it by. -/
  | foldFailure {E A B : Type} {inner : Sequence S E B} {next : B → Sequence S E A}
      {recover : E → Sequence S E A} {frame frame' : Frame S E} {state state' : RunState S}
      {before after : History S} {error : E} {out : Evaluated S E A}
      (first : Runs procedures (.evaluate inner) frame state before
        ⟨.error (.failed error), frame', state'⟩)
      (second : Runs procedures (.evaluate (recover error)) frame' state' after out) :
      Runs procedures (.evaluate (.fold inner next recover)) frame state
        (before ++ .recovered frame'.depth ⟨error⟩ :: after) out
  | foldDefect {E A B : Type} {inner : Sequence S E B} {next : B → Sequence S E A}
      {recover : E → Sequence S E A} {frame frame' : Frame S E} {state state' : RunState S}
      {history : History S} {defect : Defect}
      (first : Runs procedures (.evaluate inner) frame state history
        ⟨.error (.defect defect), frame', state'⟩) :
      Runs procedures (.evaluate (.fold inner next recover)) frame state history
        ⟨.error (.defect defect), frame', state'⟩
  | ensuring {E A : Type} {inner : Sequence S E A} {finalizer : Sequence S E Unit}
      {frame frame' : Frame S E} {state state' : RunState S} {history : History S}
      {settled : Settled E A}
      (first : Runs procedures (.evaluate inner) frame state history ⟨settled, frame', state'⟩) :
      Runs procedures (.evaluate (.ensuring inner finalizer)) frame state
        (history ++ [.registered frame'.depth finalizer])
        ⟨settled, frame'.register finalizer, state'.registered frame'.depth⟩
  | routine {E A : Type} {body : Routine S E A} {frame : Frame S E} {state : RunState S}
      {history : History S} {out : Evaluated S E A}
      (played : Runs procedures (.play body) frame state history out) :
      Runs procedures (.evaluate (.routine body)) frame state history out
  | requestFound {E : Type} {shape : S.Shape} {key : Key S shape} {value : S.El shape}
      {frame : Frame S E} {state : RunState S}
      (found : frame.context.lookup key = .found value) :
      Runs procedures (.handle (.request key)) frame state [.resolved frame.depth key.capability]
        ⟨.ok value, frame, (state.countStep .requestCapability).record
          (.capabilityResolved frame.depth key.name)⟩
  | requestMissing {E : Type} {shape : S.Shape} {key : Key S shape} {frame : Frame S E}
      {state : RunState S} (missing : frame.context.lookup key = .missing) :
      Runs procedures (.handle (.request key)) frame state
        [.unresolved frame.depth key.capability]
        ⟨.error (.defect (.unresolvedCapability key.name key.id)), frame,
          (state.countStep .requestCapability).record
            (.capabilityUnresolved frame.depth key.name)⟩
  | fail {E A : Type} {error : E} {frame : Frame S E} {state : RunState S} :
      Runs procedures (.handle (.fail error : Step S E A)) frame state
        [.failed frame.depth ⟨error⟩]
        ⟨.error (.failed error), frame, (state.countStep .fail).record (.failed frame.depth)⟩
  | nested {E A : Type} {layer : Layer S} {body : Sequence S E A} {frame : Frame S E}
      {state : RunState S} {history : History S} {out : Evaluated S E A}
      (inner : Runs procedures (.nest body)
        { context := frame.context.extend layer, depth := frame.depth + 1 } state history out) :
      Runs procedures (.handle (.nested layer body)) frame state history
        ⟨out.settled, { frame with suppressed := frame.suppressed ++ out.frame.suppressed },
          out.state⟩
  | finalize {E : Type} {finalizer : Sequence S E Unit} {frame : Frame S E}
      {state : RunState S} :
      Runs procedures (.handle (.finalize finalizer)) frame state
        [.registered frame.depth finalizer]
        ⟨.ok (), frame.register finalizer, state.registered frame.depth⟩
  | done {E A : Type} {value : A} {frame : Frame S E} {state : RunState S} :
      Runs procedures (.play (.done value)) frame state [] ⟨.ok value, frame, state⟩
  | abort {E A : Type} {frame : Frame S E} {state : RunState S} :
      Runs procedures (.play (.abort : Routine S E A)) frame state [.detached frame.depth]
        ⟨.error (.defect .detachedAbort), frame, state⟩
  | act {E A B : Type} {act : S.World → S.World × B} {next : B → Routine S E A}
      {frame : Frame S E} {state : RunState S} {history : History S} {out : Evaluated S E A}
      (after : Runs procedures (.play (next (act state.world).2)) frame
        { state with world := (act state.world).1 } history out) :
      Runs procedures (.play (.effect act next)) frame state history out
  | performValue {E A B : Type} {step : Step S E B} {next : Option B → Routine S E A}
      {frame frame' : Frame S E} {state state' : RunState S} {before after : History S}
      {value : B} {out : Evaluated S E A}
      (first : Runs procedures (.handle step) frame state before ⟨.ok value, frame', state'⟩)
      (second : Runs procedures (.play (next (some value))) frame' state' after out) :
      Runs procedures (.play (.perform step next)) frame state (before ++ after) out
  | performInterrupt {E A B : Type} {step : Step S E B} {next : Option B → Routine S E A}
      {frame frame' : Frame S E} {state state' : RunState S} {history : History S}
      {interrupt : Interrupt E}
      (first : Runs procedures (.handle step) frame state history
        ⟨.error interrupt, frame', state'⟩) :
      Runs procedures (.play (.perform step next)) frame state history
        ⟨.error interrupt, frame',
          { state' with world := (next none).aftermath frame' state'.world }⟩
  | bindValue {E A B : Type} {inner : Sequence S E B} {next : Option B → Routine S E A}
      {frame frame' : Frame S E} {state state' : RunState S} {before after : History S}
      {value : B} {out : Evaluated S E A}
      (first : Runs procedures (.evaluate inner) frame state before ⟨.ok value, frame', state'⟩)
      (second : Runs procedures (.play (next (some value))) frame' state' after out) :
      Runs procedures (.play (.bind inner next)) frame state (before ++ after) out
  | bindInterrupt {E A B : Type} {inner : Sequence S E B} {next : Option B → Routine S E A}
      {frame frame' : Frame S E} {state state' : RunState S} {history : History S}
      {interrupt : Interrupt E}
      (first : Runs procedures (.evaluate inner) frame state history
        ⟨.error interrupt, frame', state'⟩) :
      Runs procedures (.play (.bind inner next)) frame state history
        ⟨.error interrupt, frame',
          { state' with world := (next none).aftermath frame' state'.world }⟩
  | attemptValue {E F A B : Type} {inner : Sequence S F B}
      {next : Option (Outcome F B) → Routine S E A} {frame frame' : Frame S E}
      {state state' : RunState S} {before after : History S} {outcome : Outcome F B}
      {out : Evaluated S E A}
      (first : Runs procedures (.attempt inner) frame state before
        ⟨.ok outcome, frame', state'⟩)
      (second : Runs procedures (.play (next (some outcome))) frame' state' after out) :
      Runs procedures (.play (.attempt inner next)) frame state (before ++ after) out
  | attemptInterrupt {E F A B : Type} {inner : Sequence S F B}
      {next : Option (Outcome F B) → Routine S E A} {frame frame' : Frame S E}
      {state state' : RunState S} {history : History S} {interrupt : Interrupt E}
      (first : Runs procedures (.attempt inner) frame state history
        ⟨.error interrupt, frame', state'⟩) :
      Runs procedures (.play (.attempt inner next)) frame state history
        ⟨.error interrupt, frame',
          { state' with world := (next none).aftermath frame' state'.world }⟩
  | depth {E A : Type} {next : Nat → Routine S E A} {frame : Frame S E} {state : RunState S}
      {history : History S} {out : Evaluated S E A}
      (after : Runs procedures (.play (next frame.depth)) frame state history out) :
      Runs procedures (.play (.depth next)) frame state history out
  | context {E A : Type} {next : Context S → Routine S E A} {frame : Frame S E}
      {state : RunState S} {history : History S} {out : Evaluated S E A}
      (after : Runs procedures (.play (next frame.context)) frame state history out) :
      Runs procedures (.play (.context next)) frame state history out
  /-- What the attempted frame suppressed stays with it. -/
  | attempt {E F A : Type} {inner : Sequence S F A} {frame : Frame S E} {state : RunState S}
      {history : History S} {out : Evaluated S F A}
      (nested : Runs procedures (.nest inner)
        { context := frame.context, depth := frame.depth + 1 } state history out) :
      Runs procedures (.attempt inner) frame state
        (history ++ [.attempted frame.depth out.settled.failure?])
        ⟨.ofExit (out.settled.exit .ok .err), frame, out.state⟩
  | nest {E A : Type} {body : Sequence S E A} {frame : Frame S E} {state : RunState S}
      {history : History S} {out : Evaluated S E A}
      (driven : Runs procedures (.drive body) frame
        ((state.countStep .runNested).record (.nestedEntered frame.depth)) history out) :
      Runs procedures (.nest body) frame state
        (.entered frame.depth :: history ++ [.exited frame.depth out.settled.isSuccess])
        { out with state := out.state.record (.nestedExited frame.depth out.settled.isSuccess) }
  | drive {E A : Type} {sequence : Sequence S E A} {context : Context S} {depth : Nat}
      {state : RunState S} {before after : History S} {body out : Evaluated S E A}
      (evaluated : Runs procedures (.evaluate sequence) { context, depth } (state.reach depth)
        before body)
      (drained : Runs procedures (.drain body.settled) body.frame body.state after out) :
      Runs procedures (.drive sequence) { context, depth } state
        (.opened sequence context depth :: before ++ .settled depth :: after ++ [.closed depth])
        out
  | drained {E A : Type} {settled : Settled E A} {frame : Frame S E} {state : RunState S}
      (none : frame.finalizers = []) :
      Runs procedures (.drain settled) frame state [] ⟨settled, frame, state⟩
  | finalizer {E A : Type} {settled : Settled E A} {frame : Frame S E} {state : RunState S}
      {finalizer : Sequence S E Unit} {older : List (Sequence S E Unit)}
      {before after : History S} {result : Evaluated S E Unit} {out : Evaluated S E A}
      (newest : frame.finalizers = finalizer :: older)
      (driven : Runs procedures (.drive finalizer)
        { context := frame.context, depth := frame.depth + 1 } (state.finalizerRan frame.depth)
        before result)
      (drained : Runs procedures (.drain (settled.absorb result.settled).1)
        { frame with
          finalizers := older
          suppressed := (Machine.discard (settled.absorb result.settled).2 frame.depth
            (frame.suppressed ++ result.frame.suppressed) result.state).1 }
        (Machine.discard (settled.absorb result.settled).2 frame.depth
          (frame.suppressed ++ result.frame.suppressed) result.state).2 after out) :
      Runs procedures (.drain settled) frame state
        (.finalizing frame.depth :: before ++
          (settled.absorb result.settled).2.moments frame.depth ++ after) out

def Interpreter.Records (interpreter : Interpreter S) (sequence : Sequence S E A)
    (context : Context S) (world : S.World) (history : History S) (report : RunReport E A)
    (left : S.World) : Prop :=
  ∃ out : Evaluated S E A,
    Runs interpreter.procedures (.drive sequence) { context, depth := 0 }
      ⟨{ config := interpreter.config }, world⟩ history out ∧
    report = Interpreter.report out.driven ∧ left = out.state.world

end Sequencer
