import Sequencer.Proofs.BigStep

/-!
# Invariants of runs

Most properties of a run do not look at the sequence: they relate where a piece of work
starts, the history it makes and where it ends.  `RunInvariant` lists what such a property
owes, once for every way a history is put together; `RunInvariant.of_runs` is the induction.
The many constructs that run one part and go on with another owe one thing together.
`Within` is said of work inside a frame, `Driven` of a whole frame, `Nested` of a frame between
the events that mark its ends, and `Drained` of running the finalizers of a settled frame.
-/

namespace Sequencer

variable {S : Signature} {E A : Type}

structure RunInvariant (S : Signature) : Type 1 where
  Within : {E A : Type} → Frame S E → RunState S → History S → Evaluated S E A → Prop
  Nested : {E A : Type} →
    Sequence S E A → Frame S E → RunState S → History S → Evaluated S E A → Prop
  Driven : {E A : Type} →
    Sequence S E A → Frame S E → RunState S → History S → Evaluated S E A → Prop
  Drained : {E A : Type} →
    Settled E A → Frame S E → RunState S → History S → Evaluated S E A → Prop
  value : ∀ {E A : Type} (frame : Frame S E) (state : RunState S) (value : A),
    Within frame state [] ⟨.ok value, frame, state⟩
  acted : ∀ {E A : Type} {frame : Frame S E} {state : RunState S} {world : S.World}
    {history : History S} {out : Evaluated S E A},
    Within frame { state with world } history out → Within frame state history out
  followed : ∀ {E A B : Type} {frame frame' : Frame S E} {state state' : RunState S}
    {before after : History S} {value : B} {out : Evaluated S E A},
    Within frame state before ⟨.ok value, frame', state'⟩ → Within frame' state' after out →
      Within frame state (before ++ after) out
  /-- An interrupt ends the work around it, which may still act on the world. -/
  interrupted : ∀ {E A B : Type} {frame frame' : Frame S E} {state state' : RunState S}
    {history : History S} {interrupt : Interrupt E} (world : S.World),
    Within frame state history (⟨.error interrupt, frame', state'⟩ : Evaluated S E B) →
      Within frame state history
        (⟨.error interrupt, frame', { state' with world }⟩ : Evaluated S E A)
  recovered : ∀ {E A B : Type} {frame frame' : Frame S E} {state state' : RunState S}
    {before after : History S} {error : E} {out : Evaluated S E A},
    Within frame state before
      (⟨.error (.failed error), frame', state'⟩ : Evaluated S E B) →
    Within frame' state' after out →
      Within frame state (before ++ .recovered frame'.depth ⟨error⟩ :: after) out
  registered : ∀ {E A : Type} {frame frame' : Frame S E} {state state' : RunState S}
    {history : History S} {settled : Settled E A} (finalizer : Sequence S E Unit),
    Within frame state history ⟨settled, frame', state'⟩ →
      Within frame state (history ++ [.registered frame'.depth finalizer])
        ⟨settled, frame'.register finalizer, state'.registered frame'.depth⟩
  resolved : ∀ {E : Type} {shape : S.Shape} {key : Key S shape} {value : S.El shape}
    (frame : Frame S E) (state : RunState S), frame.context.lookup key = .found value →
      Within frame state [.resolved frame.depth key.capability]
        ⟨.ok value, frame, (state.countStep .requestCapability).record
          (.capabilityResolved frame.depth key.name)⟩
  unresolved : ∀ {E : Type} {shape : S.Shape} {key : Key S shape}
    (frame : Frame S E) (state : RunState S), frame.context.lookup key = .missing →
      Within frame state [.unresolved frame.depth key.capability]
        (⟨.error (.defect (.unresolvedCapability key.name key.id)), frame,
          (state.countStep .requestCapability).record
            (.capabilityUnresolved frame.depth key.name)⟩ : Evaluated S E (S.El shape))
  failed : ∀ {E A : Type} (frame : Frame S E) (state : RunState S) (error : E),
    Within frame state [.failed frame.depth ⟨error⟩]
      (⟨.error (.failed error), frame, (state.countStep .fail).record (.failed frame.depth)⟩ :
        Evaluated S E A)
  detached : ∀ {E A : Type} (frame : Frame S E) (state : RunState S),
    Within frame state [.detached frame.depth]
      (⟨.error (.defect .detachedAbort), frame, state⟩ : Evaluated S E A)
  nested : ∀ {E A : Type} {body : Sequence S E A} {layer : Layer S} {frame : Frame S E}
    {state : RunState S} {history : History S} {out : Evaluated S E A},
    Nested body { context := frame.context.extend layer, depth := frame.depth + 1 } state
      history out →
    Within frame state history
      ⟨out.settled, { frame with suppressed := frame.suppressed ++ out.frame.suppressed },
        out.state⟩
  attempted : ∀ {E F A : Type} {inner : Sequence S F A} {frame : Frame S E}
    {state : RunState S} {history : History S} {out : Evaluated S F A},
    Nested inner { context := frame.context, depth := frame.depth + 1 } state history out →
    Within frame state (history ++ [.attempted frame.depth out.settled.failure?])
      (⟨.ofExit (out.settled.exit .ok .err), frame, out.state⟩ : Evaluated S E (Outcome F A))
  bracketed : ∀ {E A : Type} {body : Sequence S E A} {frame : Frame S E} {state : RunState S}
    {history : History S} {out : Evaluated S E A},
    Driven body frame ((state.countStep .runNested).record (.nestedEntered frame.depth))
      history out →
    Nested body frame state
      (.entered frame.depth :: history ++ [.exited frame.depth out.settled.isSuccess])
      { out with state := out.state.record (.nestedExited frame.depth out.settled.isSuccess) }
  driven : ∀ {E A : Type} {sequence : Sequence S E A} {context : Context S} {depth : Nat}
    {state : RunState S} {before after : History S} {body out : Evaluated S E A},
    Within { context, depth } (state.reach depth) before body →
    Drained body.settled body.frame body.state after out →
    Driven sequence { context, depth } state
      (.opened sequence context depth :: before ++ .settled depth :: after ++ [.closed depth])
      out
  drained : ∀ {E A : Type} {settled : Settled E A} {frame : Frame S E} {state : RunState S},
    frame.finalizers = [] → Drained settled frame state [] ⟨settled, frame, state⟩
  finalized : ∀ {E A : Type} {settled : Settled E A} {frame : Frame S E} {state : RunState S}
    {finalizer : Sequence S E Unit} {older : List (Sequence S E Unit)}
    {before after : History S} {result : Evaluated S E Unit} {out : Evaluated S E A},
    frame.finalizers = finalizer :: older →
    Driven finalizer { context := frame.context, depth := frame.depth + 1 }
      (state.finalizerRan frame.depth) before result →
    Drained (settled.absorb result.settled).1
      { frame with
        finalizers := older
        suppressed := (Machine.discard (settled.absorb result.settled).2 frame.depth
          (frame.suppressed ++ result.frame.suppressed) result.state).1 }
      (Machine.discard (settled.absorb result.settled).2 frame.depth
        (frame.suppressed ++ result.frame.suppressed) result.state).2 after out →
    Drained settled frame state
      (.finalizing frame.depth :: before ++
        (settled.absorb result.settled).2.moments frame.depth ++ after) out

namespace RunInvariant

def Holds (I : RunInvariant S) (task : Task S E A) :
    Frame S E → RunState S → History S → Evaluated S E A → Prop :=
  match task with
  | .evaluate _ => I.Within
  | .handle _ => I.Within
  | .play _ => I.Within
  | .attempt _ => I.Within
  | .nest sequence => I.Nested sequence
  | .drive sequence => I.Driven sequence
  | .drain settled => I.Drained settled

theorem of_runs (I : RunInvariant S) {procedures : Procedures S} {task : Task S E A}
    {frame : Frame S E} {state : RunState S} {history : History S} {out : Evaluated S E A}
    (run : Runs procedures task frame state history out) :
    I.Holds task frame state history out := by
  induction run with
  | succeed => exact I.value _ _ _
  | perform handled ih => exact ih
  | effect after ih => exact I.acted ih
  | call body ih => exact ih
  | andThenValue first second ihFirst ihSecond => exact I.followed ihFirst ihSecond
  | andThenInterrupt first ih => exact I.interrupted _ ih
  | foldValue first second ihFirst ihSecond => exact I.followed ihFirst ihSecond
  | foldFailure first second ihFirst ihSecond => exact I.recovered ihFirst ihSecond
  | foldDefect first ih => exact I.interrupted _ ih
  | ensuring first ih => exact I.registered _ ih
  | routine played ih => exact ih
  | requestFound found => exact I.resolved _ _ found
  | requestMissing missing => exact I.unresolved _ _ missing
  | fail => exact I.failed _ _ _
  | nested inner ih => exact I.nested ih
  | finalize => exact I.registered _ (I.value _ _ ())
  | done => exact I.value _ _ _
  | abort => exact I.detached _ _
  | act after ih => exact I.acted ih
  | performValue first second ihFirst ihSecond => exact I.followed ihFirst ihSecond
  | performInterrupt first ih => exact I.interrupted _ ih
  | bindValue first second ihFirst ihSecond => exact I.followed ihFirst ihSecond
  | bindInterrupt first ih => exact I.interrupted _ ih
  | attemptValue first second ihFirst ihSecond => exact I.followed ihFirst ihSecond
  | attemptInterrupt first ih => exact I.interrupted _ ih
  | depth after ih => exact ih
  | context after ih => exact ih
  | attempt nested ih => exact I.attempted ih
  | nest driven ih => exact I.bracketed ih
  | drive evaluated drained ihEvaluated ihDrained => exact I.driven ihEvaluated ihDrained
  | drained none => exact I.drained none
  | finalizer newest driven drained ihDriven ihDrained =>
      exact I.finalized newest ihDriven ihDrained

end RunInvariant

end Sequencer
