import Sequencer.Proofs.Finalizers
import Sequencer.Proofs.Replay

/-!
# The grammar of traces

A trace with nothing dropped is the word of a frame.  The word of a frame is that of its body
followed by that of its finalizers; nested frames stand between the events that mark their
ends, the frames of finalizers after the events that announce them.  Next to each word stands
the history it is the trace of, so that what a word says of a frame is said of a frame that ran.
-/

namespace Sequencer

variable {S : Signature} {E A : Type}

mutual

inductive FrameWord {S : Signature} (procedures : Procedures S) :
    {E A : Type} → (depth : Nat) → History S → List TraceEvent → Settled E A → Prop where
  | intro {E A : Type} {sequence : Sequence S E A} {context : Context S} {depth registered : Nat}
      {state : RunState S} {before after : History S} {body out : Evaluated S E A}
      {word word' : List TraceEvent}
      (evaluated : Runs procedures (.evaluate sequence) { context, depth } (state.reach depth)
        before body)
      (drained : Runs procedures (.drain body.settled) body.frame body.state after out)
      (ofBody : BodyWord procedures depth registered before word)
      (ofDrain : DrainWord procedures depth registered body.settled after word' out.settled) :
      FrameWord procedures depth
        (.opened sequence context depth :: before ++ .settled depth :: after ++ [.closed depth])
        (word ++ word') out.settled

/-- The word of the body of a frame at `depth`, in which so many finalizers are registered on
that frame. -/
inductive BodyWord {S : Signature} (procedures : Procedures S) :
    (depth registered : Nat) → History S → List TraceEvent → Prop where
  | empty {depth : Nat} : BodyWord procedures depth 0 [] []
  | silent {depth : Nat} {moment : Moment S} (plain : moment.PlainAt depth)
      (quiet : moment.event? = none) : BodyWord procedures depth 0 [moment] []
  | resolved {depth : Nat} (capability : Capability) :
      BodyWord procedures depth 0 [.resolved depth capability]
        [.capabilityResolved depth capability.name]
  | unresolved {depth : Nat} (capability : Capability) :
      BodyWord procedures depth 0 [.unresolved depth capability]
        [.capabilityUnresolved depth capability.name]
  | failed {depth : Nat} (failure : Failure) :
      BodyWord procedures depth 0 [.failed depth failure] [.failed depth]
  | registered {E : Type} {depth : Nat} (finalizer : Sequence S E Unit) :
      BodyWord procedures depth 1 [.registered depth finalizer] [.finalizerRegistered depth]
  | nested {E A : Type} {depth : Nat} {history : History S} {word : List TraceEvent}
      {settled : Settled E A} (frame : FrameWord procedures (depth + 1) history word settled) :
      BodyWord procedures depth 0
        (.entered (depth + 1) :: history ++ [.exited (depth + 1) settled.isSuccess])
        (.nestedEntered (depth + 1) :: word ++ [.nestedExited (depth + 1) settled.isSuccess])
  | append {depth registered registered' : Nat} {before after : History S}
      {word word' : List TraceEvent} (first : BodyWord procedures depth registered before word)
      (second : BodyWord procedures depth registered' after word') :
      BodyWord procedures depth (registered + registered') (before ++ after) (word ++ word')

/-- The word of so many finalizers of a frame at `depth`, and how they change the way the frame
stands settled. -/
inductive DrainWord {S : Signature} (procedures : Procedures S) :
    {E A : Type} → (depth finalizers : Nat) → Settled E A → History S → List TraceEvent →
    Settled E A → Prop where
  | empty {E A : Type} {depth : Nat} {settled : Settled E A} :
      DrainWord procedures depth 0 settled [] [] settled
  | finalizer {E A : Type} {depth older : Nat} {settled final : Settled E A}
      {result : Settled E Unit} {history after : History S} {word word' : List TraceEvent}
      (frame : FrameWord procedures (depth + 1) history word result)
      (rest : DrainWord procedures depth older (settled.absorb result).1 after word' final) :
      DrainWord procedures depth (older + 1) settled
        (.finalizing depth :: history ++ (settled.absorb result).2.moments depth ++ after)
        (.finalizerRan depth :: word ++
          (if settled.isSuccess || result.isSuccess then [] else [.finalizerSuppressed depth]) ++
          word')
        final

end

/-! ## Every run writes a word -/

theorem fullTrace_absorb (settled : Settled E A) (result : Settled E Unit) (depth : Nat) :
    fullTrace ((settled.absorb result).2.moments depth : History S) =
      if settled.isSuccess || result.isSuccess then [] else [.finalizerSuppressed depth] := by
  rcases settled with (_ | _) | _ <;> rcases result with (_ | _) | _ <;> rfl

structure Writes (procedures : Procedures S) (frame : Frame S E) (history : History S)
    (registered : Nat) (frame' : Frame S E) : Prop where
  word : BodyWord procedures frame.depth registered history (fullTrace history)
  finalizers : frame'.finalizers.length = registered + frame.finalizers.length
  depth : frame'.depth = frame.depth

namespace Writes

variable {procedures : Procedures S} {frame frame' frame'' : Frame S E} {before after : History S}
  {registered registered' : Nat}

theorem refl (frame : Frame S E) : Writes procedures frame [] 0 frame :=
  ⟨.empty, (Nat.zero_add _).symm, rfl⟩

theorem trans (first : Writes procedures frame before registered frame')
    (second : Writes procedures frame' after registered' frame'') :
    Writes procedures frame (before ++ after) (registered + registered') frame'' where
  word := by
    rw [fullTrace_append]
    exact first.word.append (first.depth ▸ second.word)
  finalizers := by
    rw [second.finalizers, first.finalizers]
    omega
  depth := second.depth.trans first.depth

theorem followed (first : ∃ registered, Writes procedures frame before registered frame')
    (second : ∃ registered, Writes procedures frame' after registered frame'') :
    ∃ registered, Writes procedures frame (before ++ after) registered frame'' := by
  obtain ⟨_, first⟩ := first
  obtain ⟨_, second⟩ := second
  exact ⟨_, first.trans second⟩

theorem silent (frame : Frame S E) {moment : Moment S} (plain : moment.PlainAt frame.depth)
    (quiet : moment.event? = none) : Writes procedures frame [moment] 0 frame where
  word := by
    rw [fullTrace_cons, quiet]
    exact .silent plain quiet
  finalizers := (Nat.zero_add _).symm
  depth := rfl

theorem register (frame : Frame S E) (finalizer : Sequence S E Unit) :
    Writes procedures frame [.registered frame.depth finalizer] 1 (frame.register finalizer) :=
  ⟨.registered finalizer, Nat.add_comm _ _, rfl⟩

theorem nested {F B : Type} {history : History S} {settled : Settled F B} (frame : Frame S E)
    {suppressed : Array E}
    (inner : FrameWord procedures (frame.depth + 1) history (fullTrace history) settled) :
    Writes procedures frame
      (.entered (frame.depth + 1) :: history ++ [.exited (frame.depth + 1) settled.isSuccess]) 0
      { frame with suppressed } where
  word := by
    simp only [fullTrace_cons, fullTrace_append]
    exact .nested inner
  finalizers := (Nat.zero_add _).symm
  depth := rfl

end Writes

def Task.Written (procedures : Procedures S) (task : Task S E A) (frame : Frame S E)
    (history : History S) (out : Evaluated S E A) : Prop :=
  match task with
  | .nest _ => ∃ inner,
      history = .entered frame.depth :: inner ++ [.exited frame.depth out.settled.isSuccess] ∧
      FrameWord procedures frame.depth inner (fullTrace inner) out.settled
  | .drive _ => FrameWord procedures frame.depth history (fullTrace history) out.settled
  | .drain settled => DrainWord procedures frame.depth frame.finalizers.length settled history
      (fullTrace history) out.settled
  | _ => ∃ registered, Writes procedures frame history registered out.frame

theorem Runs.written {procedures : Procedures S} {task : Task S E A} {frame : Frame S E}
    {state : RunState S} {history : History S} {out : Evaluated S E A}
    (run : Runs procedures task frame state history out) :
    task.Written procedures frame history out := by
  induction run with
  | succeed => exact ⟨0, .refl _⟩
  | perform handled ih => exact ih
  | effect after ih => exact ih
  | call body ih => exact ih
  | andThenValue first second ihFirst ihSecond => exact Writes.followed ihFirst ihSecond
  | andThenInterrupt first ih => exact ih
  | foldValue first second ihFirst ihSecond => exact Writes.followed ihFirst ihSecond
  | @foldFailure _ _ _ _ _ _ _ frame' _ _ _ _ error _ first second ihFirst ihSecond =>
      have handed : Writes procedures frame' [.recovered frame'.depth ⟨error⟩] 0 frame' :=
        .silent frame' rfl rfl
      exact Writes.followed ihFirst (Writes.followed ⟨0, handed⟩ ihSecond)
  | foldDefect first ih => exact ih
  | ensuring first ih => exact Writes.followed ih ⟨1, .register _ _⟩
  | routine played ih => exact ih
  | requestFound found => exact ⟨0, .resolved _, (Nat.zero_add _).symm, rfl⟩
  | requestMissing missing => exact ⟨0, .unresolved _, (Nat.zero_add _).symm, rfl⟩
  | fail => exact ⟨0, .failed _, (Nat.zero_add _).symm, rfl⟩
  | nested inner ih =>
      obtain ⟨_, rfl, frame⟩ := ih
      exact ⟨0, .nested _ frame⟩
  | finalize => exact ⟨1, .register _ _⟩
  | done => exact ⟨0, .refl _⟩
  | abort => exact ⟨0, .silent _ rfl rfl⟩
  | act after ih => exact ih
  | performValue first second ihFirst ihSecond => exact Writes.followed ihFirst ihSecond
  | performInterrupt first ih => exact ih
  | bindValue first second ihFirst ihSecond => exact Writes.followed ihFirst ihSecond
  | bindInterrupt first ih => exact ih
  | attemptValue first second ihFirst ihSecond => exact Writes.followed ihFirst ihSecond
  | attemptInterrupt first ih => exact ih
  | depth after ih => exact ih
  | context after ih => exact ih
  | @attempt _ _ _ _ frame _ _ _ nested ih =>
      obtain ⟨_, rfl, inner⟩ := ih
      exact ⟨_, (Writes.nested frame inner).trans (.silent _ rfl rfl)⟩
  | nest driven ih => exact ⟨_, rfl, ih⟩
  | drive evaluated drained ihEvaluated ihDrained =>
      obtain ⟨_, body⟩ := ihEvaluated
      have drain := ihDrained
      rw [Task.Written, body.finalizers, body.depth] at drain
      have word := FrameWord.intro evaluated drained body.word drain
      simpa [Task.Written, Moment.event?] using word
  | drained none =>
      simp only [Task.Written, none]
      exact .empty
  | finalizer newest driven drained ihDriven ihDrained =>
      simp only [Task.Written, newest, fullTrace_append, fullTrace_cons, fullTrace_absorb]
      exact .finalizer ihDriven ihDrained

/-! ## A history tells how its frame settled -/

/-- How the frames that are open stand, innermost first, after one more moment.  A failure or a
defect stands until it is recovered from or handed back; a frame that closes leaves its own with
the frame around it. -/
def Moment.judge : List Bool → Moment S → List Bool
  | frames, .opened _ _ _ => true :: frames
  | inner :: outer :: frames, .closed _ => (outer && inner) :: frames
  | _ :: frames, .unresolved _ _ => false :: frames
  | _ :: frames, .detached _ => false :: frames
  | _ :: frames, .failed _ _ => false :: frames
  | _ :: frames, .recovered _ _ => true :: frames
  | _ :: frames, .attempted _ (some _) => true :: frames
  | frames, _ => frames

def verdicts (frames : List Bool) (history : History S) : List Bool :=
  history.foldl Moment.judge frames

@[simp] theorem verdicts_nil (frames : List Bool) : verdicts frames ([] : History S) = frames := rfl

@[simp] theorem verdicts_cons (frames : List Bool) (moment : Moment S) (history : History S) :
    verdicts frames (moment :: history) = verdicts (Moment.judge frames moment) history := rfl

@[simp] theorem verdicts_append (frames : List Bool) (before after : History S) :
    verdicts frames (before ++ after) = verdicts (verdicts frames before) after :=
  List.foldl_append

@[simp] theorem verdicts_moments (frames : List Bool) (discarded : Discarded E) (depth : Nat) :
    verdicts frames (discarded.moments depth : History S) = frames := by
  cases discarded <;> cases frames <;> rfl

theorem Settled.isSuccess_absorb (settled : Settled E A) (result : Settled E Unit) :
    (settled.absorb result).1.isSuccess = (settled.isSuccess && result.isSuccess) := by
  rcases settled with (_ | _) | _ <;> rcases result with (_ | _) | _ <;> rfl

def verdict (S : Signature) : RunInvariant S where
  Within _ _ history out := ∀ frames,
    verdicts (true :: frames) history = out.settled.isSuccess :: frames
  Nested _ _ _ history out := ∀ here frames,
    verdicts (here :: frames) history = (here && out.settled.isSuccess) :: frames
  Driven _ _ _ history out := ∀ here frames,
    verdicts (here :: frames) history = (here && out.settled.isSuccess) :: frames
  Drained settled _ _ history out := ∀ frames,
    verdicts (settled.isSuccess :: frames) history = out.settled.isSuccess :: frames
  value _ _ _ _ := rfl
  acted h := h
  followed first second frames := by
    rw [verdicts_append, first]
    exact second frames
  interrupted _ h := h
  recovered first second frames := by
    rw [verdicts_append, first]
    exact second frames
  registered _ h frames := by
    rw [verdicts_append, h]
    rfl
  resolved _ _ _ _ := rfl
  unresolved _ _ _ _ := rfl
  failed _ _ _ _ := rfl
  detached _ _ _ := rfl
  nested h frames := h true frames
  attempted {_ _ _ _ _ _ _ out} h frames := by
    rw [verdicts_append, h]
    rcases out.settled with (_ | _) | _ <;> rfl
  bracketed h here frames := by
    rw [verdicts_append, verdicts_cons]
    exact h here frames
  driven body drain here frames := by
    simp [Moment.judge, body, drain]
  drained _ _ := rfl
  finalized _ result drain frames := by
    rw [Settled.isSuccess_absorb] at drain
    simp [Moment.judge, result, drain]

theorem Runs.isSuccess_eq {procedures : Procedures S} {F B : Type} {sequence : Sequence S E A}
    {sequence' : Sequence S F B} {frame : Frame S E} {frame' : Frame S F}
    {state state' : RunState S} {history : History S} {out : Evaluated S E A}
    {out' : Evaluated S F B} (run : Runs procedures (.drive sequence) frame state history out)
    (run' : Runs procedures (.drive sequence') frame' state' history out') :
    out.settled.isSuccess = out'.settled.isSuccess := by
  have judged : verdicts [true] history = [true && out.settled.isSuccess] :=
    (verdict S).of_runs run true []
  have judged' : verdicts [true] history = [true && out'.settled.isSuccess] :=
    (verdict S).of_runs run' true []
  simpa using judged.symm.trans judged'

theorem FrameWord.ran {procedures : Procedures S} {depth : Nat} {history : History S}
    {word : List TraceEvent} {settled : Settled E A}
    (frame : FrameWord procedures depth history word settled) :
    ∃ (sequence : Sequence S E A) (start : Frame S E) (state : RunState S) (out : Evaluated S E A),
      Runs procedures (.drive sequence) start state history out ∧ settled = out.settled := by
  obtain ⟨evaluated, drained, -, -⟩ := frame
  exact ⟨_, _, _, _, .drive evaluated drained, rfl⟩

theorem FrameWord.isSuccess_eq {procedures : Procedures S} {F B : Type} {depth depth' : Nat}
    {history : History S} {word word' : List TraceEvent} {settled : Settled E A}
    {settled' : Settled F B} (frame : FrameWord procedures depth history word settled)
    (frame' : FrameWord procedures depth' history word' settled') :
    settled.isSuccess = settled'.isSuccess := by
  obtain ⟨_, _, _, _, run, rfl⟩ := frame.ran
  obtain ⟨_, _, _, _, run', rfl⟩ := frame'.ran
  exact run.isSuccess_eq run'

/-- A trace with nothing dropped is the word of the outermost frame.  In it a nested frame is
marked as it settled, and a finalizer as suppressed when it did not succeed and something stood
against the frame already.  A frame can be told to have settled with success by its history. -/
theorem trace_follows_grammar {interpreter : Interpreter S} {sequence : Sequence S E A}
    {context : Context S} {world left : S.World} {report : RunReport E A}
    (completes : interpreter.Completes sequence context world report left)
    (recording : interpreter.config.recordTrace = true) (whole : report.dropped = 0) :
    (∃! history, interpreter.Records sequence context world history report left) ∧
    ∀ history, interpreter.Records sequence context world history report left →
      (∃ settled : Settled E A, report.exit = settled.exit .ok .err ∧
        FrameWord interpreter.procedures 0 history report.trace.toList settled) ∧
      ∀ {F B G C : Type} {depth depth' : Nat} {inner : History S} {word word' : List TraceEvent}
        {settled : Settled F B} {settled' : Settled G C},
        FrameWord interpreter.procedures depth inner word settled →
        FrameWord interpreter.procedures depth' inner word' settled' →
        settled.isSuccess = settled'.isSuccess := by
  refine ⟨completes.existsUnique_records, fun history records => ⟨?_, FrameWord.isSuccess_eq⟩⟩
  obtain ⟨-, kept, lost⟩ := records.replay
  simp only [Journal.keeping, recording, if_true] at kept lost
  have room : (fullTrace history).length ≤ interpreter.config.traceCapacity := by omega
  rw [List.take_of_length_le room] at kept
  obtain ⟨out, run, rfl, rfl⟩ := records
  refine ⟨out.settled, rfl, ?_⟩
  rw [kept]
  exact run.written

def failingCleanup : Sequence Sample.signature String Nat :=
  (Sequence.fail "body").nested.ensuring (Sequence.fail "cleanup")

theorem trace_follows_grammar_cleanup : ∃ report,
    ({ Sample.interpreter with config := .tracing } : Interpreter _).Completes failingCleanup .empty
      [] report [] ∧
    report.trace.toList = [.nestedEntered 1, .failed 1, .nestedExited 1 false,
      .finalizerRegistered 0, .finalizerRan 0, .failed 1, .finalizerSuppressed 0] ∧
    ∃ history, ∃ settled : Settled String Nat, report.exit = settled.exit .ok .err ∧
      FrameWord Sample.interpreter.procedures 0 history report.trace.toList settled := by
  have completes : ({ Sample.interpreter with config := .tracing } : Interpreter _).Completes
    failingCleanup .empty [] _ [] := ⟨8, rfl⟩
  obtain ⟨⟨history, records, _⟩, words⟩ := trace_follows_grammar completes rfl rfl
  exact ⟨_, completes, rfl, history, (words history records).1⟩

end Sequencer
