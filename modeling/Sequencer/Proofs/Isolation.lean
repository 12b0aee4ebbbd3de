import Sequencer.Proofs.Laws

/-!
# Attempts keep failures to themselves

An attempt and a nested frame are two ways through the engine.  They drive the same frame and
differ in what they make of its end: a nested frame hands its failure and all that it suppressed to
the frame around it, an attempt hands its failure over as a value and what it suppressed not at
all.  Converting the failure afterwards is what `mapErr` does.
-/

namespace Sequencer

variable {S : Signature} {E F A B : Type} {procedures : Procedures S}

def Settled.handed : Settled F A → Settled E (Outcome F A)
  | .ok value => .ok (.ok value)
  | .error (.failed error) => .ok (.err error)
  | .error (.defect defect) => .error (.defect defect)

def Evaluated.handed (frame : Frame S E) (out : Evaluated S F A) : Evaluated S E (Outcome F A) :=
  ⟨out.settled.handed, frame, out.state⟩

def Frame.retype (frame : Frame S E) (finalizers : List (Sequence S F Unit))
    (suppressed : Array F) : Frame S F :=
  { context := frame.context, depth := frame.depth, finalizers, suppressed }

theorem Settled.handed_eq (settled : Settled F A) :
    (settled.handed : Settled E (Outcome F A)) = .ofExit (settled.exit .ok .err) := by
  rcases settled with (error | defect) | value <;> rfl

theorem Settled.handed_ne_failed (settled : Settled F A) (error : E) :
    settled.handed ≠ .error (.failed error) := by
  rcases settled with (failure | defect) | value <;> nofun

/-! ## Both ways through the engine -/

theorem Level.answer_attempt (level : Level S) (sequence : Sequence S F A) (frame : Frame S E)
    (finalizers : List (Sequence S F Unit)) (suppressed : Array F) (state : RunState S) :
    level.answer (.attempt sequence) frame state =
      (level.answer (.perform (.nested .empty sequence)) (frame.retype finalizers suppressed)
        state).map (Evaluated.handed frame) := by
  have same : (frame.retype finalizers suppressed).context.extend .empty = frame.context := rfl
  have place : (frame.retype finalizers suppressed).depth = frame.depth := rfl
  simp only [Level.answer, Level.attempt, Level.handle, same, place]
  cases level.nested sequence frame.context (frame.depth + 1) state with
  | error stop => rfl
  | ok driven => simp only [Except.map, Evaluated.handed, Settled.handed_eq]

theorem Routine.run_call_done (level : Level S) (call : Call S E B) (frame : Frame S E)
    (state : RunState S) :
    (Routine.call call (.propagate .done)).run level none frame state =
      level.answer call frame state := by
  rw [Routine.run_call level call _ { frame, state }, Handle.call]
  rcases level.answer call frame state with stop | ⟨interrupt | value, frame', state'⟩ <;> rfl

/-- Two machines one step from rest, whose results are related, need the same number of steps. -/
theorem Machine.loop_map {R T : Type} {level : Level S} {config : Machine.Config S F R}
    {config' : Machine.Config S E T} (f : Evaluated S F R → Evaluated S E T)
    (result : Except Stop (Evaluated S F R))
    (turn : Machine.step procedures level config = .ofEvaluated .done result)
    (turn' : Machine.step procedures level config' = .ofEvaluated .done (result.map f))
    (fuel : Nat) :
    Machine.loop procedures level fuel config' =
      (Machine.loop procedures level fuel config).map f := by
  cases fuel with
  | zero => rfl
  | succ fuel =>
      simp only [Machine.loop, turn, turn']
      cases result with
      | error stop => rfl
      | ok out => cases fuel <;> rfl

theorem Sequence.either_eq (sequence : Sequence S F A) :
    (sequence.either : Sequence S E _) =
      .routine (.call (.attempt sequence) (.propagate .done)) := by
  rw [Sequence.either, Routine.call]
  congr 2
  funext answer
  cases answer <;> rfl

theorem Machine.eval_either (level : Level S) (fuel : Nat) (sequence : Sequence S F A)
    (frame : Frame S E) (finalizers : List (Sequence S F Unit)) (suppressed : Array F)
    (state : RunState S) :
    Machine.eval procedures level fuel sequence.either frame state =
      (Machine.eval procedures level fuel sequence.nested (frame.retype finalizers suppressed)
        state).map (Evaluated.handed frame) := by
  refine Machine.loop_map _ (level.answer (.perform (.nested .empty sequence))
    (frame.retype finalizers suppressed) state) rfl ?_ fuel
  rw [← level.answer_attempt, ← Routine.run_call_done, Sequence.either_eq]
  rfl

theorem Machine.frame_of_eval_nested {level : Level S} {fuel : Nat} {sequence : Sequence S F A}
    {frame : Frame S F} {state : RunState S} {out : Evaluated S F A}
    (evaluated : Machine.eval procedures level fuel sequence.nested frame state = .ok out) :
    ∃ suppressed, out.frame = { frame with suppressed } := by
  have turn : Machine.step procedures level ⟨.running sequence.nested, .done, frame, state⟩ =
    .ofEvaluated .done (level.handle (.nested .empty sequence) frame state) := rfl
  cases fuel with
  | zero => cases evaluated
  | succ fuel =>
      simp only [Machine.eval, Machine.loop, turn, Level.handle] at evaluated
      cases nested : level.nested sequence (frame.context.extend .empty) (frame.depth + 1)
          state with
      | error stop =>
          rw [nested] at evaluated
          cases evaluated
      | ok driven =>
          rw [nested] at evaluated
          cases fuel with
          | zero => cases evaluated
          | succ fuel =>
              cases evaluated
              exact ⟨_, rfl⟩

theorem Machine.drive_either (level : Level S) (fuel : Nat) (sequence : Sequence S F A)
    (context : Context S) (depth : Nat) (state : RunState S) :
    Machine.drive procedures level fuel (sequence.either : Sequence S E _) context depth state =
      (Machine.drive procedures level fuel sequence.nested context depth state).map
        fun driven => ⟨driven.settled.handed, #[], driven.state⟩ := by
  simp only [Machine.drive, Machine.eval_either level fuel sequence _ [] #[], Frame.retype]
  cases ended : Machine.eval procedures level fuel sequence.nested { context, depth }
      (state.reach depth) with
  | error stop => rfl
  | ok out =>
      obtain ⟨suppressed, same⟩ := Machine.frame_of_eval_nested ended
      obtain ⟨settled, frame, left⟩ := out
      subst same
      rfl

def RunReport.handed (report : RunReport F A) : RunReport E (Outcome F A) where
  exit := report.exit.map .ok
  suppressed := #[]
  stats := report.stats
  trace := report.trace
  dropped := report.dropped

theorem Interpreter.run_either (interpreter : Interpreter S) (fuel : Nat)
    (sequence : Sequence S F A) (context : Context S) (world : S.World) :
    interpreter.run fuel (sequence.either : Sequence S E _) context world =
      (interpreter.run fuel sequence.nested context world).map fun ran =>
        (ran.1.handed, ran.2) := by
  cases fuel with
  | zero => rfl
  | succ fuel =>
      simp only [Interpreter.run, Machine.level, Machine.drive_either]
      rcases Machine.drive interpreter.procedures (Machine.level interpreter.procedures fuel)
          (fuel + 1) sequence.nested context 0 ⟨{ config := interpreter.config }, world⟩ with
        stop | ⟨(failure | defect) | value, suppressed, left⟩ <;> rfl

/-! ## Converting failures -/

def Sequence.ofOutcome (f : F → E) : Outcome F A → Sequence S E A
  | .ok value => .succeed value
  | .err error => .fail (f error)

theorem Runs.routine_fail_iff {error : E} {frame : Frame S E} {state : RunState S}
    {history : History S} {out : Evaluated S E A} :
    Runs procedures (.play (.fail error)) frame state history out ↔
      Runs procedures (.evaluate (.fail error)) frame state history out := by
  rw [Routine.fail, Sequence.fail, Runs.perform_iff]
  refine (Runs.call_iff (.perform (.fail error) : Call S E A) _).trans ?_
  constructor
  · rintro (⟨_, _, _, _, _, rfl, run, rest⟩ | ⟨_, _, _, rfl, run⟩)
    · obtain ⟨-, ⟨⟩⟩ := run.inverted
    · exact run
  · intro run
    obtain ⟨rfl, rfl⟩ := run.inverted
    exact .inr ⟨_, _, _, rfl, run⟩

theorem Sequence.mapErr_equivalent (sequence : Sequence S F A) (f : F → E) :
    (sequence.mapErr f).Equivalent procedures (sequence.either.andThen (.ofOutcome f)) := by
  apply Equivalent.of_runs_iff
  intro frame state history out
  rw [Sequence.mapErr, Runs.routine_iff, Runs.andThen_iff]
  refine (Runs.call_iff (.attempt sequence) _).trans ?_
  simp only [Runs.either_iff]
  refine or_congr ?_ Iff.rfl
  constructor
  · rintro ⟨before, after, outcome, frame', state', rfl, run, rest⟩
    refine ⟨before, after, outcome, frame', state', rfl, run, ?_⟩
    cases outcome with
    | ok value => exact Runs.succeed_iff.mpr (Runs.done_iff.mp rest)
    | err error => exact Runs.routine_fail_iff.mp rest
  · rintro ⟨before, after, outcome, frame', state', rfl, run, rest⟩
    refine ⟨before, after, outcome, frame', state', rfl, run, ?_⟩
    cases outcome with
    | ok value => exact Runs.done_iff.mpr (Runs.succeed_iff.mp rest)
    | err error => exact Runs.routine_fail_iff.mpr rest

/-- An attempt at a sequence ends as a nested frame in its place would, in the same state and with
any fuel, but for this: it gives a failure as a value, and its frame is as before.  At top level the
reports differ in the same way.  `mapErr` is an attempt whose failure is converted. -/
theorem attempts_isolate_failures (interpreter : Interpreter S) (sequence : Sequence S F A) :
    (∀ (level : Level S) (fuel : Nat) (frame : Frame S E) (finalizers : List (Sequence S F Unit))
      (suppressed : Array F) (state : RunState S),
      Machine.eval interpreter.procedures level fuel sequence.either frame state =
        (Machine.eval interpreter.procedures level fuel sequence.nested
          (frame.retype finalizers suppressed) state).map (Evaluated.handed frame) ∧
      level.answer (.attempt sequence) frame state =
        (level.answer (.perform (.nested .empty sequence)) (frame.retype finalizers suppressed)
          state).map (Evaluated.handed frame)) ∧
    (∀ (level : Level S) (fuel : Nat) (frame frame' : Frame S E) (state state' : RunState S)
      (error : E), Machine.eval interpreter.procedures level fuel sequence.either frame state ≠
        .ok ⟨.error (.failed error), frame', state'⟩) ∧
    (∀ (fuel : Nat) (context : Context S) (world : S.World),
      interpreter.run fuel (sequence.either : Sequence S E _) context world =
        (interpreter.run fuel sequence.nested context world).map fun ran =>
          (ran.1.handed, ran.2)) ∧
    ∀ f : F → E, (sequence.mapErr f).Equivalent interpreter.procedures
        (sequence.either.andThen (.ofOutcome f)) ∧
      ∀ (context : Context S) (world : S.World) (report : RunReport E A) (left : S.World),
        interpreter.Completes (sequence.mapErr f) context world report left ↔
          interpreter.Completes (sequence.either.andThen (.ofOutcome f)) context world report
            left := by
  refine ⟨?_, ?_, fun fuel => interpreter.run_either fuel sequence, ?_⟩
  · intro level fuel frame finalizers suppressed state
    exact ⟨Machine.eval_either level fuel sequence frame finalizers suppressed state,
      level.answer_attempt sequence frame finalizers suppressed state⟩
  · intro level fuel frame frame' state state' error failed
    rw [Machine.eval_either level fuel sequence frame [] #[]] at failed
    cases ended : Machine.eval interpreter.procedures level fuel sequence.nested
        (frame.retype [] #[]) state with
    | error stop =>
        rw [ended] at failed
        cases failed
    | ok out =>
        rw [ended] at failed
        injection failed with handed
        exact out.settled.handed_ne_failed error (congrArg Evaluated.settled handed)
  · intro f
    exact ⟨sequence.mapErr_equivalent f, fun _ _ _ _ =>
      (sequence.mapErr_equivalent f).completes_iff⟩

def contestedLoss : Sequence Sample.signature String Nat :=
  (Sequence.fail "lost").ensuring (.fail "stuck")

theorem attempts_isolate_failures_contested :
    (∃ report, Sample.interpreter.Completes contestedLoss.nested .empty [] report [] ∧
      report.exit = .ok (.err "lost") ∧ report.suppressed = #["stuck"] ∧
      Sample.interpreter.Completes (contestedLoss.either : Sequence Sample.signature Nat _) .empty
        [] report.handed []) ∧
    ∃ report,
      Sample.interpreter.Completes (contestedLoss.mapErr String.length) .empty [] report [] ∧
      report.exit = .ok (.err 4) ∧ report.suppressed = #[] ∧
      Sample.interpreter.Completes (contestedLoss.either.andThen (.ofOutcome String.length)) .empty
        [] report [] := by
  refine ⟨?_, ?_⟩
  · obtain ⟨-, -, reports, -⟩ :=
      attempts_isolate_failures (E := Nat) Sample.interpreter contestedLoss
    have nested : Sample.interpreter.run 8 contestedLoss.nested .empty [] = .ok (_, []) := rfl
    refine ⟨_, ⟨8, nested⟩, rfl, rfl, 8, ?_⟩
    rw [reports, nested]
    rfl
  · obtain ⟨-, -, -, converted⟩ := attempts_isolate_failures Sample.interpreter contestedLoss
    have completes : Sample.interpreter.Completes (contestedLoss.mapErr String.length) .empty [] _
        [] := ⟨8, rfl⟩
    exact ⟨_, completes, rfl, rfl, ((converted String.length).2 _ _ _ _).mp completes⟩

end Sequencer
