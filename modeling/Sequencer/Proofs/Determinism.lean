import Sequencer.Proofs.Refinement

/-!
# One history

A sequence, a frame and a state leave no choice: the rules give one history and one result.
So one may speak of the history of a run.
-/

namespace Sequencer

variable {S : Signature} {E A : Type} {procedures : Procedures S}

def Step.Handled (procedures : Procedures S) (step : Step S E A) (frame : Frame S E)
    (state : RunState S) (history : History S) (out : Evaluated S E A) : Prop :=
  match step with
  | .request key =>
      (∃ value, frame.context.lookup key = .found value ∧
        history = [.resolved frame.depth key.capability] ∧
        out = ⟨.ok value, frame, (state.countStep .requestCapability).record
          (.capabilityResolved frame.depth key.name)⟩) ∨
      (frame.context.lookup key = .missing ∧
        history = [.unresolved frame.depth key.capability] ∧
        out = ⟨.error (.defect (.unresolvedCapability key.name key.id)), frame,
          (state.countStep .requestCapability).record
            (.capabilityUnresolved frame.depth key.name)⟩)
  | .fail error =>
      history = [.failed frame.depth ⟨error⟩] ∧
      out = ⟨.error (.failed error), frame, (state.countStep .fail).record (.failed frame.depth)⟩
  | .nested layer body => ∃ inner, Runs procedures (.nest body)
      { context := frame.context.extend layer, depth := frame.depth + 1 } state history inner ∧
      out = ⟨inner.settled,
        { frame with suppressed := frame.suppressed ++ inner.frame.suppressed }, inner.state⟩
  | .finalize finalizer =>
      history = [.registered frame.depth finalizer] ∧
      out = ⟨.ok (), frame.register finalizer, state.registered frame.depth⟩

/-- What the rules allow for steps and attempts.  Their answers have types that do not tell
which step or attempt gave them, so their derivations are opened by way of this predicate. -/
def Task.Inverted (procedures : Procedures S) (task : Task S E A) (frame : Frame S E)
    (state : RunState S) (history : History S) (out : Evaluated S E A) : Prop :=
  match task with
  | .handle step => step.Handled procedures frame state history out
  | .attempt inner => ∃ before result, Runs procedures (.nest inner)
      { context := frame.context, depth := frame.depth + 1 } state before result ∧
      history = before ++ [.attempted frame.depth result.settled.failure?] ∧
      out = ⟨.ofExit (result.settled.exit .ok .err), frame, result.state⟩
  | _ => True

namespace Runs

variable {frame : Frame S E} {state : RunState S} {history history' : History S}
  {out out' : Evaluated S E A}

theorem inverted {task : Task S E A} (run : Runs procedures task frame state history out) :
    task.Inverted procedures frame state history out := by
  cases run with
  | requestFound found => exact .inl ⟨_, found, rfl, rfl⟩
  | requestMissing missing => exact .inr ⟨missing, rfl, rfl⟩
  | fail => exact ⟨rfl, rfl⟩
  | nested inner => exact ⟨_, inner, rfl⟩
  | finalize => exact ⟨rfl, rfl⟩
  | attempt nested => exact ⟨_, _, nested, rfl, rfl⟩
  | _ => trivial

theorem unique {task : Task S E A} (run : Runs procedures task frame state history out)
    (run' : Runs procedures task frame state history' out') :
    history = history' ∧ out = out' := by
  -- Where two rules fit a construct they differ in how its first part settles, and that is
  -- settled by the induction hypothesis.
  induction run generalizing history' with
  | succeed => cases run'; exact ⟨rfl, rfl⟩
  | perform handled ih => cases run' with | perform handled' => exact ih handled'
  | effect after ih => cases run' with | effect after' => exact ih after'
  | call body ih => cases run' with | call body' => exact ih body'
  | andThenValue first second ihFirst ihSecond =>
      cases run' with
      | andThenValue first' second' =>
          obtain ⟨rfl, ⟨⟩⟩ := ihFirst first'
          obtain ⟨rfl, rfl⟩ := ihSecond second'
          exact ⟨rfl, rfl⟩
      | andThenInterrupt first' => cases (ihFirst first').2
  | andThenInterrupt first ih =>
      cases run' with
      | andThenValue first' second' => cases (ih first').2
      | andThenInterrupt first' =>
          obtain ⟨rfl, ⟨⟩⟩ := ih first'
          exact ⟨rfl, rfl⟩
  | foldValue first second ihFirst ihSecond =>
      cases run' with
      | foldValue first' second' =>
          obtain ⟨rfl, ⟨⟩⟩ := ihFirst first'
          obtain ⟨rfl, rfl⟩ := ihSecond second'
          exact ⟨rfl, rfl⟩
      | foldFailure first' second' => cases (ihFirst first').2
      | foldDefect first' => cases (ihFirst first').2
  | foldFailure first second ihFirst ihSecond =>
      cases run' with
      | foldValue first' second' => cases (ihFirst first').2
      | foldFailure first' second' =>
          obtain ⟨rfl, ⟨⟩⟩ := ihFirst first'
          obtain ⟨rfl, rfl⟩ := ihSecond second'
          exact ⟨rfl, rfl⟩
      | foldDefect first' => cases (ihFirst first').2
  | foldDefect first ih =>
      cases run' with
      | foldValue first' second' => cases (ih first').2
      | foldFailure first' second' => cases (ih first').2
      | foldDefect first' =>
          obtain ⟨rfl, ⟨⟩⟩ := ih first'
          exact ⟨rfl, rfl⟩
  | ensuring first ih =>
      cases run' with
      | ensuring first' =>
          obtain ⟨rfl, ⟨⟩⟩ := ih first'
          exact ⟨rfl, rfl⟩
  | routine played ih => cases run' with | routine played' => exact ih played'
  | requestFound found =>
      obtain ⟨value, found', rfl, rfl⟩ | ⟨missing, _, _⟩ := run'.inverted
      · cases found.symm.trans found'
        exact ⟨rfl, rfl⟩
      · cases found.symm.trans missing
  | requestMissing missing =>
      obtain ⟨value, found, _, _⟩ | ⟨_, rfl, rfl⟩ := run'.inverted
      · cases missing.symm.trans found
      · exact ⟨rfl, rfl⟩
  | fail =>
      obtain ⟨rfl, rfl⟩ := run'.inverted
      exact ⟨rfl, rfl⟩
  | nested inner ih =>
      obtain ⟨_, inner', rfl⟩ := run'.inverted
      obtain ⟨rfl, rfl⟩ := ih inner'
      exact ⟨rfl, rfl⟩
  | finalize =>
      obtain ⟨rfl, rfl⟩ := run'.inverted
      exact ⟨rfl, rfl⟩
  | done => cases run'; exact ⟨rfl, rfl⟩
  | abort => cases run'; exact ⟨rfl, rfl⟩
  | act after ih => cases run' with | act after' => exact ih after'
  | performValue first second ihFirst ihSecond =>
      cases run' with
      | performValue first' second' =>
          obtain ⟨rfl, ⟨⟩⟩ := ihFirst first'
          obtain ⟨rfl, rfl⟩ := ihSecond second'
          exact ⟨rfl, rfl⟩
      | performInterrupt first' => cases (ihFirst first').2
  | performInterrupt first ih =>
      cases run' with
      | performValue first' second' => cases (ih first').2
      | performInterrupt first' =>
          obtain ⟨rfl, ⟨⟩⟩ := ih first'
          exact ⟨rfl, rfl⟩
  | bindValue first second ihFirst ihSecond =>
      cases run' with
      | bindValue first' second' =>
          obtain ⟨rfl, ⟨⟩⟩ := ihFirst first'
          obtain ⟨rfl, rfl⟩ := ihSecond second'
          exact ⟨rfl, rfl⟩
      | bindInterrupt first' => cases (ihFirst first').2
  | bindInterrupt first ih =>
      cases run' with
      | bindValue first' second' => cases (ih first').2
      | bindInterrupt first' =>
          obtain ⟨rfl, ⟨⟩⟩ := ih first'
          exact ⟨rfl, rfl⟩
  | attemptValue first second ihFirst ihSecond =>
      cases run' with
      | attemptValue first' second' =>
          obtain ⟨rfl, ⟨⟩⟩ := ihFirst first'
          obtain ⟨rfl, rfl⟩ := ihSecond second'
          exact ⟨rfl, rfl⟩
      | attemptInterrupt first' => cases (ihFirst first').2
  | attemptInterrupt first ih =>
      cases run' with
      | attemptValue first' second' => cases (ih first').2
      | attemptInterrupt first' =>
          obtain ⟨rfl, ⟨⟩⟩ := ih first'
          exact ⟨rfl, rfl⟩
  | depth after ih => cases run' with | depth after' => exact ih after'
  | context after ih => cases run' with | context after' => exact ih after'
  | attempt nested ih =>
      obtain ⟨_, _, nested', rfl, rfl⟩ := run'.inverted
      obtain ⟨rfl, rfl⟩ := ih nested'
      exact ⟨rfl, rfl⟩
  | nest driven ih =>
      cases run' with
      | nest driven' =>
          obtain ⟨rfl, rfl⟩ := ih driven'
          exact ⟨rfl, rfl⟩
  | drive evaluated drained ihEvaluated ihDrained =>
      cases run' with
      | drive evaluated' drained' =>
          obtain ⟨rfl, rfl⟩ := ihEvaluated evaluated'
          obtain ⟨rfl, rfl⟩ := ihDrained drained'
          exact ⟨rfl, rfl⟩
  | drained none =>
      cases run' with
      | drained none' => exact ⟨rfl, rfl⟩
      | finalizer newest driven drained => cases none.symm.trans newest
  | finalizer newest driven drained ihDriven ihDrained =>
      cases run' with
      | drained none => cases newest.symm.trans none
      | finalizer newest' driven' drained' =>
          cases newest.symm.trans newest'
          obtain ⟨rfl, rfl⟩ := ihDriven driven'
          obtain ⟨rfl, rfl⟩ := ihDrained drained'
          exact ⟨rfl, rfl⟩

end Runs

theorem Interpreter.Completes.existsUnique_records {interpreter : Interpreter S}
    {sequence : Sequence S E A} {context : Context S} {world left : S.World}
    {report : RunReport E A}
    (completes : interpreter.Completes sequence context world report left) :
    ∃! history, interpreter.Records sequence context world history report left := by
  obtain ⟨history, records⟩ := Interpreter.completes_iff_records.mp completes
  refine ⟨history, records, fun other records' => ?_⟩
  obtain ⟨out, run, -, -⟩ := records
  obtain ⟨out', run', -, -⟩ := records'
  exact (run'.unique run).1

end Sequencer
