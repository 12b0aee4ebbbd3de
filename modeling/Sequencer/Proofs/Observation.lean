import Sequencer.Proofs.Determinism
import Sequencer.Proofs.Replay

/-!
# Tracing only observes

No rule looks into the journal.  A run that starts from another journal therefore makes the
same history, and the two journals it leaves are that history replayed on either.  So the
configuration of an engine shows in the trace of a report and in its count of dropped events,
and nowhere else.
-/

namespace Sequencer

variable {S : Signature} {E A : Type}

def Evaluated.rejournalled (out : Evaluated S E A) (journal : Journal) : Evaluated S E A :=
  { out with state := { out.state with journal } }

theorem Machine.discard_rejournal (discarded : Discarded E) (depth : Nat) (suppressed : Array E)
    (state : RunState S) (journal : Journal) :
    Machine.discard discarded depth suppressed { state with journal } =
      ((Machine.discard discarded depth suppressed state).1,
        { (Machine.discard discarded depth suppressed state).2 with
          journal := journal.replay (discarded.moments depth : History S) }) := by
  cases discarded <;> rfl

theorem Runs.rejournal {procedures : Procedures S} {task : Task S E A} {frame : Frame S E}
    {state : RunState S} {history : History S} {out : Evaluated S E A}
    (run : Runs procedures task frame state history out) (journal : Journal) :
    Runs procedures task frame { state with journal } history
      (out.rejournalled (journal.replay history)) := by
  induction run generalizing journal with
  | succeed => exact .succeed
  | perform handled ih => exact .perform (ih journal)
  | effect after ih => exact .effect (ih journal)
  | call body ih => exact .call (ih journal)
  | andThenValue first second ihFirst ihSecond =>
      rw [Journal.replay_append]
      exact .andThenValue (ihFirst journal) (ihSecond _)
  | andThenInterrupt first ih => exact .andThenInterrupt (ih journal)
  | foldValue first second ihFirst ihSecond =>
      rw [Journal.replay_append]
      exact .foldValue (ihFirst journal) (ihSecond _)
  | foldFailure first second ihFirst ihSecond =>
      rw [Journal.replay_append]
      exact .foldFailure (ihFirst journal) (ihSecond _)
  | foldDefect first ih => exact .foldDefect (ih journal)
  | ensuring first ih =>
      rw [Journal.replay_append]
      exact .ensuring (ih journal)
  | routine played ih => exact .routine (ih journal)
  | requestFound found => exact .requestFound found
  | requestMissing missing => exact .requestMissing missing
  | fail => exact .fail
  | nested inner ih => exact .nested (ih journal)
  | finalize => exact .finalize
  | done => exact .done
  | abort => exact .abort
  | act after ih => exact .act (ih journal)
  | performValue first second ihFirst ihSecond =>
      rw [Journal.replay_append]
      exact .performValue (ihFirst journal) (ihSecond _)
  | performInterrupt first ih => exact .performInterrupt (ih journal)
  | bindValue first second ihFirst ihSecond =>
      rw [Journal.replay_append]
      exact .bindValue (ihFirst journal) (ihSecond _)
  | bindInterrupt first ih => exact .bindInterrupt (ih journal)
  | attemptValue first second ihFirst ihSecond =>
      rw [Journal.replay_append]
      exact .attemptValue (ihFirst journal) (ihSecond _)
  | attemptInterrupt first ih => exact .attemptInterrupt (ih journal)
  | depth after ih => exact .depth (ih journal)
  | context after ih => exact .context (ih journal)
  | attempt nested ih =>
      rw [Journal.replay_append]
      exact .attempt (ih journal)
  | @nest _ _ body frame state history out driven ih =>
      have inside : Runs procedures (.drive body) frame
          ((RunState.countStep ⟨journal, state.world⟩ .runNested).record
            (.nestedEntered frame.depth)) history _ :=
        ih (journal.note (.entered frame.depth : Moment S))
      rw [Journal.replay_append]
      exact .nest inside
  | drive evaluated drained ihEvaluated ihDrained =>
      rw [Journal.replay_append, Journal.replay_append]
      exact .drive (ihEvaluated _) (ihDrained _)
  | drained none => exact .drained none
  | @finalizer _ _ settled frame state finalizer _ before _ result _ newest driven drained
        ihDriven ihDrained =>
      have inside : Runs procedures (.drive finalizer)
          { context := frame.context, depth := frame.depth + 1 }
          (RunState.finalizerRan ⟨journal, state.world⟩ frame.depth) before
          (result.rejournalled _) :=
        ihDriven (journal.note (.finalizing frame.depth : Moment S))
      rw [Journal.replay_append, Journal.replay_append]
      refine @Runs.finalizer _ _ _ _ _ _ _ _ _ _ _
        (result.rejournalled (journal.replay (.finalizing frame.depth :: before))) _ newest
        inside ?_
      simp only [Evaluated.rejournalled, Machine.discard_rejournal]
      exact ihDrained _

def RunReport.under (report : RunReport E A) (config : EngineConfig) (full : List TraceEvent) :
    RunReport E A :=
  { report with
    trace := (Journal.keeping config report.stats full).events
    dropped := (Journal.keeping config report.stats full).dropped }

theorem RunReport.eq_under_iff {report other : RunReport E A} {config : EngineConfig}
    {full : List TraceEvent} :
    other = report.under config full ↔
      other.exit = report.exit ∧ other.suppressed = report.suppressed ∧
        other.stats = report.stats ∧
        (config.recordTrace = false → other.trace = #[] ∧ other.dropped = 0) ∧
        (config.recordTrace = true →
          other.trace.toList = full.take (min config.traceCapacity full.length) ∧
          other.dropped = full.length - min config.traceCapacity full.length) := by
  have cut : full.take (min config.traceCapacity full.length) = full.take config.traceCapacity :=
    List.take_eq_take_iff.mpr (by omega)
  have rest : full.length - min config.traceCapacity full.length =
      full.length - config.traceCapacity := by omega
  rw [cut, rest]
  obtain ⟨exit, suppressed, stats, trace, dropped⟩ := other
  cases recording : config.recordTrace with
  | false => simp [RunReport.under, Journal.keeping, recording]
  | true =>
      have listed : trace = (full.take config.traceCapacity).toArray ↔
          trace.toList = full.take config.traceCapacity := by
        rw [← Array.toList_inj]
      simp [RunReport.under, Journal.keeping, recording, listed]

namespace Interpreter.Records

variable {procedures : Procedures S} {sequence : Sequence S E A} {context : Context S}
  {world left left' : S.World} {history history' : History S} {report report' : RunReport E A}

theorem unique {interpreter : Interpreter S}
    (records : interpreter.Records sequence context world history report left)
    (records' : interpreter.Records sequence context world history' report' left') :
    report = report' ∧ left = left' := by
  obtain ⟨out, run, rfl, rfl⟩ := records
  obtain ⟨out', run', rfl, rfl⟩ := records'
  obtain ⟨-, rfl⟩ := run.unique run'
  exact ⟨rfl, rfl⟩

theorem under {config : EngineConfig}
    (records : (Interpreter.mk config procedures).Records sequence context world history report
      left)
    (config' : EngineConfig) :
    (Interpreter.mk config' procedures).Records sequence context world history
      (report.under config' (fullTrace history)) left := by
  have counted := records.replay.1
  obtain ⟨out, run, rfl, rfl⟩ := records
  refine ⟨_, run.rejournal { config := config' }, ?_, rfl⟩
  rw [Journal.replay_fresh, ← counted]
  rfl

end Interpreter.Records

/-- The configuration of an engine decides neither whether a run completes nor its exit, its
suppressed failures, its statistics or the world it leaves.  All configurations cut their
traces from the front of one list of events. -/
theorem tracing_only_observes (procedures : Procedures S) (sequence : Sequence S E A)
    (context : Context S) (world : S.World) :
    (∀ config report left,
      ¬ (Interpreter.mk config procedures).Completes sequence context world report left) ∨
    ∃ exit suppressed stats, ∃ left : S.World, ∃ full : List TraceEvent,
      ∀ config (report : RunReport E A) left',
        (Interpreter.mk config procedures).Completes sequence context world report left' ↔
          (report.exit = exit ∧ report.suppressed = suppressed ∧ report.stats = stats ∧
            (config.recordTrace = false → report.trace = #[] ∧ report.dropped = 0) ∧
            (config.recordTrace = true →
              report.trace.toList = full.take (min config.traceCapacity full.length) ∧
              report.dropped = full.length - min config.traceCapacity full.length)) ∧
          left' = left := by
  by_cases completes : ∃ config report left,
      (Interpreter.mk config procedures).Completes sequence context world report left
  · obtain ⟨config₀, report₀, left₀, completes₀⟩ := completes
    obtain ⟨history, records₀⟩ := Interpreter.completes_iff_records.mp completes₀
    refine .inr ⟨report₀.exit, report₀.suppressed, report₀.stats, left₀, fullTrace history, ?_⟩
    intro config report left
    rw [← RunReport.eq_under_iff, Interpreter.completes_iff_records]
    constructor
    · rintro ⟨history', records⟩
      exact records.unique (records₀.under config)
    · rintro ⟨rfl, rfl⟩
      exact ⟨history, records₀.under config⟩
  · exact .inl fun config report left h => completes ⟨config, report, left, h⟩

end Sequencer
