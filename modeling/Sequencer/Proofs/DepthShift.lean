import Sequencer.Proofs.Displacement
import Sequencer.Proofs.Statistics

/-!
# Frames at another depth

A sequence whose routines do not look at their depth does the same work at every depth.  Its
events carry other depths, all shifted alike, and the depth it reaches is shifted with them.  At
top level this says what `nested` adds to a run.
-/

namespace Sequencer

variable {S : Signature} {E A : Type}

def Sequence.DepthBlind (procedures : Procedures S) (sequence : Sequence S E A) : Prop :=
  ∃ licence : Licence S, ¬ licence.depth ∧ licence.Covers procedures ∧ sequence.Keeps licence

def TraceEvent.deepen (n : Nat) : TraceEvent → TraceEvent :=
  .moved (· + n)

theorem TraceEvent.deepen_comm (n k : Nat) :
    TraceEvent.deepen n ∘ TraceEvent.deepen k = TraceEvent.deepen k ∘ TraceEvent.deepen n := by
  funext event
  cases event <;> simp [deepen, moved, Nat.add_right_comm]

/-! ## Statistics of shifted events -/

theorem countP_deepen {kind : TraceEvent → Bool} {n : Nat}
    (same : ∀ event : TraceEvent, kind (event.deepen n) = kind event) (trace : List TraceEvent) :
    (trace.map (TraceEvent.deepen n)).countP kind = trace.countP kind := by
  rw [List.countP_map]
  congr 1
  funext event
  exact same event

theorem deepest_deepen (n : Nat) (trace : List TraceEvent) :
    max n (deepest (trace.map (TraceEvent.deepen n))) = deepest trace + n := by
  induction trace with
  | nil => simp
  | cons event trace ih =>
      have announced : max n (event.deepen n).announced = event.announced + n := by
        cases event <;> simp only [TraceEvent.deepen, TraceEvent.moved, TraceEvent.announced] <;>
          omega
      rw [List.map_cons, deepest_cons, deepest_cons]
      omega

theorem RunStats.ofEvents_deepen (n : Nat) (trace : List TraceEvent) :
    RunStats.ofEvents n (trace.map (TraceEvent.deepen n)) =
      { RunStats.ofEvents 0 trace with maxDepth := deepest trace + n } := by
  ext
  · exact countP_deepen (fun event => by cases event <;> rfl) trace
  · exact countP_deepen (fun event => by cases event <;> rfl) trace
  · exact countP_deepen (fun event => by cases event <;> rfl) trace
  · exact countP_deepen (fun event => by cases event <;> rfl) trace
  · exact deepest_deepen n trace

/-! ## The same frame at another depth -/

/-- Depths from `floor` on go where `floor` goes to `target`; contexts stay. -/
def Displacement.shift {licence : Licence S} (blind : ¬ licence.depth) (floor target : Nat) :
    Displacement licence where
  floor := floor
  depth d := d - floor + target
  wanted _ := True
  Alike context context' := context' = context
  depth_succ := by
    intro d high
    omega
  lookup_eq alike _ _ _ := by rw [alike]
  extend alike _ := by rw [alike]
  depth_unseen seen := absurd seen blind
  context_unseen _ _ _ alike := alike

namespace Sequence.DepthBlind

variable {procedures : Procedures S} {sequence : Sequence S E A} {context : Context S}
  {depth : Nat} {history : History S} {out : Evaluated S E A}

theorem displaced (blind : sequence.DepthBlind procedures) {state : RunState S}
    (run : Runs procedures (.drive sequence) { context, depth } state history out)
    (depth' : Nat) (journal : Journal) :
    ∃ history' after,
      fullTrace history' = (fullTrace history).map (TraceEvent.moved (· - depth + depth')) ∧
      after.suppressed = out.frame.suppressed ∧
      Runs procedures (.drive sequence) { context, depth := depth' } ⟨journal, state.world⟩
        history' ⟨out.settled, after, ⟨journal.replay history', out.state.world⟩⟩ := by
  obtain ⟨licence, unseen, covers, keeps⟩ := blind
  have carries : (Displacement.shift unseen depth depth').Carries
      ({ context, depth } : Frame S E) { context, depth := depth' } :=
    { high := Nat.le_refl depth
      depth := by simp [Displacement.shift]
      context := rfl
      finalizers := rfl
      suppressed := rfl
      keeps := nofun }
  obtain ⟨history', after, journal', moved, carried, run'⟩ :=
    run.displaced _ covers keeps (fun _ _ => trivial) carries journal
  have replayed : journal' = journal.replay history' := run'.replayed
  exact ⟨history', after, moved.fullTrace_eq, carried.suppressed, replayed ▸ run'⟩

theorem shifted (blind : sequence.DepthBlind procedures) {state : RunState S}
    (run : Runs procedures (.drive sequence) { context, depth } state history out) :
    ∃ events : List TraceEvent, fullTrace history = events.map (TraceEvent.deepen depth) ∧
      ∀ depth' journal, ∃ history' after,
        fullTrace history' = events.map (TraceEvent.deepen depth') ∧
        after.suppressed = out.frame.suppressed ∧
        Runs procedures (.drive sequence) { context, depth := depth' } ⟨journal, state.world⟩
          history' ⟨out.settled, after, ⟨journal.replay history', out.state.world⟩⟩ := by
  obtain ⟨ground, grounded, -, suppressed, run₀⟩ := blind.displaced run 0 state.journal
  have lifted : ∀ depth' journal, ∃ history' after,
      fullTrace history' = (fullTrace ground).map (TraceEvent.deepen depth') ∧
      after.suppressed = out.frame.suppressed ∧
      Runs procedures (.drive sequence) { context, depth := depth' } ⟨journal, state.world⟩
        history' ⟨out.settled, after, ⟨journal.replay history', out.state.world⟩⟩ := by
    intro depth' journal
    obtain ⟨history', after, trace, suppressed', run'⟩ := blind.displaced run₀ depth' journal
    exact ⟨history', after, trace, suppressed'.trans suppressed, run'⟩
  refine ⟨fullTrace ground, ?_, lifted⟩
  -- Back at its own depth the run is the one it came from.
  obtain ⟨history', after, trace, -, run'⟩ := lifted depth state.journal
  obtain ⟨rfl, -⟩ := run.unique run'
  exact trace

end Sequence.DepthBlind

/-! ## What `nested` adds -/

theorem Runs.provideLayer_iff {procedures : Procedures S} {sequence : Sequence S E A}
    {layer : Layer S} {frame : Frame S E} {state : RunState S} {history : History S}
    {out : Evaluated S E A} :
    Runs procedures (.evaluate (sequence.provideLayer layer)) frame state history out ↔
      ∃ inner, Runs procedures (.nest sequence)
        { context := frame.context.extend layer, depth := frame.depth + 1 } state history inner ∧
        out = ⟨inner.settled, { frame with suppressed := frame.suppressed ++ inner.frame.suppressed },
          inner.state⟩ := by
  constructor
  · intro run
    cases run with
    | perform handled => exact handled.inverted
  · rintro ⟨inner, nested, rfl⟩
    exact .perform (.nested nested)

theorem Runs.drive_provideLayer_iff {procedures : Procedures S} {sequence : Sequence S E A}
    {layer : Layer S} {context : Context S} {depth : Nat} {state : RunState S}
    {history : History S} {out : Evaluated S E A} :
    Runs procedures (.drive (sequence.provideLayer layer)) { context, depth } state history out ↔
      ∃ inside inner,
        Runs procedures (.drive sequence) { context := context.extend layer, depth := depth + 1 }
          (((state.reach depth).countStep .runNested).record (.nestedEntered (depth + 1))) inside
          inner ∧
        history = .opened (sequence.provideLayer layer) context depth ::
          (.entered (depth + 1) :: inside ++ [.exited (depth + 1) inner.settled.isSuccess]) ++
            [.settled depth] ++ [.closed depth] ∧
        out = ⟨inner.settled, { context, depth, suppressed := inner.frame.suppressed },
          inner.state.record (.nestedExited (depth + 1) inner.settled.isSuccess)⟩ := by
  constructor
  · intro run
    cases run with
    | drive evaluated drained =>
        obtain ⟨inner, nested, rfl⟩ := provideLayer_iff.mp evaluated
        cases nested with
        | nest driven =>
            cases drained with
            | drained none => exact ⟨_, _, driven, rfl, by simp⟩
            | finalizer newest _ _ => cases newest
  · rintro ⟨inside, inner, driven, rfl, rfl⟩
    have evaluated : Runs procedures (.evaluate (sequence.provideLayer layer)) { context, depth }
        (state.reach depth) _ _ := provideLayer_iff.mpr ⟨_, .nest driven, rfl⟩
    have whole := Runs.drive evaluated (.drained rfl)
    simpa using whole

theorem Runs.drive_nested_iff {procedures : Procedures S} {sequence : Sequence S E A}
    {context : Context S} {state : RunState S} {history : History S} {out : Evaluated S E A} :
    Runs procedures (.drive sequence.nested) { context, depth := 0 } state history out ↔
      ∃ inside inner,
        Runs procedures (.drive sequence) { context, depth := 1 }
          (((state.reach 0).countStep .runNested).record (.nestedEntered 1)) inside inner ∧
        history = .opened sequence.nested context 0 ::
          (.entered 1 :: inside ++ [.exited 1 inner.settled.isSuccess]) ++ [.settled 0] ++
            [.closed 0] ∧
        out = ⟨inner.settled, { context, depth := 0, suppressed := inner.frame.suppressed },
          inner.state.record (.nestedExited 1 inner.settled.isSuccess)⟩ :=
  drive_provideLayer_iff

/-! ## Depths in reports -/

def Interpreter.Drives (interpreter : Interpreter S) (sequence : Sequence S E A)
    (context : Context S) (depth : Nat) (world : S.World) (driven : Driven S E A) : Prop :=
  ∃ fuel, (Machine.level interpreter.procedures fuel).drive sequence context depth
    ⟨{ config := interpreter.config }, world⟩ = .ok driven

/-- The two frames end alike; what they noted of depths is shifted from the first to the other. -/
structure Driven.Shifted (depth depth' : Nat) (driven driven' : Driven S E A) : Prop where
  settled : driven'.settled = driven.settled
  suppressed : driven'.suppressed = driven.suppressed
  world : driven'.state.world = driven.state.world
  stats : ({ driven'.state.journal.stats with maxDepth := 0 } : RunStats) =
    { driven.state.journal.stats with maxDepth := 0 }
  maxDepth : driven'.state.journal.stats.maxDepth + depth =
    driven.state.journal.stats.maxDepth + depth'
  events : driven'.state.journal.events.toList.map (TraceEvent.deepen depth) =
    driven.state.journal.events.toList.map (TraceEvent.deepen depth')
  dropped : driven'.state.journal.dropped = driven.state.journal.dropped

theorem Driven.Shifted.of_events {depth depth' : Nat} {driven driven' : Driven S E A}
    {config : EngineConfig} {events : List TraceEvent}
    (settled : driven'.settled = driven.settled)
    (suppressed : driven'.suppressed = driven.suppressed)
    (world : driven'.state.world = driven.state.world)
    (journal : driven.state.journal = .keeping config
      (.ofEvents depth (events.map (TraceEvent.deepen depth)))
      (events.map (TraceEvent.deepen depth)))
    (journal' : driven'.state.journal = .keeping config
      (.ofEvents depth' (events.map (TraceEvent.deepen depth')))
      (events.map (TraceEvent.deepen depth'))) :
    driven.Shifted depth depth' driven' := by
  refine ⟨settled, suppressed, world, ?_, ?_, ?_, ?_⟩
  · rw [journal, journal', RunStats.ofEvents_deepen, RunStats.ofEvents_deepen]
    rfl
  · rw [journal, journal', RunStats.ofEvents_deepen, RunStats.ofEvents_deepen]
    simp only [Journal.keeping]
    omega
  · rw [journal, journal']
    cases recording : config.recordTrace with
    | false => simp [Journal.keeping, recording]
    | true => simp [Journal.keeping, recording, TraceEvent.deepen_comm depth depth']
  · rw [journal, journal']
    simp [Journal.keeping]

theorem Sequence.DepthBlind.drives {interpreter : Interpreter S} {sequence : Sequence S E A}
    (blind : sequence.DepthBlind interpreter.procedures) {context : Context S} {depth : Nat}
    {world : S.World} {driven : Driven S E A}
    (drives : interpreter.Drives sequence context depth world driven) (depth' : Nat) :
    ∃ driven', interpreter.Drives sequence context depth' world driven' ∧
      driven.Shifted depth depth' driven' := by
  obtain ⟨history, out, run, rfl⟩ := drive_iff_runs.mp drives
  obtain ⟨events, trace, shifted⟩ := blind.shifted run
  obtain ⟨history', after, trace', suppressed, run'⟩ :=
    shifted depth' { config := interpreter.config }
  refine ⟨_, drive_iff_runs.mpr ⟨history', _, run', rfl⟩, ?_⟩
  have journal := run.journal_eq
  have journal' := run'.journal_eq
  rw [trace] at journal
  rw [trace'] at journal'
  exact .of_events rfl suppressed rfl journal journal'

theorem RunReport.isSuccess_report (driven : Driven S E A) :
    (Interpreter.report driven).isSuccess = driven.settled.isSuccess := by
  rcases driven with ⟨(_ | _) | _, _, _⟩ <;> rfl

namespace Interpreter.Records

variable {interpreter : Interpreter S} {sequence : Sequence S E A} {context : Context S}
  {world left : S.World} {history : History S} {report : RunReport E A}

theorem dropped_eq_zero_iff
    (records : interpreter.Records sequence context world history report left)
    (recording : interpreter.config.recordTrace = true) :
    report.dropped = 0 ↔ (fullTrace history).length ≤ interpreter.config.traceCapacity := by
  rw [records.replay.2.2]
  simp [Journal.keeping, recording, Nat.sub_eq_zero_iff_le]

theorem trace_eq_fullTrace
    (records : interpreter.Records sequence context world history report left)
    (recording : interpreter.config.recordTrace = true)
    (room : (fullTrace history).length ≤ interpreter.config.traceCapacity) :
    report.trace.toList = fullTrace history := by
  rw [records.replay.2.1]
  simp [Journal.keeping, recording, List.take_of_length_le room]

theorem nested (records : interpreter.Records sequence context world history report left)
    (blind : sequence.DepthBlind interpreter.procedures) :
    ∃ history' report', interpreter.Records sequence.nested context world history' report' left ∧
      fullTrace history' = .nestedEntered 1 :: (fullTrace history).map (TraceEvent.deepen 1) ++
        [.nestedExited 1 report.isSuccess] ∧
      report'.exit = report.exit ∧ report'.suppressed = report.suppressed := by
  obtain ⟨out, run, rfl, rfl⟩ := records
  let entry : RunState S :=
    ((RunState.reach ⟨{ config := interpreter.config }, world⟩ 0).countStep .runNested).record
      (.nestedEntered 1)
  obtain ⟨inside, after, trace, suppressed, inner⟩ := blind.displaced run 1 entry.journal
  refine ⟨_, _, ⟨_, Runs.drive_nested_iff.mpr ⟨inside, _, inner, rfl, rfl⟩, rfl, rfl⟩, ?_, rfl,
    suppressed⟩
  have deeper : fullTrace inside = (fullTrace history).map (TraceEvent.deepen 1) := trace
  rw [RunReport.isSuccess_report]
  simp [deeper, Moment.event?, Evaluated.driven]

end Interpreter.Records

theorem RunStats.ofEvents_nested (trace : List TraceEvent) (ok : Bool) :
    RunStats.ofEvents 0
        (.nestedEntered 1 :: trace.map (TraceEvent.deepen 1) ++ [.nestedExited 1 ok]) =
      { RunStats.ofEvents 0 trace with
        steps := (RunStats.ofEvents 0 trace).steps + 1
        maxDepth := (RunStats.ofEvents 0 trace).maxDepth + 1 } := by
  have deeper := RunStats.ofEvents_deepen 1 trace
  rw [RunStats.ext_iff] at deeper
  obtain ⟨steps, requests, finalizers, suppressed, depth⟩ := deeper
  simp only [RunStats.ofEvents] at steps requests finalizers suppressed depth
  ext
  · simp [RunStats.ofEvents, List.countP_cons, steps, TraceEvent.isStep]
  · simp [RunStats.ofEvents, requests, TraceEvent.isRequest]
  · simp [RunStats.ofEvents, finalizers, TraceEvent.isFinalizerRan]
  · simp [RunStats.ofEvents, suppressed, TraceEvent.isSuppression]
  · simp [RunStats.ofEvents, depth, TraceEvent.announced]

/-- A sequence whose routines do not look at their depth does the same at every depth.  Hence
nesting a whole run adds one step, one level and the two events of the new frame. -/
theorem depth_shift_invariance {interpreter : Interpreter S} {sequence : Sequence S E A}
    (blind : sequence.DepthBlind interpreter.procedures) (context : Context S) (world : S.World) :
    (∀ depth depth' driven, interpreter.Drives sequence context depth world driven →
      ∃ driven', interpreter.Drives sequence context depth' world driven' ∧
        driven.Shifted depth depth' driven') ∧
    (∀ report left, interpreter.Completes sequence context world report left →
      ∃ report', interpreter.Completes sequence.nested context world report' left ∧
        report'.exit = report.exit ∧ report'.suppressed = report.suppressed ∧
        report'.stats = { report.stats with
          steps := report.stats.steps + 1
          maxDepth := report.stats.maxDepth + 1 } ∧
        (interpreter.config.recordTrace = true → report'.dropped = 0 →
          report'.trace.toList =
            .nestedEntered 1 :: report.trace.toList.map (TraceEvent.deepen 1) ++
              [.nestedExited 1 report.isSuccess])) ∧
    ∀ report' left, interpreter.Completes sequence.nested context world report' left →
      ∃ report, interpreter.Completes sequence context world report left := by
  refine ⟨fun depth depth' driven drives => blind.drives drives depth', ?_, ?_⟩
  · intro report left completes
    obtain ⟨history, records⟩ := Interpreter.completes_iff_records.mp completes
    obtain ⟨history', report', records', trace, exit, suppressed⟩ := records.nested blind
    refine ⟨report', Interpreter.completes_iff_records.mpr ⟨history', records'⟩, exit, suppressed,
      ?_, ?_⟩
    · rw [records'.stats_eq, records.stats_eq, trace, RunStats.ofEvents_nested]
    · intro recording undropped
      have room' := (records'.dropped_eq_zero_iff recording).mp undropped
      have room : (fullTrace history).length ≤ interpreter.config.traceCapacity := by
        rw [trace] at room'
        simp at room'
        omega
      rw [records'.trace_eq_fullTrace recording room', records.trace_eq_fullTrace recording room,
        trace]
  · intro report' left completes
    obtain ⟨history', out', run', rfl, rfl⟩ := Interpreter.completes_iff_records.mp completes
    obtain ⟨inside, inner, run, rfl, rfl⟩ := Runs.drive_nested_iff.mp run'
    obtain ⟨history, after, -, -, run₀⟩ :=
      blind.displaced run 0 { config := interpreter.config }
    exact ⟨_, Interpreter.completes_iff_records.mpr ⟨history, _, run₀, rfl, rfl⟩⟩

def abandonedRequest : Sequence Sample.signature String Nat :=
  (Sequence.routine (.service (Sample.key 0 "limit") .done)).ensuring (Sequence.fail "cleanup")

theorem abandonedRequest_depthBlind :
    abandonedRequest.DepthBlind Sample.interpreter.procedures := by
  refine ⟨{ depth := False, calls := fun _ => True }, id, nofun, ?_⟩
  simp only [abandonedRequest, Routine.service, Sequence.fail, Sequence.Keeps, Routine.Keeps,
    Step.Keeps]
  refine ⟨⟨trivial, ?_⟩, trivial⟩
  intro answer
  cases answer <;> exact trivial

theorem depth_shift_invariance_abandoned :
    abandonedRequest.DepthBlind Sample.interpreter.procedures ∧
    (∃ driven driven', Sample.interpreter.Drives abandonedRequest .empty 2 [] driven ∧
      Sample.interpreter.Drives abandonedRequest .empty 7 [] driven' ∧
      driven.state.journal.stats.maxDepth = 3 ∧ driven'.state.journal.stats.maxDepth = 8) ∧
    ∃ report report', Sample.interpreter.Completes abandonedRequest .empty [] report [] ∧
      Sample.interpreter.Completes abandonedRequest.nested .empty [] report' [] ∧
      report.exit = .error (.unresolvedCapability "limit" 0) ∧ report'.exit = report.exit ∧
      report.suppressed = #["cleanup"] ∧ report'.suppressed = report.suppressed ∧
      report.stats.maxDepth = 1 ∧ report'.stats.maxDepth = 2 := by
  obtain ⟨shift, nesting, -⟩ := depth_shift_invariance abandonedRequest_depthBlind .empty []
  refine ⟨abandonedRequest_depthBlind, ?_, ?_⟩
  · have drives : Sample.interpreter.Drives abandonedRequest .empty 2 [] _ := ⟨6, rfl⟩
    obtain ⟨driven', drives', shifted⟩ := shift 2 7 _ drives
    refine ⟨_, driven', drives, drives', rfl, ?_⟩
    have moved : driven'.state.journal.stats.maxDepth + 2 = 3 + 7 := shifted.maxDepth
    omega
  · have completes : Sample.interpreter.Completes abandonedRequest .empty [] _ [] := ⟨6, rfl⟩
    obtain ⟨report', completes', exit, suppressed, stats, -⟩ := nesting _ _ completes
    exact ⟨_, report', completes, completes', rfl, exit, rfl, suppressed, rfl,
      congrArg RunStats.maxDepth stats⟩

end Sequencer
