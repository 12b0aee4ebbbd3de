import Sequencer.Proofs.Finalizers
import Sequencer.Proofs.Laws
import Sequencer.Proofs.Replay
import Sequencer.Proofs.Sample

/-!
# Work inside a frame

Evaluation adds to the frame it works in and takes nothing away.  It puts finalizers on top of
those that wait there and failures behind those discarded there, and it looks at neither: in a
frame of the same place that holds others, it does the same and adds the same (`Runs.adds`).  The
finalizers that run meanwhile belong to deeper frames, and the journal only grows.
-/

namespace Sequencer

variable {S : Signature} {E A B : Type}

/-! ## Journals -/

structure Journal.Grows (journal later : Journal) : Prop where
  config : later.config = journal.config
  steps : journal.stats.steps ≤ later.stats.steps
  capabilityRequests : journal.stats.capabilityRequests ≤ later.stats.capabilityRequests
  finalizersRun : journal.stats.finalizersRun ≤ later.stats.finalizersRun
  suppressed : journal.stats.suppressed ≤ later.stats.suppressed
  maxDepth : journal.stats.maxDepth ≤ later.stats.maxDepth
  events : journal.events.toList <+: later.events.toList
  dropped : journal.dropped ≤ later.dropped

namespace Journal.Grows

variable {journal later last : Journal}

theorem refl (journal : Journal) : journal.Grows journal :=
  ⟨rfl, Nat.le_refl _, Nat.le_refl _, Nat.le_refl _, Nat.le_refl _, Nat.le_refl _,
    List.prefix_refl _, Nat.le_refl _⟩

theorem trans (first : journal.Grows later) (second : later.Grows last) : journal.Grows last where
  config := second.config.trans first.config
  steps := first.steps.trans second.steps
  capabilityRequests := first.capabilityRequests.trans second.capabilityRequests
  finalizersRun := first.finalizersRun.trans second.finalizersRun
  suppressed := first.suppressed.trans second.suppressed
  maxDepth := first.maxDepth.trans second.maxDepth
  events := first.events.trans second.events
  dropped := first.dropped.trans second.dropped

theorem record (journal : Journal) (event : TraceEvent) : journal.Grows (journal.record event) := by
  unfold Journal.record
  split
  · split
    · exact { refl journal with events := by simp }
    · exact { refl journal with dropped := Nat.le_succ _ }
  · exact refl journal

theorem count (journal : Journal) (moment : Moment S) :
    journal.Grows { journal with stats := moment.count journal.stats } := by
  cases moment <;> constructor <;> simp [Moment.count, RunStats.countStep]

theorem note (journal : Journal) (moment : Moment S) : journal.Grows (journal.note moment) := by
  unfold Journal.note
  split
  · exact count journal moment
  · exact (count journal moment).trans (record _ _)

theorem replay (journal : Journal) (history : History S) :
    journal.Grows (journal.replay history) := by
  induction history generalizing journal with
  | nil => exact refl journal
  | cons moment history ih => exact (note journal moment).trans (ih _)

end Journal.Grows

namespace Journal

theorem events_record (journal : Journal) (event : TraceEvent) :
    ∃ kept, (journal.record event).events.toList = journal.events.toList ++ kept ∧
      kept.Sublist [event] := by
  unfold record
  split
  · split
    · exact ⟨[event], by simp⟩
    · exact ⟨[], by simp⟩
  · exact ⟨[], by simp⟩

theorem events_note (journal : Journal) (moment : Moment S) :
    ∃ kept, (journal.note moment).events.toList = journal.events.toList ++ kept ∧
      kept.Sublist moment.event?.toList := by
  unfold note
  cases recorded : moment.event? with
  | none => exact ⟨[], by simp⟩
  | some event => exact events_record { journal with stats := moment.count journal.stats } event

theorem events_replay (journal : Journal) (history : History S) :
    ∃ kept, (journal.replay history).events.toList = journal.events.toList ++ kept ∧
      kept.Sublist (fullTrace history) := by
  induction history generalizing journal with
  | nil => exact ⟨[], by simp⟩
  | cons moment history ih =>
      obtain ⟨first, noted, sublist⟩ := journal.events_note moment
      obtain ⟨rest, replayed, sublist'⟩ := ih (journal.note moment)
      refine ⟨first ++ rest, ?_, ?_⟩
      · rw [replay_cons, replayed, noted, List.append_assoc]
      · rw [fullTrace_cons]
        exact sublist.append sublist'

end Journal

/-! ## Which finalizers run -/

mutual

theorem FrameHistory.le_finalizing : {E A : Type} → {sequence : Sequence S E A} →
    {context : Context S} → {depth : Nat} → {history : History S} →
    FrameHistory sequence context depth history → ∀ d, .finalizing d ∈ history → depth ≤ d
  | _, _, _, _, _, _, .intro body drain => by
      intro d member
      simp only [List.cons_append, List.mem_cons, List.mem_append, List.not_mem_nil, or_false,
        reduceCtorEq, false_or] at member
      rcases member with inBody | inDrain
      · exact Nat.le_of_lt (body.lt_finalizing d inBody)
      · exact drain.le_finalizing d inDrain

theorem BodyHistory.lt_finalizing : {E : Type} → {depth : Nat} →
    {registered : List (Sequence S E Unit)} → {history : History S} →
    BodyHistory depth registered history → ∀ d, .finalizing d ∈ history → depth < d
  | _, _, _, _, .empty => nofun
  | _, _, _, _, .plain plain => by
      intro d member
      cases List.mem_singleton.mp member
      cases plain
  | _, _, _, _, .registered _ => by simp
  | _, _, _, _, .nested frame => by
      intro d member
      simp only [List.cons_append, List.mem_cons, List.mem_append, List.not_mem_nil, or_false,
        reduceCtorEq, false_or] at member
      exact frame.le_finalizing d member
  | _, _, _, _, .append first second => by
      intro d member
      exact (List.mem_append.mp member).elim (first.lt_finalizing d) (second.lt_finalizing d)

theorem DrainHistory.le_finalizing : {E : Type} → {context : Context S} → {depth : Nat} →
    {finalizers : List (Sequence S E Unit)} → {history : History S} →
    DrainHistory context depth finalizers history → ∀ d, .finalizing d ∈ history → depth ≤ d
  | _, _, _, _, _, .empty => nofun
  | _, _, depth, _, _, .finalizer frame discarded rest => by
      intro d member
      simp only [List.cons_append, List.mem_cons, List.mem_append, Moment.finalizing.injEq]
        at member
      rcases member with rfl | (inside | noted) | later
      · exact Nat.le_refl _
      · exact Nat.le_of_succ_le (frame.le_finalizing d inside)
      · cases discarded <;> simp [Discarded.moments] at noted
      · exact rest.le_finalizing d later

end

/-! ## What is added to a frame -/

namespace Frame

def add (frame : Frame S E) (registered : List (Sequence S E Unit)) (discarded : Array E) :
    Frame S E :=
  { frame with
    finalizers := registered ++ frame.finalizers
    suppressed := frame.suppressed ++ discarded }

theorem add_nothing (frame : Frame S E) : frame.add [] #[] = frame := by
  simp [add]

theorem add_add (frame : Frame S E) (first second : List (Sequence S E Unit))
    (discarded more : Array E) :
    (frame.add first discarded).add second more =
      frame.add (second ++ first) (discarded ++ more) := by
  simp [add]

theorem register_eq_add (frame : Frame S E) (finalizer : Sequence S E Unit) :
    frame.register finalizer = frame.add [finalizer] #[] := by
  simp [add, register]

structure Alongside (frame other : Frame S E) : Prop where
  context : other.context = frame.context
  depth : other.depth = frame.depth

theorem Alongside.add {frame other : Frame S E} (alongside : frame.Alongside other)
    (registered : List (Sequence S E Unit)) (discarded : Array E) :
    (frame.add registered discarded).Alongside (other.add registered discarded) :=
  ⟨alongside.context, alongside.depth⟩

theorem Alongside.aftermath_eq {frame other : Frame S E} (alongside : frame.Alongside other)
    (routine : Routine S E A) (world : S.World) :
    routine.aftermath other world = routine.aftermath frame world := by
  induction routine using Routine.induction generalizing world with
  | done value => rfl
  | abort => rfl
  | effect act next ih => exact ih _ _
  | perform step next ih => exact ih none world
  | bind inner next ih => exact ih none world
  | attempt inner next ih => exact ih none world
  | depth next ih =>
      simp only [Routine.aftermath, alongside.depth]
      exact ih _ world
  | context next ih =>
      simp only [Routine.aftermath, alongside.context]
      exact ih _ world

end Frame

/-- Work inside a frame, as opposed to that of a whole frame and of its finalizers. -/
def Task.IsInside : Task S E A → Prop
  | .evaluate _ | .handle _ | .play _ | .attempt _ => True
  | .nest _ | .drive _ | .drain _ => False

/-- The run adds something to its frame, and adds the same in any frame of the same place. -/
def Adds (procedures : Procedures S) (task : Task S E A) (frame : Frame S E) (state : RunState S)
    (history : History S) (out : Evaluated S E A) : Prop :=
  ∃ registered discarded, out.frame = frame.add registered discarded ∧
    ∀ other, frame.Alongside other → Runs procedures task other state history
      ⟨out.settled, other.add registered discarded, out.state⟩

namespace Adds

variable {procedures : Procedures S} {task : Task S E A} {frame frame' : Frame S E}
  {state state' : RunState S} {before after history : History S} {out : Evaluated S E A}

theorem nothing {settled : Settled E A}
    (rule : ∀ other, frame.Alongside other →
      Runs procedures task other state history ⟨settled, other, state'⟩) :
    Adds procedures task frame state history ⟨settled, frame, state'⟩ := by
  refine ⟨[], #[], (frame.add_nothing).symm, fun other alongside => ?_⟩
  rw [other.add_nothing]
  exact rule other alongside

theorem imp {task₁ : Task S E A} {state₁ : RunState S}
    (first : Adds procedures task₁ frame state₁ history out)
    (rule : ∀ {other : Frame S E} {out' : Evaluated S E A}, frame.Alongside other →
      Runs procedures task₁ other state₁ history out' →
        Runs procedures task other state history out') :
    Adds procedures task frame state history out := by
  obtain ⟨registered, discarded, grown, anywhere⟩ := first
  exact ⟨registered, discarded, grown,
    fun other alongside => rule alongside (anywhere other alongside)⟩

theorem followed {task₁ : Task S E B} {task₂ : Task S E A} {settled : Settled E B}
    (first : Adds procedures task₁ frame state before ⟨settled, frame', state'⟩)
    (second : Adds procedures task₂ frame' state' after out)
    (rule : ∀ {other other' : Frame S E} {out' : Evaluated S E A}, frame'.Alongside other' →
      Runs procedures task₁ other state before ⟨settled, other', state'⟩ →
      Runs procedures task₂ other' state' after out' →
        Runs procedures task other state history out') :
    Adds procedures task frame state history out := by
  obtain ⟨registered, discarded, rfl, anywhere⟩ := first
  obtain ⟨registered', discarded', grown, anywhere'⟩ := second
  refine ⟨registered' ++ registered, discarded ++ discarded', ?_, fun other alongside => ?_⟩
  · rw [grown, Frame.add_add]
  · have there := alongside.add registered discarded
    rw [← Frame.add_add]
    exact rule there (anywhere other alongside) (anywhere' _ there)

theorem interrupted {task₁ : Task S E B} {interrupt : Interrupt E} (routine : Routine S E A)
    (first : Adds procedures task₁ frame state history ⟨.error interrupt, frame', state'⟩)
    (rule : ∀ {other other' : Frame S E},
      Runs procedures task₁ other state history ⟨.error interrupt, other', state'⟩ →
        Runs procedures task other state history ⟨.error interrupt, other',
          { state' with world := routine.aftermath other' state'.world }⟩) :
    Adds procedures task frame state history ⟨.error interrupt, frame',
      { state' with world := routine.aftermath frame' state'.world }⟩ := by
  obtain ⟨registered, discarded, rfl, anywhere⟩ := first
  refine ⟨registered, discarded, rfl, fun other alongside => ?_⟩
  have ended := rule (anywhere other alongside)
  rw [(alongside.add registered discarded).aftermath_eq] at ended
  exact ended

end Adds

theorem Runs.adds {procedures : Procedures S} {task : Task S E A} {frame : Frame S E}
    {state : RunState S} {history : History S} {out : Evaluated S E A}
    (run : Runs procedures task frame state history out) (inside : task.IsInside) :
    Adds procedures task frame state history out := by
  induction run with
  | succeed => exact .nothing fun _ _ => .succeed
  | perform handled ih => exact (ih trivial).imp fun _ => .perform
  | effect after ih => exact (ih trivial).imp fun _ => .effect
  | call body ih => exact (ih trivial).imp fun _ => .call
  | andThenValue first second ihFirst ihSecond =>
      exact (ihFirst trivial).followed (ihSecond trivial) fun _ => .andThenValue
  | andThenInterrupt first ih =>
      obtain ⟨registered, discarded, grown, anywhere⟩ := ih trivial
      exact ⟨registered, discarded, grown, fun other alongside =>
        .andThenInterrupt (anywhere other alongside)⟩
  | foldValue first second ihFirst ihSecond =>
      exact (ihFirst trivial).followed (ihSecond trivial) fun _ => .foldValue
  | foldFailure first second ihFirst ihSecond =>
      refine (ihFirst trivial).followed (ihSecond trivial) fun alongside first' second' => ?_
      rw [← alongside.depth]
      exact .foldFailure first' second'
  | foldDefect first ih =>
      obtain ⟨registered, discarded, grown, anywhere⟩ := ih trivial
      exact ⟨registered, discarded, grown, fun other alongside =>
        .foldDefect (anywhere other alongside)⟩
  | @ensuring _ _ inner finalizer frame frame' state state' _ settled first ih =>
      obtain ⟨registered, discarded, rfl, anywhere⟩ := ih trivial
      refine ⟨finalizer :: registered, discarded, rfl, fun other alongside => ?_⟩
      have ended : Runs procedures (.evaluate (.ensuring inner finalizer)) other _ _ _ :=
        .ensuring (anywhere other alongside)
      rw [(alongside.add registered discarded).depth] at ended
      exact ended
  | routine played ih => exact (ih trivial).imp fun _ => .routine
  | requestFound found =>
      refine .nothing fun other alongside => ?_
      rw [← alongside.depth]
      exact .requestFound (alongside.context ▸ found)
  | requestMissing missing =>
      refine .nothing fun other alongside => ?_
      rw [← alongside.depth]
      exact .requestMissing (alongside.context ▸ missing)
  | fail =>
      refine .nothing fun other alongside => ?_
      rw [← alongside.depth]
      exact .fail
  | @nested _ _ layer body frame state history out inner =>
      refine ⟨[], out.frame.suppressed, rfl, fun other alongside => ?_⟩
      rw [← alongside.context, ← alongside.depth] at inner
      exact .nested inner
  | @finalize _ finalizer frame state =>
      refine ⟨[finalizer], #[], frame.register_eq_add finalizer, fun other alongside => ?_⟩
      rw [← alongside.depth, ← other.register_eq_add finalizer]
      exact .finalize
  | done => exact .nothing fun _ _ => .done
  | abort =>
      refine .nothing fun other alongside => ?_
      rw [← alongside.depth]
      exact .abort
  | act after ih => exact (ih trivial).imp fun _ => .act
  | performValue first second ihFirst ihSecond =>
      exact (ihFirst trivial).followed (ihSecond trivial) fun _ => .performValue
  | performInterrupt first ih => exact (ih trivial).interrupted _ .performInterrupt
  | bindValue first second ihFirst ihSecond =>
      exact (ihFirst trivial).followed (ihSecond trivial) fun _ => .bindValue
  | bindInterrupt first ih => exact (ih trivial).interrupted _ .bindInterrupt
  | attemptValue first second ihFirst ihSecond =>
      exact (ihFirst trivial).followed (ihSecond trivial) fun _ => .attemptValue
  | attemptInterrupt first ih => exact (ih trivial).interrupted _ .attemptInterrupt
  | depth after ih =>
      refine (ih trivial).imp fun alongside run' => .depth ?_
      rw [alongside.depth]
      exact run'
  | context after ih =>
      refine (ih trivial).imp fun alongside run' => .context ?_
      rw [alongside.context]
      exact run'
  | attempt nested =>
      refine .nothing fun other alongside => ?_
      rw [← alongside.context, ← alongside.depth] at nested
      rw [← alongside.depth]
      exact .attempt nested
  | nest => cases inside
  | drive => cases inside
  | drained => cases inside
  | finalizer => cases inside

/-- An evaluation that ends, however it ends and wherever it was asked for, leaves the context and
the depth of its frame as they are, puts finalizers on top of those that wait there and failures
behind those discarded there, and loses nothing of the journal.  It runs finalizers of deeper frames
only, and would do all the same if the frame held other finalizers and failures. -/
theorem evaluation_extends_frame {procedures : Procedures S} {sequence : Sequence S E A}
    {frame : Frame S E} {state : RunState S} {out : Evaluated S E A}
    (evaluates : sequence.Evaluates procedures frame state out) :
    ∃ registered discarded,
      out.frame = frame.add registered discarded ∧
      state.journal.Grows out.state.journal ∧
      (∃ history kept, Runs procedures (.evaluate sequence) frame state history out ∧
        (∀ depth, .finalizing depth ∈ history → frame.depth < depth) ∧
        out.state.journal.events.toList = state.journal.events.toList ++ kept ∧
        kept.Sublist (fullTrace history)) ∧
      ∀ other, frame.Alongside other → sequence.Evaluates procedures other state
        ⟨out.settled, other.add registered discarded, out.state⟩ := by
  obtain ⟨history, run⟩ := eval_iff_runs.mp evaluates
  obtain ⟨registered, discarded, grown, anywhere⟩ := run.adds trivial
  obtain ⟨kept, events, sublist⟩ := state.journal.events_replay history
  obtain ⟨_, extended⟩ := (finalizerDiscipline S).of_runs run
  have journal := run.replayed
  refine ⟨registered, discarded, grown, ?_, ⟨history, kept, run, extended.body.lt_finalizing, ?_,
    sublist⟩, fun other alongside => eval_iff_runs.mpr ⟨history, anywhere other alongside⟩⟩
  · rw [journal]
    exact .replay state.journal history
  · rw [journal]
    exact events

def crowdedBind : Sequence Sample.signature String Nat :=
  .routine <| .bind
    (((Sequence.fail "lost").ensuring (.fail "late")).nested.orElse fun _ =>
      (Sequence.succeed 1).ensuring (Sample.note "swept")) fun
    | some _ => .fail "body"
    | none => .abort

def crowdedFrame : Frame Sample.signature String where
  context := .empty
  depth := 2
  finalizers := [Sample.note "waiting"]
  suppressed := #["earlier"]

theorem evaluation_extends_frame_crowded : ∃ out,
    crowdedBind.Evaluates Sample.interpreter.procedures crowdedFrame
      ⟨{ config := .tracing }, []⟩ out ∧
    out.settled = .error (.failed "body") ∧
    out.state.journal.stats.finalizersRun = 1 ∧
    out.frame = crowdedFrame.add [Sample.note "swept"] #["late"] ∧
    Journal.Grows { config := .tracing } out.state.journal ∧
    ∃ registered discarded, out.frame = crowdedFrame.add registered discarded ∧
      crowdedBind.Evaluates Sample.interpreter.procedures { context := .empty, depth := 2 }
        ⟨{ config := .tracing }, []⟩
        ⟨out.settled, ⟨.empty, 2, registered, discarded⟩, out.state⟩ := by
  have evaluates : crowdedBind.Evaluates Sample.interpreter.procedures crowdedFrame
      ⟨{ config := .tracing }, []⟩ _ := ⟨8, rfl⟩
  obtain ⟨registered, discarded, grown, grows, _, anywhere⟩ := evaluation_extends_frame evaluates
  refine ⟨_, evaluates, rfl, rfl, rfl, grows, registered, discarded, grown, ?_⟩
  simpa [Frame.add] using anywhere { context := .empty, depth := 2 } ⟨rfl, rfl⟩

end Sequencer
