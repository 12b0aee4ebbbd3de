import Sequencer.Proofs.EditConflicts
import Sequencer.Proofs.Isolation
import Sequencer.Proofs.Parts

/-!
# Change trackers

What a tracker holds is the outcome of the calls made on it: the edits that were accepted, in the
order of the calls.  A call is refused for an edit that is not clear of those.  A run that
only records on a tracker makes such calls one after another, wherever in the run they come from,
and takes none of them back.
-/

namespace Sequencer

def TextEdit.Clear (edit other : TextEdit) : Prop :=
  edit.file = other.file →
    edit.span.stop ≤ other.span.start ∨ other.span.stop ≤ edit.span.start

theorem TextEdit.conflicts_eq_false_iff {edit other : TextEdit} :
    edit.conflicts other = false ↔ edit.Clear other := by
  simp only [conflicts, Span.overlaps, Clear, Bool.and_eq_false_iff, beq_eq_false_iff_ne,
    decide_eq_false_iff_not]
  constructor
  · intro apart same
    have := apart.resolve_left (absurd same)
    omega
  · intro clear
    by_cases same : edit.file = other.file
    · have := clear same
      right
      omega
    · exact .inl same

namespace ChangeTracker

variable {tracker : ChangeTracker} {edit : TextEdit}

theorem clear (tracker : ChangeTracker) : tracker.edits.Pairwise TextEdit.Clear :=
  tracker.apart.imp TextEdit.conflicts_eq_false_iff.mp

/-! ## Calls -/

def after (tracker : ChangeTracker) (edit : TextEdit) : ChangeTracker :=
  match tracker.record edit with
  | .ok next => next
  | .error _ => tracker

def answer (tracker : ChangeTracker) (edit : TextEdit) : Except CheckError Unit :=
  (tracker.record edit).map fun _ => ()

def afterAll (tracker : ChangeTracker) (edits : List TextEdit) : ChangeTracker :=
  edits.foldl after tracker

def calls (tracker : ChangeTracker) : List TextEdit → List (TextEdit × Except CheckError Unit)
  | [] => []
  | edit :: rest => (edit, tracker.answer edit) :: (tracker.after edit).calls rest

def accepted (calls : List (TextEdit × Except CheckError Unit)) : List TextEdit :=
  (calls.filter fun call => call.2.isOk).map Prod.fst

@[simp] theorem accepted_ok_cons (edit : TextEdit)
    (calls : List (TextEdit × Except CheckError Unit)) :
    accepted ((edit, .ok ()) :: calls) = edit :: accepted calls := rfl

@[simp] theorem accepted_error_cons (edit : TextEdit) (error : CheckError)
    (calls : List (TextEdit × Except CheckError Unit)) :
    accepted ((edit, .error error) :: calls) = accepted calls := rfl

/-- What a call comes to when these edits are held: its answer and the edits held afterwards. -/
inductive Answered (held : List TextEdit) (edit : TextEdit) :
    Except CheckError Unit → List TextEdit → Prop where
  | accepted (clear : ∀ other ∈ held, other.Clear edit) :
      Answered held edit (.ok ()) (held ++ [edit])
  | refused {other : TextEdit} {reason : String} (member : other ∈ held)
      (overlap : ¬ other.Clear edit) : Answered held edit (.error (.edit reason)) held

theorem answered (tracker : ChangeTracker) (edit : TextEdit) :
    Answered tracker.edits edit (tracker.answer edit) (tracker.after edit).edits := by
  unfold answer after record
  split
  · next existing found =>
    have conflict := List.find?_some found
    refine .refused (List.mem_of_find?_eq_some found) fun clear => ?_
    simp [TextEdit.conflicts_eq_false_iff.mpr clear] at conflict
  · next found =>
    refine .accepted fun held member => ?_
    have apart := List.find?_eq_none.mp found held member
    exact TextEdit.conflicts_eq_false_iff.mp (by simpa using apart)

theorem calls_append (tracker : ChangeTracker) (edits more : List TextEdit) :
    tracker.calls (edits ++ more) = tracker.calls edits ++ (tracker.afterAll edits).calls more := by
  induction edits generalizing tracker with
  | nil => rfl
  | cons edit edits ih => simp [calls, afterAll, ih]

theorem afterAll_append (tracker : ChangeTracker) (edits more : List TextEdit) :
    tracker.afterAll (edits ++ more) = (tracker.afterAll edits).afterAll more :=
  List.foldl_append

theorem edits_afterAll (tracker : ChangeTracker) (edits : List TextEdit) :
    (tracker.afterAll edits).edits = tracker.edits ++ accepted (tracker.calls edits) := by
  induction edits generalizing tracker with
  | nil => simp [afterAll, calls, accepted]
  | cons edit edits ih =>
      have called := tracker.answered edit
      have later := ih (tracker.after edit)
      simp only [afterAll, List.foldl_cons] at later ⊢
      rw [later, calls]
      generalize tracker.answer edit = answer at called ⊢
      generalize (tracker.after edit).edits = held at called ⊢
      cases called with
      | accepted clear => simp
      | refused member overlap => simp

end ChangeTracker

/-! ## Trackers in a world -/

namespace Host.World

variable {W : Type} (world : World W) (ref : TrackerRef)

@[simp] theorem tracker_setTracker (other : TrackerRef) (tracker : ChangeTracker) :
    (world.setTracker ref tracker).tracker other =
      if other = ref then tracker else world.tracker other := by
  obtain ⟨index⟩ := other
  obtain ⟨index'⟩ := ref
  by_cases same : index = index' <;> simp [World.tracker, setTracker, same]

theorem tracker_record (edit : TextEdit) :
    (world.record ref edit).1.tracker ref = (world.tracker ref).after edit := by
  unfold record ChangeTracker.after
  cases (world.tracker ref).record edit <;> simp

theorem answer_record (edit : TextEdit) :
    (world.record ref edit).2 = (world.tracker ref).answer edit := by
  unfold record ChangeTracker.answer
  cases (world.tracker ref).record edit <;> rfl

theorem tracker_record_of_ne (edit : TextEdit) {other : TrackerRef} (differ : other ≠ ref) :
    (world.record ref edit).1.tracker other = world.tracker other := by
  unfold record
  cases (world.tracker ref).record edit <;> simp [differ]

theorem record_of_refused {edit : TextEdit} {error : CheckError}
    (refused : (world.tracker ref).answer edit = .error error) :
    (world.record ref edit).1 = world := by
  unfold record
  unfold ChangeTracker.answer at refused
  cases recorded : (world.tracker ref).record edit with
  | ok next => simp [recorded, Except.map] at refused
  | error error => rfl

end Host.World

section Runs

variable {app : Signature} {procedures : Procedures (Host.signature app)}
  {frame : Frame (Host.signature app) CheckError} {ref : Host.TrackerRef}

theorem Runs.reply (answer : Except CheckError Unit) (state : RunState (Host.signature app)) :
    ∃ history journal,
      Runs procedures (.play (match answer with
          | .ok () => .done ()
          | .error error => .fail error)) frame state history
        ⟨answer.mapError .failed, frame, ⟨journal, state.world⟩⟩ ∧
      (answer = .ok () → history.filterMap Moment.raised? = []) := by
  cases answer with
  | ok value => exact ⟨[], state.journal, .done, fun _ => rfl⟩
  | error error => exact ⟨_, _, Runs.routine_fail_iff.mpr (.perform .fail), nofun⟩

theorem Runs.recordEdit (found : frame.context.lookup Host.Key.changeTracker = .found ref)
    (edit : TextEdit) (state : RunState (Host.signature app)) :
    ∃ history journal,
      Runs procedures (.evaluate (Host.recordEdit edit)) frame state history
        ⟨((Host.World.tracker state.world ref).answer edit).mapError .failed, frame,
          ⟨journal, (Host.World.record state.world ref edit).1⟩⟩ ∧
      ((Host.World.tracker state.world ref).answer edit = .ok () →
        history.filterMap Moment.raised? = []) := by
  rw [← Host.World.answer_record state.world ref edit]
  obtain ⟨history, journal, replied, quiet⟩ :=
    @Runs.reply app procedures frame (Host.World.record state.world ref edit).2
      ⟨_, (Host.World.record state.world ref edit).1⟩
  exact ⟨_, journal, .routine (.performValue (.requestFound found) (.act replied)), quiet⟩

end Runs

/-! ## Runs that record -/

namespace Work

variable {app : Signature} {procedures : Procedures (Host.signature app)}
  {work part : Work (Host.signature app)} {ref : Host.TrackerRef}

def tracker (work : Work (Host.signature app)) (ref : Host.TrackerRef) : ChangeTracker :=
  Host.World.tracker work.world ref

/-- All that the work does to the tracker is to make calls on it. -/
def RecordsOn (procedures : Procedures (Host.signature app)) (ref : Host.TrackerRef)
    (work : Work (Host.signature app)) : Prop :=
  work.Always procedures (fun _ => False) fun part => ∀ act, part.act? = some act →
    ∃ edits, Host.World.tracker (act part.world) ref = (part.tracker ref).afterAll edits

namespace RecordsOn

theorem of_part (records : work.RecordsOn procedures ref)
    (reached : work.Reaches procedures (fun _ => False) part) : part.RecordsOn procedures ref :=
  fun later onward => records later (reached.trans onward)

theorem guards (records : work.RecordsOn procedures ref) :
    work.Guards procedures (fun _ => False)
      (fun world => ∃ edits, Host.World.tracker world ref = (work.tracker ref).afterAll edits)
      fun _ => True where
  acts := by
    rintro part act reached - acts ⟨earlier, held⟩
    obtain ⟨edits, made⟩ := records part reached act acts
    refine ⟨earlier ++ edits, ?_⟩
    rw [made, tracker, held, ChangeTracker.afterAll_append]
  raises _ _ _ _ := trivial
  inside _ hidden := hidden.elim

theorem reaches (records : work.RecordsOn procedures ref)
    (reached : work.Reaches procedures (fun _ => False) part) :
    ∃ edits, part.tracker ref = (work.tracker ref).afterAll edits :=
  records.guards.of_reaches ⟨[], rfl⟩ reached

theorem ends (records : work.RecordsOn procedures ref) {history : History (Host.signature app)}
    {left : Host.World app.World} (ends : work.Ends procedures history left) :
    ∃ edits, left.tracker ref = (work.tracker ref).afterAll edits :=
  (records.guards.of_ends .refl ⟨[], rfl⟩ ends).kept

end RecordsOn

theorem recordsOn_fail {E A : Type} (error : E) (frame : Frame (Host.signature app) E)
    (state : RunState (Host.signature app)) :
    (Work.task (.play (.fail error : Routine _ E A)) frame state).RecordsOn procedures ref := by
  refine .of_starts nofun fun _ => ?_
  rintro part (rfl | ⟨_, _, _, _, _, rfl⟩ | ⟨_, _, _, _, _, rfl⟩)
  · exact .of_inert nofun fun _ => id
  · exact .of_inert nofun fun _ => id
  · exact .of_inert nofun fun _ => id

theorem recordsOn_recordEdit (edit : TextEdit) (frame : Frame (Host.signature app) CheckError)
    (state : RunState (Host.signature app)) :
    (Work.task (.evaluate (Host.recordEdit edit)) frame state).RecordsOn procedures ref := by
  refine .of_starts nofun fun _ => ?_
  rintro part rfl
  refine .of_starts nofun fun _ => ?_
  rintro part (rfl | ⟨_, found, _, state', _, rfl⟩ | ⟨_, _, _, _, _, rfl⟩)
  · exact .of_inert nofun fun _ => id
  · refine .of_starts ?_ fun _ => ?_
    · rintro act ⟨⟩
      by_cases same : ref = found
      · subst same
        exact ⟨[edit], Host.World.tracker_record state'.world ref edit⟩
      · exact ⟨[], Host.World.tracker_record_of_ne state'.world found edit same⟩
    · rintro part rfl
      generalize (Host.World.record state'.world found edit).2 = answer
      cases answer with
      | ok value => exact .of_inert nofun fun _ => id
      | error error => exact recordsOn_fail error _ _
  · exact .of_inert nofun fun _ => id

end Work

/-- A tracker holds the edits that were accepted, in the order of the calls, and a call is accepted
if and only if its edit is clear of those held.  So the edits a tracker holds are clear of each
other wherever a run passes, and a run that only records takes none of them back.  Recording an
edit fails if and only if the tracker refuses it. -/
theorem trackers_hold_accepted_edits :
    (∀ (earlier : List TextEdit) (edit : TextEdit),
      (ChangeTracker.empty.afterAll earlier).edits =
        ChangeTracker.accepted (ChangeTracker.empty.calls earlier) ∧
      ChangeTracker.empty.calls (earlier ++ [edit]) =
        ChangeTracker.empty.calls earlier ++
          [(edit, (ChangeTracker.empty.afterAll earlier).answer edit)] ∧
      ChangeTracker.Answered (ChangeTracker.accepted (ChangeTracker.empty.calls earlier)) edit
        ((ChangeTracker.empty.afterAll earlier).answer edit)
        (ChangeTracker.empty.afterAll (earlier ++ [edit])).edits) ∧
    (∀ {app : Signature} {E A : Type} (interpreter : Interpreter (Host.signature app))
      (sequence : Sequence (Host.signature app) E A) (context : Context (Host.signature app))
      (world : Host.World app.World) (ref : Host.TrackerRef) (part : Work (Host.signature app)),
      (interpreter.work sequence context world).Reaches interpreter.procedures
        (fun _ => False) part →
      (part.tracker ref).edits.Pairwise TextEdit.Clear ∧
      ((interpreter.work sequence context world).RecordsOn interpreter.procedures ref →
        (∀ later, part.Reaches interpreter.procedures (fun _ => False) later →
          ∃ edits, later.tracker ref = (part.tracker ref).afterAll edits) ∧
        ∀ history (left : Host.World app.World), part.Ends interpreter.procedures history left →
          ∃ edits, left.tracker ref = (part.tracker ref).afterAll edits)) ∧
    ∀ {app : Signature} (procedures : Procedures (Host.signature app))
      (frame : Frame (Host.signature app) CheckError) (ref : Host.TrackerRef),
      frame.context.lookup Host.Key.changeTracker = .found ref →
      ∀ (edit : TextEdit) (journal : Journal) (world : Host.World app.World),
        ∃ (journal' : Journal) (left : Host.World app.World),
          (∀ out, (Host.recordEdit edit).Evaluates procedures frame ⟨journal, world⟩ out ↔
            out = ⟨((world.tracker ref).answer edit).mapError .failed, frame,
              ⟨journal', left⟩⟩) ∧
          left.tracker ref = (world.tracker ref).after edit ∧
          (∀ other, other ≠ ref → left.tracker other = world.tracker other) ∧
          ((world.tracker ref).answer edit ≠ .ok () → left = world) := by
  refine ⟨fun earlier edit => ?_, ?_, ?_⟩
  · have held : (ChangeTracker.empty.afterAll earlier).edits =
        ChangeTracker.accepted (ChangeTracker.empty.calls earlier) :=
      ChangeTracker.edits_afterAll _ earlier
    refine ⟨held, ChangeTracker.calls_append _ earlier [edit], ?_⟩
    rw [← held, ChangeTracker.afterAll_append]
    exact ChangeTracker.answered _ edit
  · intro app E A interpreter sequence context world ref part reached
    refine ⟨(part.tracker ref).clear, fun records => ?_⟩
    have recording := records.of_part reached
    exact ⟨fun later => recording.reaches, fun history left => recording.ends⟩
  · intro app procedures frame ref found edit journal world
    obtain ⟨history, journal', run, -⟩ := Runs.recordEdit found edit ⟨journal, world⟩
    refine ⟨journal', (world.record ref edit).1, fun out => ?_, world.tracker_record ref edit,
      fun other => world.tracker_record_of_ne ref edit, fun refused => ?_⟩
    · constructor
      · intro evaluates
        obtain ⟨history', run'⟩ := eval_iff_runs.mp evaluates
        exact (run'.unique run).2
      · rintro rfl
        exact eval_iff_runs.mpr ⟨history, run⟩
    · cases answer : (world.tracker ref).answer edit with
      | ok value => exact absurd answer refused
      | error error => exact world.record_of_refused ref answer

namespace Sample

def contested : Check signature :=
  (Host.recordEdit ⟨"a", ⟨0, 2⟩, "y"⟩).andThen fun _ =>
    ((Host.recordEdit ⟨"a", ⟨1, 3⟩, "z"⟩).map fun _ => []).orElse fun _ => .succeed []

def visitFrame : Frame (Host.signature signature) CheckError :=
  { context := session.fileContext ⟨0⟩ ⟨"a", "xxx"⟩, depth := 0 }

def contestedWork : Work (Host.signature signature) :=
  session.interpreter.work contested visitFrame.context { app := [] }

def edited : Host.World signature.World :=
  (Host.World.record { app := [] } ⟨0⟩ ⟨"a", ⟨0, 2⟩, "y"⟩).1

theorem contestedWork_recordsOn : contestedWork.RecordsOn session.procedures ⟨0⟩ := by
  refine .of_starts nofun fun _ => ?_
  rintro part (rfl | ⟨_, body, run, rfl⟩)
  · refine .of_starts nofun fun _ => ?_
    rintro part (rfl | ⟨_, _, _, _, _, rfl⟩)
    · exact Work.recordsOn_recordEdit _ _ _
    · refine .of_starts nofun fun _ => ?_
      rintro part (rfl | ⟨_, _, _, _, _, rfl⟩ | ⟨_, _, _, _, _, rfl⟩)
      · refine .of_starts nofun fun _ => ?_
        rintro part (rfl | ⟨_, _, _, _, _, rfl⟩)
        · exact Work.recordsOn_recordEdit _ _ _
        · exact .of_inert nofun fun _ => id
      · exact .of_inert nofun fun _ => id
      · exact .of_inert nofun fun _ => id
  · -- The body registers no finalizer, so nothing is left to run.
    have evaluated : (Machine.level session.procedures 20).eval contested visitFrame
        (RunState.reach ⟨{ config := session.interpreter.config }, { app := [] }⟩ 0) =
      .ok ⟨_, _, _⟩ := rfl
    obtain ⟨_, run'⟩ := eval_iff_runs.mp ⟨20, evaluated⟩
    obtain ⟨-, rfl⟩ := run'.unique run
    refine .of_starts nofun fun _ => ?_
    rintro part ⟨_, _, ⟨⟩, _⟩

end Sample

theorem trackers_hold_accepted_edits_contested :
    ChangeTracker.Answered [⟨"a", ⟨0, 2⟩, "y"⟩, ⟨"a", ⟨5, 1⟩, "w"⟩] ⟨"a", ⟨2, 4⟩, "v"⟩ (.ok ())
      (ChangeTracker.empty.afterAll [⟨"a", ⟨0, 2⟩, "y"⟩, ⟨"a", ⟨1, 1⟩, "z"⟩, ⟨"a", ⟨5, 1⟩, "w"⟩,
        ⟨"a", ⟨2, 4⟩, "v"⟩]).edits ∧
    Sample.contestedWork.RecordsOn Sample.session.procedures ⟨0⟩ ∧
    (∀ later, Sample.contestedWork.Reaches Sample.session.procedures (fun _ => False) later →
      ∃ edits, later.tracker ⟨0⟩ = ChangeTracker.empty.afterAll edits) ∧
    Sample.visitFrame.context.lookup Host.Key.changeTracker = .found ⟨0⟩ ∧
    ∃ error journal, (Host.recordEdit ⟨"a", ⟨1, 3⟩, "z"⟩).Evaluates Sample.session.procedures
      Sample.visitFrame ⟨{ config := {} }, Sample.edited⟩
      ⟨.error (.failed error), Sample.visitFrame, ⟨journal, Sample.edited⟩⟩ := by
  obtain ⟨calls, runs, records⟩ := trackers_hold_accepted_edits
  obtain ⟨-, -, answered⟩ := calls
    [⟨"a", ⟨0, 2⟩, "y"⟩, ⟨"a", ⟨1, 1⟩, "z"⟩, ⟨"a", ⟨5, 1⟩, "w"⟩] ⟨"a", ⟨2, 4⟩, "v"⟩
  obtain ⟨-, kept⟩ := runs Sample.session.interpreter Sample.contested Sample.visitFrame.context
    { app := [] } ⟨0⟩ Sample.contestedWork .refl
  obtain ⟨journal, left, evaluates, -, -, unchanged⟩ := records Sample.session.procedures
    Sample.visitFrame ⟨0⟩ rfl ⟨"a", ⟨1, 3⟩, "z"⟩ { config := {} } Sample.edited
  obtain rfl := unchanged nofun
  exact ⟨answered, Sample.contestedWork_recordsOn, (kept Sample.contestedWork_recordsOn).1, rfl,
    _, journal, (evaluates _).mpr rfl⟩

end Sequencer
