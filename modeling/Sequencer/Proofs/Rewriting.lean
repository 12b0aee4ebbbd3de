import Sequencer.Proofs.Members
import Sequencer.Proofs.Occurrences
import Sequencer.Proofs.Tracking
import Mathlib.Data.List.Pairwise

/-!
# Rewriting the matches of a pattern

Matches of one pattern in one file are apart.  So edits that each replace another match never
conflict, in whatever order they are recorded, and a check that records no others never fails for a
refused edit.
-/

open Filter

namespace Sequencer

/-! ## Matches -/

def Span.Apart (span other : Span) : Prop :=
  span.stop ≤ other.start ∨ other.stop ≤ span.start

instance : Std.Symm Span.Apart :=
  ⟨fun _ _ => Or.symm⟩

namespace SourceFile

variable (file : SourceFile) (needle : String)

theorem findAll_in_order :
    (file.findAll needle).Pairwise fun span other => span.stop ≤ other.start := by
  by_cases empty : needle = ""
  · subst empty
    exact .nil
  · exact (scan_findAll empty).in_order

theorem findAll_apart : (file.findAll needle).Pairwise Span.Apart :=
  (file.findAll_in_order needle).imp Or.inl

variable {file needle}

theorem lt_of_mem_findAll {span : Span} (member : span ∈ file.findAll needle) :
    span.start < span.stop := by
  by_cases empty : needle = ""
  · subst empty
    cases member
  · have size := ((scan_findAll empty).occurs member).1
    have positive := utf8ByteSize_pos empty
    omega

theorem nodup_findAll : (file.findAll needle).Nodup := by
  apply (file.findAll_in_order needle).imp_of_mem
  rintro span other member - ordered rfl
  have := lt_of_mem_findAll member
  omega

theorem apart_of_mem_findAll {span other : Span} (member : span ∈ file.findAll needle)
    (member' : other ∈ file.findAll needle) (differ : span ≠ other) : span.Apart other :=
  (file.findAll_apart needle).forall member member' differ

end SourceFile

/-! ## Recording them -/

namespace ChangeTracker

theorem accepts {tracker : ChangeTracker} {edit : TextEdit}
    (clear : ∀ held ∈ tracker.edits, held.Clear edit) :
    tracker.answer edit = .ok () ∧ (tracker.after edit).edits = tracker.edits ++ [edit] := by
  have called := tracker.answered edit
  generalize tracker.answer edit = answer at called ⊢
  generalize (tracker.after edit).edits = held at called ⊢
  cases called with
  | accepted => exact ⟨rfl, rfl⟩
  | refused member overlap => exact absurd (clear _ member) overlap

theorem accepts_all {tracker : ChangeTracker} {edits : List TextEdit}
    (clear : (tracker.edits ++ edits).Pairwise TextEdit.Clear) :
    tracker.calls edits = edits.map (·, .ok ()) ∧
      (tracker.afterAll edits).edits = tracker.edits ++ edits := by
  induction edits generalizing tracker with
  | nil => simp [calls, afterAll]
  | cons edit edits ih =>
      have split := List.pairwise_append.mp clear
      have first := accepts fun held member => split.2.2 held member edit List.mem_cons_self
      have later : ((tracker.after edit).edits ++ edits).Pairwise TextEdit.Clear := by
        simpa [first.2] using clear
      have others := ih later
      simp only [afterAll, List.foldl_cons] at others ⊢
      simp [calls, first, others]

end ChangeTracker

/-! ## Checks that rewrite matches -/

variable {app : Signature}

def Work.RecordsEdit (work : Work (Host.signature app)) : Prop :=
  ∃ edit frame state, work = .task (.evaluate (Host.recordEdit edit)) frame state

/-- A part of a run that rewrites matches of a pattern.  It records an edit of a match that has no
edit yet, or it does nothing to the tracker and raises no edit error. -/
inductive Work.Rewrites (file : SourceFile) (pattern : String) (ref : Host.TrackerRef) :
    Work (Host.signature app) → Prop where
  | records {edit : TextEdit} {frame : Frame (Host.signature app) CheckError}
      {state : RunState (Host.signature app)}
      (found : frame.context.lookup Host.Key.changeTracker = .found ref)
      (own : edit.file = file.path) (matched : edit.span ∈ file.findAll pattern)
      (once : ∀ held ∈ (Host.World.tracker state.world ref).edits, held.span ≠ edit.span) :
      Rewrites file pattern ref (.task (.evaluate (Host.recordEdit edit)) frame state)
  | other {part : Work (Host.signature app)} (other : ¬ part.RecordsEdit)
      (leaves : ∀ act, part.act? = some act →
        Host.World.tracker (act part.world) ref = part.tracker ref)
      (raises : ∀ reason, part.raised? ≠ some ⟨CheckError.edit reason⟩) :
      Rewrites file pattern ref part

/-- On this visit, the check records edits at matches of the pattern in the file it visits, one for
a match, and no others.  It raises no edit error of its own. -/
def Session.RewritesMatches (session : Session app) (check : Check app) (pattern : String)
    (visit : Visit app) : Prop :=
  (session.interpreter.work check (session.fileContext visit.tracker visit.file)
    visit.start).Always session.procedures Work.RecordsEdit
      (Work.Rewrites visit.file pattern visit.tracker)

def Host.World.HoldsMatches (file : SourceFile) (pattern : String) (ref : Host.TrackerRef)
    (world : Host.World app.World) : Prop :=
  ∀ held ∈ (world.tracker ref).edits, held.file = file.path ∧ held.span ∈ file.findAll pattern

theorem Host.World.HoldsMatches.accepts {file : SourceFile} {pattern : String}
    {ref : Host.TrackerRef} {world : Host.World app.World}
    (holds : world.HoldsMatches file pattern ref) (edit : TextEdit) (own : edit.file = file.path)
    (matched : edit.span ∈ file.findAll pattern)
    (once : ∀ held ∈ (world.tracker ref).edits, held.span ≠ edit.span) :
    (world.tracker ref).answer edit = .ok () ∧
      ((world.record ref edit).1.tracker ref).edits = (world.tracker ref).edits ++ [edit] ∧
      (world.record ref edit).1.HoldsMatches file pattern ref := by
  have accepted := ChangeTracker.accepts fun held member (_ : held.file = edit.file) =>
    SourceFile.apart_of_mem_findAll (holds held member).2 matched (once held member)
  rw [HoldsMatches, world.tracker_record, accepted.2, List.forall_mem_append]
  exact ⟨accepted.1, rfl, holds, List.forall_mem_singleton.mpr ⟨own, matched⟩⟩

theorem Work.guards_of_rewrites {procedures : Procedures (Host.signature app)}
    {work : Work (Host.signature app)} {file : SourceFile} {pattern : String}
    {ref : Host.TrackerRef}
    (rewrites : work.Always procedures RecordsEdit (Rewrites file pattern ref)) :
    work.Guards procedures RecordsEdit
      (fun world : Host.World app.World => world.HoldsMatches file pattern ref)
      fun failure => ∀ reason, failure ≠ ⟨CheckError.edit reason⟩ where
  acts := by
    intro part act reached opened acts holds
    cases rewrites part reached with
    | records => exact absurd ⟨_, _, _, rfl⟩ opened
    | other _ leaves _ =>
        intro held member
        rw [leaves act acts] at member
        exact holds held member
  raises := by
    rintro part failure reached opened raised - reason rfl
    cases rewrites part reached with
    | records => exact absurd ⟨_, _, _, rfl⟩ opened
    | other _ _ raises => exact raises reason raised
  inside := by
    intro part history left reached hidden holds ends
    cases rewrites part reached with
    | @records edit frame state found own matched once =>
        have accepted := holds.accepts edit own matched once
        obtain ⟨out, run, rfl⟩ := ends
        obtain ⟨history', journal, run', quiet⟩ := Runs.recordEdit found edit state
        obtain ⟨rfl, rfl⟩ := run.unique run'
        exact .quiet accepted.2.2 (quiet accepted.1)
    | other other => exact absurd hidden other

theorem Runs.drive_undrained {S : Signature} {E A : Type} {procedures : Procedures S}
    {sequence : Sequence S E A} {context : Context S} {depth : Nat} (state : RunState S)
    {history : History S} {out : Evaluated S E A}
    (body : Runs procedures (.evaluate sequence) { context, depth } (state.reach depth) history out)
    (none : out.frame.finalizers = []) :
    Runs procedures (.drive sequence) { context, depth } state
      (.opened sequence context depth :: history ++ [.settled depth] ++ [.closed depth]) out :=
  .drive body (.drained none)

theorem Session.RewritesMatches.visit {session : Session app} {check : Check app}
    {pattern : String} {world : Host.World app.World} {visit : Visit app}
    (rewrites : session.RewritesMatches check pattern visit)
    (visited : session.Visited check world visit) :
    (∀ reason, visit.report.exit ≠ .ok (.err (.edit reason))) ∧
      visit.finish.HoldsMatches visit.file pattern visit.tracker := by
  obtain ⟨history, out, run, reported, finished⟩ :=
    Interpreter.completes_iff_records.mp visited.completes
  have fresh : visit.start.HoldsMatches visit.file pattern visit.tracker := by
    rw [Host.World.HoldsMatches, visited.empty]
    exact List.forall_mem_nil _
  have passes := (Work.guards_of_rewrites rewrites).of_runs run .refl fresh
  refine ⟨fun reason failed => ?_, finished ▸ passes.kept⟩
  have failure : out.settled.failure? = some ⟨CheckError.edit reason⟩ := by
    have same := RunReport.failure?_report out.driven
    rw [← reported, RunReport.failure?, failed] at same
    exact same.symm
  exact passes.allowed _ (run.raised_of_failure failure) reason rfl

/-! ## The plain loop -/

def SourceFile.editsAt (file : SourceFile) (replace : Span → String) (spans : List Span) :
    List TextEdit :=
  spans.map fun span => ⟨file.path, span, replace span⟩

namespace Host

def rewriteEach (spans : SourceFile → List Span) (replace : SourceFile → Span → String)
    (diagnose : SourceFile → List Diagnostic) : Check app :=
  sourceFile.andThen fun file =>
    (Sequence.forEach (spans file) fun span =>
      recordEdit ⟨file.path, span, replace file span⟩).map fun _ => diagnose file

end Host

structure Host.World.Pending (file : SourceFile) (pattern : String) (ref : Host.TrackerRef)
    (spans : List Span) (world : Host.World app.World) : Prop where
  holds : world.HoldsMatches file pattern ref
  matched : ∀ span ∈ spans, span ∈ file.findAll pattern
  distinct : spans.Nodup
  once : ∀ held ∈ (world.tracker ref).edits, held.span ∉ spans

section Loop

variable {procedures : Procedures (Host.signature app)} {file : SourceFile} {pattern : String}
  {ref : Host.TrackerRef} {frame : Frame (Host.signature app) CheckError}
  {state : RunState (Host.signature app)} {span : Span} {spans : List Span}

theorem Host.World.Pending.fresh {world : Host.World app.World}
    (pending : world.Pending file pattern ref (span :: spans)) :
    ∀ held ∈ (world.tracker ref).edits, held.span ≠ span := by
  rintro held member rfl
  exact pending.once held member List.mem_cons_self

theorem Host.World.Pending.step (found : frame.context.lookup Host.Key.changeTracker = .found ref)
    (pending : Host.World.Pending file pattern ref (span :: spans) state.world) (text : String) :
    ∃ history state',
      Runs procedures (.evaluate (Host.recordEdit ⟨file.path, span, text⟩)) frame state history
        ⟨.ok (), frame, state'⟩ ∧
      Host.World.Pending file pattern ref spans state'.world ∧
      (Host.World.tracker state'.world ref).edits =
        (Host.World.tracker state.world ref).edits ++ [⟨file.path, span, text⟩] := by
  have matched := List.forall_mem_cons.mp pending.matched
  have distinct := List.nodup_cons.mp pending.distinct
  obtain ⟨answer, edits, holds⟩ :=
    pending.holds.accepts ⟨file.path, span, text⟩ rfl matched.1 pending.fresh
  obtain ⟨history, journal, run, -⟩ :=
    @Runs.recordEdit app procedures frame ref found ⟨file.path, span, text⟩ state
  rw [answer] at run
  refine ⟨history, _, run, ⟨holds, matched.2, distinct.2, ?_⟩, edits⟩
  rw [edits, List.forall_mem_append]
  refine ⟨fun held member later => ?_, List.forall_mem_singleton.mpr distinct.1⟩
  exact pending.once held member (List.mem_cons_of_mem _ later)

theorem collected_rewrites (found : frame.context.lookup Host.Key.changeTracker = .found ref)
    (pending : Host.World.Pending file pattern ref spans state.world) (replace : Span → String) :
    ∃ values state', Sequence.Collected procedures
        (spans.map fun span => Host.recordEdit ⟨file.path, span, replace span⟩) frame state
        values frame state' ∧
      (Host.World.tracker state'.world ref).edits =
        (Host.World.tracker state.world ref).edits ++ file.editsAt replace spans := by
  induction spans generalizing state with
  | nil => exact ⟨[], state, .none frame state, by simp [SourceFile.editsAt]⟩
  | cons span spans ih =>
      obtain ⟨history, state', run, later, edits⟩ := pending.step found (replace span)
      obtain ⟨values, last, collected, others⟩ := ih later
      refine ⟨() :: values, last, .next (eval_iff_runs.mpr ⟨history, run⟩) collected, ?_⟩
      rw [others, edits]
      simp [SourceFile.editsAt]

variable {sites : SourceFile → List Span} {replace : SourceFile → Span → String}
  {diagnose : SourceFile → List Diagnostic}

theorem Runs.sourceFile (current : frame.context.lookup Host.Key.sourceFile = .found file)
    (state : RunState (Host.signature app)) :
    ∃ history journal, Runs procedures (.evaluate Host.sourceFile) frame state history
      ⟨.ok file, frame, ⟨journal, state.world⟩⟩ :=
  ⟨_, _, .perform (.requestFound current)⟩

theorem evaluates_rewriteEach (found : frame.context.lookup Host.Key.changeTracker = .found ref)
    (current : frame.context.lookup Host.Key.sourceFile = .found file)
    (pending : Host.World.Pending file pattern ref (sites file) state.world) :
    ∃ state', (Host.rewriteEach sites replace diagnose).Evaluates procedures frame state
        ⟨.ok (diagnose file), frame, state'⟩ ∧
      (Host.World.tracker state'.world ref).edits =
        (Host.World.tracker state.world ref).edits ++
          file.editsAt (replace file) (sites file) := by
  obtain ⟨history, journal, read⟩ := @Runs.sourceFile app procedures file frame current state
  obtain ⟨values, last, collected, edits⟩ :=
    @collected_rewrites app procedures file pattern ref frame ⟨journal, state.world⟩ (sites file)
      found pending (replace file)
  refine ⟨last, Sequence.evaluates_andThen_iff.mpr (.inl ⟨file, frame, _,
    eval_iff_runs.mpr ⟨history, read⟩, ?_⟩), edits⟩
  exact Sequence.evaluates_map_iff.mpr ⟨_, collected.evaluates_all, rfl⟩

/-! The parts of the loop other than the recordings neither act nor raise anything. -/

def Work.beginsWithStep : Work (Host.signature app) → Bool
  | .task (.evaluate (.routine (.perform _ _))) _ _ => true
  | _ => false

theorem Work.Rewrites.idle {part : Work (Host.signature app)}
    (differs : part.beginsWithStep = false) (acts : part.act? = none)
    (raises : part.raised? = none) : part.Rewrites file pattern ref := by
  refine .other ?_ ?_ ?_
  · rintro ⟨edit, frame, state, rfl⟩
    cases differs
  · simp [acts]
  · simp [raises]

theorem rewrites_collect (found : frame.context.lookup Host.Key.changeTracker = .found ref)
    (pending : Host.World.Pending file pattern ref spans state.world) (replace : Span → String)
    (values : List Unit) :
    (Work.task (.play (.collect
      (spans.map fun span => Host.recordEdit ⟨file.path, span, replace span⟩) values)) frame
      state).Always procedures Work.RecordsEdit (Work.Rewrites file pattern ref) := by
  induction spans generalizing state values with
  | nil => exact .of_inert (.idle rfl rfl rfl) fun _ => id
  | cons span spans ih =>
      refine .of_starts (.idle rfl rfl rfl) fun _ => ?_
      rintro part (rfl | ⟨_, value, _, _, run, rfl⟩ | ⟨_, _, _, _, _, rfl⟩)
      · refine .of_starts (.records found rfl ?_ pending.fresh) fun opened => ?_
        · exact pending.matched span List.mem_cons_self
        · exact absurd ⟨_, _, _, rfl⟩ opened
      · obtain ⟨_, state', run', later, -⟩ := pending.step found (replace span)
        obtain ⟨-, same⟩ := run.unique run'
        cases same
        exact ih later (() :: values)
      · exact .of_inert (.idle rfl rfl rfl) fun _ => id

theorem rewrites_forEach (found : frame.context.lookup Host.Key.changeTracker = .found ref)
    (pending : Host.World.Pending file pattern ref spans state.world) (replace : Span → String) :
    (Work.task (.evaluate (Sequence.forEach spans fun span =>
      Host.recordEdit ⟨file.path, span, replace span⟩)) frame state).Always procedures
        Work.RecordsEdit (Work.Rewrites file pattern ref) := by
  cases spans with
  | nil => exact .of_inert (.idle rfl rfl rfl) fun _ => id
  | cons span spans =>
      refine .of_starts (.idle rfl rfl rfl) fun _ => ?_
      rintro part rfl
      exact rewrites_collect found pending replace []

end Loop

namespace Session

variable {session : Session app} {pattern : String} {sites : SourceFile → List Span}
  {replace : SourceFile → Span → String} {diagnose : SourceFile → List Diagnostic}

def frame (session : Session app) (tracker : Host.TrackerRef) (file : SourceFile) :
    Frame (Host.signature app) CheckError :=
  { context := session.fileContext tracker file, depth := 0 }

section Visit

variable {tracker : Host.TrackerRef} {file : SourceFile} {start : Host.World app.World}

theorem frame_changeTracker :
    (session.frame tracker file).context.lookup Host.Key.changeTracker = .found tracker := rfl

theorem frame_sourceFile :
    (session.frame tracker file).context.lookup Host.Key.sourceFile = .found file := rfl

theorem pending_of_empty {spans : List Span} (empty : start.tracker tracker = .empty)
    (all : spans.Perm (file.findAll pattern)) : start.Pending file pattern tracker spans where
  holds := by simp [Host.World.HoldsMatches, empty, ChangeTracker.empty]
  matched _ := all.mem_iff.mp
  distinct := all.nodup_iff.mpr SourceFile.nodup_findAll
  once := by simp [empty, ChangeTracker.empty]

theorem runs_rewriteEach (journal : Journal) (empty : start.tracker tracker = .empty)
    (all : (sites file).Perm (file.findAll pattern)) :
    ∃ history, ∃ left : RunState (Host.signature app),
      Runs session.procedures (.evaluate (Host.rewriteEach sites replace diagnose))
        (session.frame tracker file) ⟨journal, start⟩ history
        ⟨.ok (diagnose file), session.frame tracker file, left⟩ ∧
      (Host.World.tracker left.world tracker).edits =
        file.editsAt (replace file) (sites file) := by
  obtain ⟨left, evaluates, edits⟩ :=
    @evaluates_rewriteEach app session.procedures file pattern tracker
      (session.frame tracker file) ⟨journal, start⟩ sites replace diagnose
      frame_changeTracker frame_sourceFile (pending_of_empty empty all)
  obtain ⟨history, run⟩ := eval_iff_runs.mp evaluates
  refine ⟨history, left, run, ?_⟩
  rw [edits]
  simp [empty, ChangeTracker.empty]

end Visit

theorem rewriteEach_rewritesMatches {visit : Visit app}
    (empty : visit.start.tracker visit.tracker = .empty)
    (all : (sites visit.file).Perm (visit.file.findAll pattern)) :
    session.RewritesMatches (Host.rewriteEach sites replace diagnose) pattern visit := by
  refine .of_starts (.idle rfl rfl rfl) fun _ => ?_
  rintro part (rfl | ⟨_, body, run, rfl⟩)
  · refine .of_starts (.idle rfl rfl rfl) fun _ => ?_
    rintro part (rfl | ⟨_, _, _, _, run, rfl⟩)
    · refine .of_starts (.idle rfl rfl rfl) fun _ => ?_
      rintro part rfl
      exact .of_inert (.idle rfl rfl rfl) fun _ => id
    · obtain ⟨_, journal, run'⟩ :=
        Runs.sourceFile (@frame_sourceFile app session visit.tracker visit.file) _
      obtain ⟨-, same⟩ := run.unique run'
      cases same
      refine .of_starts (.idle rfl rfl rfl) fun _ => ?_
      rintro part (rfl | ⟨_, _, _, _, _, rfl⟩)
      · exact rewrites_forEach (@frame_changeTracker app session visit.tracker visit.file)
          (pending_of_empty empty all) (replace visit.file)
      · exact .of_inert (.idle rfl rfl rfl) fun _ => id
  · -- The body registers no finalizer, so nothing is left to run.
    obtain ⟨_, _, run', -⟩ := runs_rewriteEach _ empty all
    obtain ⟨-, rfl⟩ := run'.unique run
    refine .of_starts (.idle rfl rfl rfl) fun _ => ?_
    rintro part ⟨_, _, ⟨⟩, _⟩

theorem exists_visited_rewriteEach (world : Host.World app.World) (file : SourceFile)
    (all : (sites file).Perm (file.findAll pattern)) :
    ∃ visit, session.Visited (Host.rewriteEach sites replace diagnose) world visit ∧
      visit.file = file ∧ visit.report.exit = .ok (.ok (diagnose file)) ∧
      visit.recorded = file.editsAt (replace file) (sites file) := by
  have empty : world.newTracker.1.tracker world.newTracker.2 = .empty := by
    simp [Host.World.newTracker, Host.World.tracker]
  obtain ⟨history, left, body, edits⟩ :=
    @runs_rewriteEach app session pattern sites replace diagnose world.newTracker.2 file
      world.newTracker.1 (Journal.reach { config := session.interpreter.config } 0) empty all
  have run := Runs.drive_undrained ⟨{ config := session.interpreter.config }, _⟩ body rfl
  have completes : session.interpreter.Completes (Host.rewriteEach sites replace diagnose)
      (session.fileContext world.newTracker.2 file) world.newTracker.1
      (Interpreter.report ⟨.ok (diagnose file), #[], left⟩) left.world :=
    Interpreter.completes_iff_records.mpr ⟨_, _, run, rfl, rfl⟩
  exact ⟨⟨file, world.newTracker.2, world.newTracker.1, _, left.world⟩, ⟨rfl, empty, completes⟩,
    rfl, rfl, edits⟩

theorem exists_visits_rewriteEach (world : Host.World app.World) (files : List SourceFile)
    (all : ∀ file ∈ files, (sites file).Perm (file.findAll pattern)) :
    ∃ visits left, session.Visits (Host.rewriteEach sites replace diagnose) world visits left ∧
      visits.map Visit.file = files ∧
      ∀ visit ∈ visits, visit.report.exit = .ok (.ok (diagnose visit.file)) ∧
        visit.recorded = visit.file.editsAt (replace visit.file) (sites visit.file) := by
  induction files generalizing world with
  | nil => exact ⟨[], world, .nil, rfl, nofun⟩
  | cons file files ih =>
      obtain ⟨here, later⟩ := List.forall_mem_cons.mp all
      obtain ⟨visit, visited, rfl, ended⟩ := exists_visited_rewriteEach world file here
      obtain ⟨visits, left, others, rfl, allEnded⟩ := ih visit.left later
      exact ⟨visit :: visits, left, .cons visited others, rfl,
        List.forall_mem_cons.mpr ⟨ended, allEnded⟩⟩

theorem analyze_rewriteEach (world : Host.World app.World)
    (all : ∀ file ∈ session.program.files, (sites file).Perm (file.findAll pattern)) :
    ∀ᶠ fuel in atTop, ∃ report left,
      session.analyze fuel (Host.rewriteEach sites replace diagnose) world = .ok (report, left) ∧
      report.failures = [] ∧ report.defects = [] ∧
      report.edits =
        session.program.files.flatMap fun file => file.editsAt (replace file) (sites file) := by
  obtain ⟨visits, left, visited, files, ended⟩ :=
    @exists_visits_rewriteEach app session pattern sites replace diagnose world _ all
  have succeeded : ∀ visit ∈ visits, visit.succeeded = true := fun visit member => by
    simp [Visit.succeeded, RunReport.isSuccess, (ended visit member).1]
  have stops : session.Stops visits [] := by
    refine ⟨fun visit member halts => ?_, absurd rfl⟩
    have defect := halts.2
    rw [Visit.defect?, (ended visit (List.dropLast_subset _ member)).1] at defect
    cases defect
  have summary :=
    @summarizes_addVisits app session visits [] (files.symm.trans (List.append_nil _).symm)
  filter_upwards [visited.analyzeFiles stops {}] with fuel analyzed
  rw [List.append_nil, files] at analyzed
  refine ⟨_, left, analyzed, ?_, ?_, ?_⟩
  · rw [summary.failures, List.filterMap_eq_nil_iff]
    intro visit member
    rw [Visit.failure?, (ended visit member).1]
  · rw [summary.defects, List.filterMap_eq_nil_iff]
    intro visit member
    rw [Visit.defect?, (ended visit member).1]
  · rw [summary.edits, List.filter_eq_self.mpr succeeded, ← files, List.flatMap_map]
    exact List.flatMap_congr fun visit member => (ended visit member).2

end Session

/-- Edits at the matches of a pattern in a file, one at each, are all accepted in any order.  So a
check that records no edits but such ones does not fail for an edit on any visit of an analysis, and
an analysis by the plain loop over the matches reports them all. -/
theorem rewriting_matches_never_conflicts :
    (∀ (file : SourceFile) (needle : String) (edits : List TextEdit),
      (edits.map TextEdit.span).Perm (file.findAll needle) →
      ChangeTracker.empty.calls edits = edits.map (·, .ok ()) ∧
        (ChangeTracker.empty.afterAll edits).edits = edits) ∧
    (∀ (session : Session app) (check : Check app) (fuel : Nat) (world left : Host.World app.World)
      (report : AnalysisReport), session.analyze fuel check world = .ok (report, left) →
      ∃ visits rest, session.program.files = visits.map Visit.file ++ rest ∧
        session.Visits check world visits left ∧ report.Summarizes visits ∧
        ∀ visit ∈ visits, ∀ pattern, session.RewritesMatches check pattern visit →
          (∀ reason, visit.report.exit ≠ .ok (.err (.edit reason))) ∧
          visit.finish.HoldsMatches visit.file pattern visit.tracker) ∧
    ∀ (session : Session app) (pattern : String) (sites : SourceFile → List Span)
      (replace : SourceFile → Span → String) (diagnose : SourceFile → List Diagnostic)
      (world : Host.World app.World),
      (∀ file ∈ session.program.files, (sites file).Perm (file.findAll pattern)) →
      ∀ᶠ fuel in atTop, ∃ report left,
        session.analyze fuel (Host.rewriteEach sites replace diagnose) world = .ok (report, left) ∧
        report.failures = [] ∧ report.defects = [] ∧
        report.edits =
          session.program.files.flatMap fun file => file.editsAt (replace file) (sites file) := by
  refine ⟨fun file needle edits all => ?_, fun session check fuel world left report analyzed => ?_,
    fun session pattern sites replace diagnose world all => session.analyze_rewriteEach world all⟩
  · have apart : (edits.map TextEdit.span).Pairwise Span.Apart :=
      (all.pairwise_iff Or.symm).mpr (file.findAll_apart needle)
    have clear : edits.Pairwise TextEdit.Clear := by
      apply (List.pairwise_map.mp apart).imp
      intro edit other apart same
      exact apart
    exact @ChangeTracker.accepts_all .empty edits clear
  · obtain ⟨visits, rest, files, visited, -, rfl⟩ := Session.visits_of_analyzeFiles analyzed
    refine ⟨visits, rest, files, visited, Session.summarizes_addVisits files, ?_⟩
    intro visit member pattern rewrites
    obtain ⟨start, here⟩ := visited.visited visit member
    exact rewrites.visit here

namespace Sample

def pairs : Session signature where
  config := {}
  program := ⟨[⟨"a", "xxxxx"⟩, ⟨"b", "yxx"⟩], by decide⟩
  procedures := ⟨nofun⟩

def shortening : Check signature :=
  Host.rewriteEach (fun file => (file.findAll "xx").reverse) (fun _ _ => "x") fun _ => []

end Sample

theorem rewriting_matches_never_conflicts_reversed :
    ChangeTracker.empty.calls [⟨"a", ⟨2, 4⟩, "x"⟩, ⟨"a", ⟨0, 2⟩, ""⟩] =
      [(⟨"a", ⟨2, 4⟩, "x"⟩, .ok ()), (⟨"a", ⟨0, 2⟩, ""⟩, .ok ())] ∧
    ∃ report left visits, ∃ fuel,
      Sample.pairs.analyze fuel Sample.shortening { app := [] } = .ok (report, left) ∧
      report.failures = [] ∧
      report.edits = [⟨"a", ⟨2, 4⟩, "x"⟩, ⟨"a", ⟨0, 2⟩, "x"⟩, ⟨"b", ⟨1, 3⟩, "x"⟩] ∧
      report.Summarizes visits ∧
      ∀ visit ∈ visits, Sample.pairs.RewritesMatches Sample.shortening "xx" visit ∧
        ∀ reason, visit.report.exit ≠ .ok (.err (.edit reason)) := by
  obtain ⟨tracked, checks, loops⟩ := @rewriting_matches_never_conflicts Sample.signature
  have matched : (List.map TextEdit.span [⟨"a", ⟨2, 4⟩, "x"⟩, ⟨"a", ⟨0, 2⟩, ""⟩]).Perm
      (SourceFile.findAll ⟨"a", "xxxxx"⟩ "xx") := by decide
  obtain ⟨fuel, report, left, analyzed, failures, -, edits⟩ :=
    (loops Sample.pairs "xx" _ (fun _ _ => "x") (fun _ => []) { app := [] } fun file _ =>
      (file.findAll "xx").reverse_perm).exists
  obtain ⟨visits, -, -, visited, summary, safe⟩ := checks _ _ _ _ _ _ analyzed
  refine ⟨(tracked _ _ _ matched).1, report, left, visits, fuel, analyzed, failures,
    edits.trans (by decide), summary, ?_⟩
  intro visit member
  obtain ⟨start, here⟩ := visited.visited visit member
  have rewrites : Sample.pairs.RewritesMatches Sample.shortening "xx" visit :=
    Session.rewriteEach_rewritesMatches here.empty (visit.file.findAll "xx").reverse_perm
  exact ⟨rewrites, (safe visit member "xx" rewrites).1⟩

end Sequencer
