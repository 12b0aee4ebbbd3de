import Sequencer.Host.Analysis
import Sequencer.Proofs.Refinement
import Mathlib.Algebra.GroupWithZero.Nat

/-!
# Sessions, file by file

An analysis visits files one after another, and each visit is a run of the check of its own.  What
the report says is read off the visits, section by section.
-/

open Filter

namespace Sequencer

variable {app : Signature}

/-- The run of a check over one file, from the world with the new tracker to the world it leaves. -/
structure Visit (app : Signature) where
  file : SourceFile
  tracker : Host.TrackerRef
  start : Host.World app.World
  report : RunReport CheckError (List Diagnostic)
  finish : Host.World app.World

namespace Visit

def succeeded (visit : Visit app) : Bool :=
  visit.report.isSuccess

def recorded (visit : Visit app) : List TextEdit :=
  (visit.finish.tracker visit.tracker).edits

def diagnostics? (visit : Visit app) : Option (List Diagnostic) :=
  match visit.report.exit with
  | .ok (.ok diagnostics) => some diagnostics
  | _ => none

def failure? (visit : Visit app) : Option FileFailure :=
  match visit.report.exit with
  | .ok (.err error) => some ⟨visit.file.path, error.message⟩
  | _ => none

def defect? (visit : Visit app) : Option FileDefect :=
  match visit.report.exit with
  | .error defect => some ⟨visit.file.path, defect.capabilityName?, defect.message⟩
  | _ => none

def suppressed (visit : Visit app) : List FileFailure :=
  visit.report.suppressed.toList.map fun error => ⟨visit.file.path, error.message⟩

def trace (visit : Visit app) : List TraceEvent :=
  visit.report.trace.toList

/-- The world for the next visit: the tracker of a success is emptied. -/
def left (visit : Visit app) : Host.World app.World :=
  if visit.succeeded then visit.finish.setTracker visit.tracker .empty else visit.finish

def run (visit : Visit app) : FileRun where
  path := visit.file.path
  report := visit.report
  edits := if visit.succeeded then visit.recorded else []

theorem isDefect_run (visit : Visit app) : visit.run.isDefect = visit.defect?.isSome := by
  unfold FileRun.isDefect defect? run
  rcases visit.report.exit with defect | (diagnostics | error) <;> rfl

theorem exits (visit : Visit app) :
    visit.failure?.toList.length + visit.defect?.toList.length +
      [visit].countP succeeded = 1 := by
  unfold failure? defect?
  rw [List.countP_singleton, succeeded, RunReport.isSuccess]
  rcases visit.report.exit with defect | (diagnostics | error) <;> rfl

end Visit

/-! ## The report of some visits -/

structure AnalysisReport.Summarizes (report : AnalysisReport) (visits : List (Visit app)) :
    Prop where
  filesAnalyzed : report.filesAnalyzed = visits.length
  exits : report.filesAnalyzed =
    report.failures.length + report.defects.length + visits.countP Visit.succeeded
  diagnostics : report.diagnostics = (visits.filterMap Visit.diagnostics?).flatten
  edits : report.edits = (visits.filter Visit.succeeded).flatMap Visit.recorded
  failures : report.failures = visits.filterMap Visit.failure?
  defects : report.defects = visits.filterMap Visit.defect?
  suppressed : report.suppressed = visits.flatMap Visit.suppressed
  stats : report.stats =
    { steps := (visits.map (·.report.stats.steps)).sum
      capabilityRequests := (visits.map (·.report.stats.capabilityRequests)).sum
      finalizersRun := (visits.map (·.report.stats.finalizersRun)).sum
      suppressed := (visits.map (·.report.stats.suppressed)).sum
      maxDepth := (visits.map (·.report.stats.maxDepth)).foldl max 0 }
  traces : ∀ path trace, report.traces.get? path = some trace ↔
    trace ≠ [] ∧ ∃ visit ∈ visits, visit.file.path = path ∧ visit.trace = trace

namespace AnalysisReport

def addVisits (report : AnalysisReport) (visits : List (Visit app)) : AnalysisReport :=
  visits.foldl (fun report visit => report.add visit.run) report

@[simp] theorem addVisits_nil (report : AnalysisReport) :
    report.addVisits ([] : List (Visit app)) = report := rfl

@[simp] theorem addVisits_cons (report : AnalysisReport) (visit : Visit app)
    (visits : List (Visit app)) :
    report.addVisits (visit :: visits) = (report.add visit.run).addVisits visits := rfl

theorem addVisits_eq_foldl_run (report : AnalysisReport) (visits : List (Visit app)) :
    report.addVisits visits = (visits.map Visit.run).foldl add report :=
  List.foldl_map.symm

theorem add_run (report : AnalysisReport) (visit : Visit app) :
    report.add visit.run =
      { filesAnalyzed := report.filesAnalyzed + 1
        diagnostics := report.diagnostics ++ visit.diagnostics?.getD []
        failures := report.failures ++ visit.failure?.toList
        defects := report.defects ++ visit.defect?.toList
        suppressed := report.suppressed ++ visit.suppressed
        edits := report.edits ++ if visit.succeeded then visit.recorded else []
        stats := report.stats.combine visit.report.stats
        traces :=
          if visit.report.trace.isEmpty then report.traces
          else report.traces.insert visit.file.path visit.trace } := by
  obtain ⟨file, tracker, start, ⟨exit, suppressed, stats, trace, dropped⟩, finish⟩ := visit
  rcases exit with defect | (diagnostics | error) <;>
    simp [add, count, Visit.run, Visit.diagnostics?, Visit.failure?, Visit.defect?,
      Visit.suppressed, Visit.succeeded, Visit.trace, RunReport.isSuccess]

namespace Summarizes

variable {report report' : AnalysisReport} {visits : List (Visit app)}

theorem nil : Summarizes {} ([] : List (Visit app)) := by
  constructor <;> simp [SortedMap.get?_empty]

theorem get?_traces {visit : Visit app} (summarizes : report.Summarizes visits)
    (new : visit.file.path ∉ visits.map (·.file.path)) (path : String)
    (trace : List TraceEvent) :
    (if visit.report.trace.isEmpty then report.traces
      else report.traces.insert visit.file.path visit.trace).get? path = some trace ↔
      trace ≠ [] ∧ ∃ earlier ∈ visits ++ [visit], earlier.file.path = path ∧
        earlier.trace = trace := by
  have known := summarizes.traces path trace
  simp only [List.mem_append, List.mem_singleton, or_and_right, exists_or, exists_eq_left]
  by_cases silent : visit.report.trace.isEmpty = true
  · have nothing : visit.trace = [] := by simpa [Visit.trace] using silent
    rw [if_pos silent, known]
    constructor
    · rintro ⟨some, earlier⟩
      exact ⟨some, .inl earlier⟩
    · rintro ⟨some, earlier | ⟨-, same⟩⟩
      · exact ⟨some, earlier⟩
      · exact absurd (same.symm.trans nothing) some
  · have something : visit.trace ≠ [] := by simpa [Visit.trace] using silent
    simp only [if_neg silent, SortedMap.get?_insert, Std.LawfulEqOrd.compare_eq_iff_eq]
    by_cases here : path = visit.file.path
    · -- `insert` would overwrite, but no earlier visit has this path.
      have none : ¬ ∃ earlier ∈ visits, earlier.file.path = path ∧ earlier.trace = trace := by
        rintro ⟨earlier, member, same, -⟩
        exact new (List.mem_map.mpr ⟨earlier, member, same.trans here⟩)
      simp only [if_pos here, Option.some_inj]
      constructor
      · rintro rfl
        exact ⟨something, .inr ⟨here.symm, rfl⟩⟩
      · rintro ⟨-, earlier | ⟨-, same⟩⟩
        · exact absurd earlier none
        · exact same
    · simp only [if_neg here, known]
      constructor
      · rintro ⟨some, earlier⟩
        exact ⟨some, .inl earlier⟩
      · rintro ⟨some, earlier | ⟨same, -⟩⟩
        · exact ⟨some, earlier⟩
        · exact absurd same.symm here

theorem snoc {visit : Visit app} (summarizes : report.Summarizes visits)
    (new : visit.file.path ∉ visits.map (·.file.path)) :
    (report.add visit.run).Summarizes (visits ++ [visit]) := by
  rw [add_run]
  constructor
  all_goals simp only [List.filterMap_append, List.filter_append, List.flatMap_append,
    List.map_append, List.flatten_append]
  case filesAnalyzed => simp [summarizes.filesAnalyzed]
  case exits =>
    have one := visit.exits
    have before := summarizes.exits
    simp only [List.length_append, List.countP_append]
    omega
  case diagnostics =>
    rw [summarizes.diagnostics]
    cases found : visit.diagnostics? <;> simp [found]
  case edits =>
    rw [summarizes.edits]
    cases success : visit.succeeded <;> simp [success]
  case failures =>
    rw [summarizes.failures]
    cases failed : visit.failure? <;> simp [failed]
  case defects =>
    rw [summarizes.defects]
    cases faulty : visit.defect? <;> simp [faulty]
  case suppressed => simp [summarizes.suppressed]
  case stats => simp [summarizes.stats, RunStats.combine]
  case traces => exact summarizes.get?_traces new

theorem unique (summarizes : report.Summarizes visits) (summarizes' : report'.Summarizes visits) :
    report = report' := by
  obtain ⟨filesAnalyzed, diagnostics, failures, defects, suppressed, edits, stats, traces⟩ := report
  obtain ⟨filesAnalyzed', diagnostics', failures', defects', suppressed', edits', stats',
    traces'⟩ := report'
  congr 1
  · exact summarizes.filesAnalyzed.trans summarizes'.filesAnalyzed.symm
  · exact summarizes.diagnostics.trans summarizes'.diagnostics.symm
  · exact summarizes.failures.trans summarizes'.failures.symm
  · exact summarizes.defects.trans summarizes'.defects.symm
  · exact summarizes.suppressed.trans summarizes'.suppressed.symm
  · exact summarizes.edits.trans summarizes'.edits.symm
  · exact summarizes.stats.trans summarizes'.stats.symm
  · apply SortedMap.ext_get?
    intro path
    apply Option.ext
    intro trace
    exact (summarizes.traces path trace).trans (summarizes'.traces path trace).symm

theorem addVisits {done : List (Visit app)} (summarizes : report.Summarizes done)
    (distinct : ((done ++ visits).map (·.file.path)).Nodup) :
    (report.addVisits visits).Summarizes (done ++ visits) := by
  induction visits generalizing report done with
  | nil => simpa using summarizes
  | cons visit visits ih =>
      have new : visit.file.path ∉ done.map (·.file.path) := by
        rw [List.map_append, List.map_cons, List.nodup_append] at distinct
        intro member
        exact distinct.2.2 _ member _ List.mem_cons_self rfl
      have along : done ++ visit :: visits = done ++ [visit] ++ visits := by simp
      rw [along] at distinct ⊢
      exact ih (summarizes.snoc new) distinct

end Summarizes

end AnalysisReport

/-! ## The loop over the files -/

theorem Interpreter.Completes.eventually {S : Signature} {E A : Type}
    {interpreter : Interpreter S} {sequence : Sequence S E A} {context : Context S}
    {world left : S.World} {report : RunReport E A}
    (completes : interpreter.Completes sequence context world report left) :
    ∀ᶠ fuel in atTop, interpreter.run fuel sequence context world = .ok (report, left) := by
  obtain ⟨history, out, run, rfl, rfl⟩ := Interpreter.completes_iff_records.mp completes
  filter_upwards [run.answered] with fuel answered
  simp only [Interpreter.run, answered]
  rfl

namespace Session

def fileContext (session : Session app) (tracker : Host.TrackerRef) (file : SourceFile) :
    Context (Host.signature app) :=
  (session.context.provide Host.Key.changeTracker tracker).provide Host.Key.sourceFile file

/-- The visit opens an empty tracker and runs the check to its end, under the session's context
with that tracker and the file. -/
structure Visited (session : Session app) (check : Check app) (world : Host.World app.World)
    (visit : Visit app) : Prop where
  opened : world.newTracker = (visit.start, visit.tracker)
  empty : visit.start.tracker visit.tracker = .empty
  completes : session.interpreter.Completes check (session.fileContext visit.tracker visit.file)
    visit.start visit.report visit.finish

inductive Visits (session : Session app) (check : Check app) :
    Host.World app.World → List (Visit app) → Host.World app.World → Prop where
  | nil {world : Host.World app.World} : Visits session check world [] world
  | cons {world left : Host.World app.World} {visit : Visit app} {visits : List (Visit app)}
      (first : session.Visited check world visit)
      (rest : Visits session check visit.left visits left) :
      Visits session check world (visit :: visits) left

def Halts (session : Session app) (visit : Visit app) : Prop :=
  session.config.failFast = true ∧ visit.defect?.isSome = true

/-- Only the last visit may halt the analysis, and if none does then no file is left over. -/
structure Stops (session : Session app) (visits : List (Visit app)) (rest : List SourceFile) :
    Prop where
  before : ∀ visit ∈ visits.dropLast, ¬ session.Halts visit
  early : rest ≠ [] → ∃ visit, visits.getLast? = some visit ∧ session.Halts visit

theorem stops_nil {session : Session app} {rest : List SourceFile} :
    session.Stops [] rest ↔ rest = [] := by
  constructor
  · intro stops
    by_contra more
    obtain ⟨visit, none, -⟩ := stops.early more
    cases none
  · rintro rfl
    exact ⟨nofun, absurd rfl⟩

theorem stops_cons_of_halts {session : Session app} {visit : Visit app}
    {visits : List (Visit app)} {rest : List SourceFile} (halts : session.Halts visit) :
    session.Stops (visit :: visits) rest ↔ visits = [] := by
  constructor
  · intro stops
    cases visits with
    | nil => rfl
    | cons next visits => exact absurd halts (stops.before visit List.mem_cons_self)
  · rintro rfl
    exact ⟨nofun, fun _ => ⟨visit, rfl, halts⟩⟩

theorem stops_cons_of_goesOn {session : Session app} {visit : Visit app}
    {visits : List (Visit app)} {rest : List SourceFile} (goesOn : ¬ session.Halts visit) :
    session.Stops (visit :: visits) rest ↔ session.Stops visits rest := by
  cases visits with
  | nil =>
      rw [stops_nil]
      constructor
      · intro stops
        by_contra more
        obtain ⟨last, found, halts⟩ := stops.early more
        cases found
        exact goesOn halts
      · rintro rfl
        exact ⟨nofun, absurd rfl⟩
  | cons next visits =>
      constructor
      · intro stops
        refine ⟨fun later member => stops.before later (List.mem_cons_of_mem _ member), ?_⟩
        simpa using stops.early
      · intro stops
        refine ⟨?_, by simpa using stops.early⟩
        rintro earlier (_ | ⟨_, member⟩)
        · exact goesOn
        · exact stops.before earlier member

theorem halts_iff {session : Session app} {visit : Visit app} :
    (session.config.failFast && visit.run.isDefect) = true ↔ session.Halts visit := by
  rw [Bool.and_eq_true, visit.isDefect_run, Halts]

variable {session : Session app} {check : Check app} {world left : Host.World app.World}

theorem runFile_eq {fuel : Nat} (visit : Visit app)
    (opened : world.newTracker = (visit.start, visit.tracker))
    (ran : session.interpreter.run fuel check (session.fileContext visit.tracker visit.file)
      visit.start = .ok (visit.report, visit.finish)) :
    session.runFile fuel check visit.file world = .ok (visit.run, visit.left) := by
  rw [fileContext] at ran
  simp only [Session.runFile, opened, ran, Visit.run, Visit.left]
  have reported : visit.report.isSuccess = visit.succeeded := rfl
  cases success : visit.succeeded <;> simp only [reported, success] <;> rfl

theorem visited_of_runFile {fuel : Nat} {file : SourceFile} {run : FileRun}
    (ran : session.runFile fuel check file world = .ok (run, left)) :
    ∃ visit, session.Visited check world visit ∧ visit.file = file ∧ visit.run = run ∧
      visit.left = left := by
  cases ended : session.interpreter.run fuel check (session.fileContext world.newTracker.2 file)
    world.newTracker.1 with
  | error stop =>
      rw [fileContext] at ended
      simp [Session.runFile, ended] at ran
  | ok answer =>
      obtain ⟨report, finish⟩ := answer
      let visit : Visit app := ⟨file, world.newTracker.2, world.newTracker.1, report, finish⟩
      have same := runFile_eq visit rfl ended
      cases same.symm.trans ran
      have empty : visit.start.tracker visit.tracker = .empty := by
        simp [visit, Host.World.newTracker, Host.World.tracker]
      exact ⟨visit, ⟨rfl, empty, fuel, ended⟩, rfl, rfl, rfl⟩

theorem Visited.runFile {visit : Visit app} (visited : session.Visited check world visit) :
    ∀ᶠ fuel in atTop,
      session.runFile fuel check visit.file world = .ok (visit.run, visit.left) := by
  filter_upwards [visited.completes.eventually] with fuel ran
  exact runFile_eq visit visited.opened ran

theorem visits_of_analyzeFiles {fuel : Nat} {files : List SourceFile}
    {report report' : AnalysisReport}
    (analyzed : session.analyzeFiles fuel check files report world = .ok (report', left)) :
    ∃ visits rest, files = visits.map Visit.file ++ rest ∧
      session.Visits check world visits left ∧ session.Stops visits rest ∧
      report' = report.addVisits visits := by
  induction files generalizing report world with
  | nil =>
      cases analyzed
      exact ⟨[], [], rfl, .nil, stops_nil.mpr rfl, rfl⟩
  | cons file files ih =>
      rw [analyzeFiles] at analyzed
      cases ran : session.runFile fuel check file world with
      | error stop => simp [ran] at analyzed
      | ok answer =>
          obtain ⟨run, next⟩ := answer
          obtain ⟨visit, visited, rfl, rfl, rfl⟩ := visited_of_runFile ran
          simp only [ran] at analyzed
          split at analyzed
          · next halts =>
            cases analyzed
            exact ⟨[visit], files, rfl, .cons visited .nil,
              (stops_cons_of_halts (halts_iff.mp halts)).mpr rfl, rfl⟩
          · next goesOn =>
            obtain ⟨visits, rest, rfl, later, stops, rfl⟩ := ih analyzed
            exact ⟨visit :: visits, rest, rfl, .cons visited later,
              (stops_cons_of_goesOn (goesOn ∘ halts_iff.mpr)).mpr stops, rfl⟩

theorem Visits.analyzeFiles {visits : List (Visit app)} {rest : List SourceFile}
    (visited : session.Visits check world visits left) (stops : session.Stops visits rest)
    (report : AnalysisReport) :
    ∀ᶠ fuel in atTop, session.analyzeFiles fuel check (visits.map Visit.file ++ rest) report world =
      .ok (report.addVisits visits, left) := by
  induction visited generalizing report with
  | nil =>
      obtain rfl := stops_nil.mp stops
      exact .of_forall fun _ => rfl
  | @cons world left visit visits first later ih =>
      by_cases halts : session.Halts visit
      · -- The loop ends here whatever files are left over.
        obtain rfl := (stops_cons_of_halts halts).mp stops
        cases later
        filter_upwards [first.runFile] with fuel ran
        simp [Session.analyzeFiles, ran, halts_iff.mpr halts]
      · have goesOn : (session.config.failFast && visit.run.isDefect) = false := by
          rwa [← Bool.not_eq_true, halts_iff]
        have stops' : session.Stops visits rest := (stops_cons_of_goesOn halts).mp stops
        filter_upwards [first.runFile, ih stops' (report.add visit.run)] with fuel ran analyzed
        simpa [Session.analyzeFiles, ran, goesOn] using analyzed

theorem Visits.visited {visits : List (Visit app)}
    (visited : session.Visits check world visits left) :
    ∀ visit ∈ visits, ∃ start, session.Visited check start visit := by
  induction visited with
  | nil => exact nofun
  | cons first _ ih => exact List.forall_mem_cons.mpr ⟨⟨_, first⟩, ih⟩

theorem nodup_paths_visited {visits : List (Visit app)} {rest : List SourceFile}
    (files : session.program.files = visits.map Visit.file ++ rest) :
    (visits.map (·.file.path)).Nodup := by
  have distinct := session.program.distinct
  rw [files, List.map_append, List.map_map] at distinct
  exact (List.nodup_append.mp distinct).1

theorem summarizes_addVisits {visits : List (Visit app)} {rest : List SourceFile}
    (files : session.program.files = visits.map Visit.file ++ rest) :
    (AnalysisReport.addVisits {} visits).Summarizes visits :=
  AnalysisReport.Summarizes.nil.addVisits (nodup_paths_visited files)

end Session

/-- An analysis is the visits to the files of the program, in their order, and the report of them.
It goes on to the last file, or to the first defect if that is fatal. -/
theorem analysis_visits_files (session : Session app) (check : Check app)
    (world left : Host.World app.World) (report : AnalysisReport) :
    (∃ fuel, session.analyze fuel check world = .ok (report, left)) ↔
      ∃ visits rest, session.program.files = visits.map Visit.file ++ rest ∧
        session.Visits check world visits left ∧ session.Stops visits rest ∧
        report.Summarizes visits := by
  constructor
  · rintro ⟨fuel, analyzed⟩
    obtain ⟨visits, rest, files, visited, stops, rfl⟩ := Session.visits_of_analyzeFiles analyzed
    exact ⟨visits, rest, files, visited, stops, Session.summarizes_addVisits files⟩
  · rintro ⟨visits, rest, files, visited, stops, summarizes⟩
    obtain rfl := summarizes.unique (Session.summarizes_addVisits files)
    obtain ⟨fuel, analyzed⟩ := (visited.analyzeFiles stops {}).exists
    refine ⟨fuel, ?_⟩
    rw [Session.analyze, files]
    exact analyzed

end Sequencer
