import Sequencer.Proofs.ContextIrrelevance
import Sequencer.Proofs.Sessions
import Mathlib.Data.List.Nodup

/-!
# Analysing a program in parts

The program is one binding of the context that every visit runs under.  A check that does not ask
for it, and does not look at its context, makes the same visits whatever the program is, so
analysing the files of two programs one after another is one analysis.  If moreover no visit
depends on what earlier ones have done to the world, the two analyses need not even be made in
sequence.
-/

namespace Sequencer

variable {S : Signature} {E A : Type} {app : Signature}

/-! ## Contexts with the same keys -/

namespace SortedMap

variable {K V : Type} [Ord K]

def domain (map : SortedMap K V) : SortedMap K Unit :=
  ⟨map.entries.map fun entry => (entry.1, ()), List.pairwise_map.mpr map.sorted⟩

theorem size_domain (map : SortedMap K V) : map.domain.size = map.size :=
  List.length_map _

theorem findEntry_domain (key : K) (entries : List (K × V)) :
    findEntry key (entries.map fun entry => (entry.1, ())) =
      (findEntry key entries).map fun _ => () := by
  induction entries with
  | nil => rfl
  | cons entry entries ih =>
      simp only [List.map_cons, findEntry]
      cases compare key entry.1 <;> simp [ih]

theorem size_eq_of_contains_eq [Std.TransOrd K] [Std.LawfulEqOrd K] {map other : SortedMap K V}
    (same : ∀ key, other.contains key = map.contains key) : other.size = map.size := by
  have equal : other.domain = map.domain := by
    apply ext_get?
    intro key
    have bound := same key
    simp only [domain, get?, contains, findEntry_domain] at bound ⊢
    cases found : findEntry key other.entries <;> cases found' : findEntry key map.entries <;>
      simp [found, found'] at bound ⊢
  rw [← size_domain, equal, size_domain]

end SortedMap

namespace Context

def SameKeys (context context' : Context S) : Prop :=
  ∀ id, context'.bindings.contains id = context.bindings.contains id

theorem contains_extend (context : Context S) (layer : Layer S) (id : Nat) :
    (context.extend layer).bindings.contains id =
      (context.bindings.contains id || layer.bindings.contains id) := by
  simp only [SortedMap.contains, get?_extend]
  split
  · rw [Option.isSome_or, Bool.or_comm]
  · rw [Option.isSome_or]

namespace SameKeys

variable {context context' : Context S}

theorem extend (same : context.SameKeys context') (layer : Layer S) :
    (context.extend layer).SameKeys (context'.extend layer) := by
  intro id
  rw [contains_extend, contains_extend, same id]

theorem foldl_extend (same : context.SameKeys context') (joined : List (Layer S)) :
    (joined.foldl Context.extend context).SameKeys (joined.foldl Context.extend context') := by
  induction joined generalizing context context' with
  | nil => exact same
  | cons layer joined ih => exact ih (same.extend layer)

theorem size_eq (same : context.SameKeys context') : context'.size = context.size :=
  SortedMap.size_eq_of_contains_eq same

theorem layeredAlike (same : context.SameKeys context') (ids : List Nat)
    (layers : Layer S → Prop) : Context.LayeredAlike ids layers context context' := by
  intro joined _ layer _ id _ _ _ _
  rw [(same.foldl_extend joined).size_eq]

end SameKeys

end Context

theorem Interpreter.Records.recontext {interpreter : Interpreter S} {layers : Layer S → Prop}
    {sequence : Sequence S E A} {context context' : Context S} {world left : S.World}
    {history : History S} {report : RunReport E A}
    (records : interpreter.Records sequence context world history report left)
    (blind : sequence.ContextBlind interpreter.procedures layers)
    (agree : ∀ id ∈ requestedIds history, context.AgreeOn context' id)
    (alike : Context.LayeredAlike (requestedIds history) layers context context') :
    interpreter.Completes sequence context' world report left := by
  obtain ⟨out, run, rfl, rfl⟩ := records
  obtain ⟨licence, unseen, rfl, covers, keeps⟩ := blind
  obtain ⟨history', after, -, suppressed, run'⟩ := run.recontext unseen covers keeps agree alike
  refine Interpreter.completes_iff_records.mpr ⟨history', _, run', ?_, rfl⟩
  simp only [Evaluated.driven, suppressed]

/-! ## Sessions with different programs -/

namespace Session

def withProgram (session : Session app) (program : Program) : Session app :=
  { session with program }

def ProgramUnread (session : Session app) (check : Check app) : Prop :=
  ∀ program world visit history, (session.withProgram program).Visited check world visit →
    session.interpreter.Records check
      ((session.withProgram program).fileContext visit.tracker visit.file) visit.start history
      visit.report visit.finish →
    (Host.Key.program : Key (Host.signature app) _).id ∉ requestedIds history

/-- The run over a file comes to the same in every world: it finds nothing there that the runs
over other files have left. -/
def Isolated (session : Session app) (check : Check app) : Prop :=
  ∀ program file run world world',
    (∃ fuel left, (session.withProgram program).runFile fuel check file world = .ok (run, left)) →
      ∃ fuel left, (session.withProgram program).runFile fuel check file world' = .ok (run, left)

variable {session : Session app} {check : Check app} {world left : Host.World app.World}

theorem agreeOn_withProgram (program program' : Program) (tracker : Host.TrackerRef)
    (file : SourceFile) {id : Nat}
    (other : id ≠ (Host.Key.program : Key (Host.signature app) _).id) :
    ((session.withProgram program).fileContext tracker file).AgreeOn
      ((session.withProgram program').fileContext tracker file) id := by
  simp [Context.AgreeOn, fileContext, context, withProgram, Context.provide, other]

theorem sameKeys_withProgram (program program' : Program) (tracker : Host.TrackerRef)
    (file : SourceFile) :
    ((session.withProgram program).fileContext tracker file).SameKeys
      ((session.withProgram program').fileContext tracker file) := by
  intro id
  by_cases same : id = (Host.Key.program : Key (Host.signature app) _).id
  · rw [same]
    rfl
  · exact (agreeOn_withProgram program program' tracker file same).contains_eq

theorem Visited.withProgram (blind : check.ContextBlind session.procedures fun _ => True)
    (unread : session.ProgramUnread check) {program : Program} (program' : Program)
    {visit : Visit app} (visited : (session.withProgram program).Visited check world visit) :
    (session.withProgram program').Visited check world visit := by
  refine ⟨visited.opened, visited.empty, ?_⟩
  obtain ⟨history, records⟩ := Interpreter.completes_iff_records.mp visited.completes
  apply records.recontext blind
  · intro id member
    apply agreeOn_withProgram
    rintro rfl
    exact unread _ _ _ _ visited records member
  · exact (sameKeys_withProgram _ _ _ _).layeredAlike _ _

theorem Visits.withProgram (blind : check.ContextBlind session.procedures fun _ => True)
    (unread : session.ProgramUnread check) {program : Program} (program' : Program)
    {visits : List (Visit app)}
    (visited : (session.withProgram program).Visits check world visits left) :
    (session.withProgram program').Visits check world visits left := by
  induction visited with
  | nil => exact .nil
  | cons first rest ih => exact .cons (first.withProgram blind unread program') ih

theorem Isolated.visits (isolated : session.Isolated check) {program : Program}
    {visits : List (Visit app)}
    (visited : (session.withProgram program).Visits check world visits left)
    (world' : Host.World app.World) :
    ∃ visits' left', (session.withProgram program).Visits check world' visits' left' ∧
      visits'.map Visit.file = visits.map Visit.file ∧
      visits'.map Visit.run = visits.map Visit.run := by
  induction visited generalizing world' with
  | nil => exact ⟨[], world', .nil, rfl, rfl⟩
  | @cons world left visit visits first rest ih =>
      obtain ⟨fuel, ran⟩ := first.runFile.exists
      obtain ⟨fuel', left', ran'⟩ := isolated program visit.file visit.run world world' ⟨_, _, ran⟩
      obtain ⟨visit', first', file, run, -⟩ := visited_of_runFile ran'
      obtain ⟨visits', left'', rest', files, runs⟩ := ih visit'.left
      refine ⟨visit' :: visits', left'', .cons first' rest', ?_, ?_⟩
      · rw [List.map_cons, List.map_cons, file, files]
      · rw [List.map_cons, List.map_cons, run, runs]

theorem visits_append {visits visits' : List (Visit app)} :
    session.Visits check world (visits ++ visits') left ↔
      ∃ middle, session.Visits check world visits middle ∧
        session.Visits check middle visits' left := by
  constructor
  · intro visited
    induction visits generalizing world with
    | nil => exact ⟨world, .nil, visited⟩
    | cons visit visits ih =>
        cases visited with
        | cons first rest =>
            obtain ⟨middle, before, after⟩ := ih rest
            exact ⟨middle, .cons first before, after⟩
  · rintro ⟨middle, before, after⟩
    induction before with
    | nil => exact after
    | cons first rest ih => exact .cons first (ih after)

/-! ## Analyses that visit every file -/

def Analyzes (session : Session app) (check : Check app) (world : Host.World app.World)
    (report : AnalysisReport) (left : Host.World app.World) : Prop :=
  ∃ fuel, session.analyze fuel check world = .ok (report, left)

theorem stops_iff (patient : session.config.failFast = false) {visits : List (Visit app)}
    {rest : List SourceFile} : session.Stops visits rest ↔ rest = [] := by
  have goesOn : ∀ visit, ¬ session.Halts visit := by
    intro visit halts
    rw [halts.1] at patient
    cases patient
  constructor
  · intro stops
    by_contra more
    obtain ⟨visit, -, halts⟩ := stops.early more
    exact goesOn visit halts
  · rintro rfl
    exact ⟨fun visit _ => goesOn visit, absurd rfl⟩

theorem analyzes_withProgram_iff (patient : session.config.failFast = false) {program : Program}
    {report : AnalysisReport} :
    (session.withProgram program).Analyzes check world report left ↔
      ∃ visits, visits.map Visit.file = program.files ∧
        (session.withProgram program).Visits check world visits left ∧
        AnalysisReport.addVisits {} visits = report := by
  have patient' : (session.withProgram program).config.failFast = false := patient
  constructor
  · rintro ⟨fuel, analyzed⟩
    obtain ⟨visits, rest, files, visited, stops, rfl⟩ := visits_of_analyzeFiles analyzed
    rw [(stops_iff patient').mp stops, List.append_nil] at files
    exact ⟨visits, files.symm, visited, rfl⟩
  · rintro ⟨visits, files, visited, rfl⟩
    obtain ⟨fuel, analyzed⟩ := (visited.analyzeFiles ((stops_iff patient').mpr rfl) {}).exists
    rw [List.append_nil, files] at analyzed
    exact ⟨fuel, analyzed⟩

theorem Isolated.analyzes (isolated : session.Isolated check)
    (patient : session.config.failFast = false) {program : Program} {report : AnalysisReport}
    (analyzes : (session.withProgram program).Analyzes check world report left)
    (world' : Host.World app.World) :
    ∃ left', (session.withProgram program).Analyzes check world' report left' := by
  obtain ⟨visits, files, visited, rfl⟩ := (analyzes_withProgram_iff patient).mp analyzes
  obtain ⟨visits', left', visited', files', runs⟩ := isolated.visits visited world'
  refine ⟨left', (analyzes_withProgram_iff patient).mpr ⟨visits', files'.trans files, visited', ?_⟩⟩
  rw [AnalysisReport.addVisits_eq_foldl_run, runs, ← AnalysisReport.addVisits_eq_foldl_run]

end Session

/-! ## Reports of two analyses -/

namespace AnalysisReport

def join (report other : AnalysisReport) : AnalysisReport where
  filesAnalyzed := report.filesAnalyzed + other.filesAnalyzed
  diagnostics := report.diagnostics ++ other.diagnostics
  failures := report.failures ++ other.failures
  defects := report.defects ++ other.defects
  suppressed := report.suppressed ++ other.suppressed
  edits := report.edits ++ other.edits
  stats :=
    { steps := report.stats.steps + other.stats.steps
      capabilityRequests := report.stats.capabilityRequests + other.stats.capabilityRequests
      finalizersRun := report.stats.finalizersRun + other.stats.finalizersRun
      suppressed := report.stats.suppressed + other.stats.suppressed
      maxDepth := max report.stats.maxDepth other.stats.maxDepth }
  traces := report.traces.union other.traces

theorem join_empty (report : AnalysisReport) : report.join {} = report := by
  obtain ⟨_, _, _, _, _, _, stats, traces⟩ := report
  simp only [join, List.append_nil, Nat.add_zero, Nat.max_zero]
  rfl

theorem join_add (report other : AnalysisReport) (visit : Visit app) :
    report.join (other.add visit.run) = (report.join other).add visit.run := by
  have traces : ∀ trace, report.traces.union (other.traces.insert visit.file.path trace) =
      (report.traces.union other.traces).insert visit.file.path trace := by
    intro trace
    apply SortedMap.ext_get?
    intro path
    simp only [SortedMap.get?_union, SortedMap.get?_insert]
    split <;> simp
  simp only [add_run, join, RunStats.combine, List.append_assoc, Nat.add_assoc, Nat.max_assoc]
  congr 1
  split
  · rfl
  · exact traces _

theorem join_addVisits (report other : AnalysisReport) (visits : List (Visit app)) :
    report.join (other.addVisits visits) = (report.join other).addVisits visits := by
  induction visits generalizing other with
  | nil => rfl
  | cons visit visits ih => rw [addVisits_cons, addVisits_cons, ih, join_add]

theorem addVisits_append (visits visits' : List (Visit app)) :
    addVisits {} (visits ++ visits') = (addVisits {} visits).join (addVisits {} visits') := by
  rw [join_addVisits, join_empty]
  exact List.foldl_append

theorem path_mem_of_contains_traces {visits : List (Visit app)}
    (distinct : (visits.map (·.file.path)).Nodup) {path : String}
    (traced : (addVisits {} visits).traces.contains path = true) :
    path ∈ visits.map (·.file.path) := by
  obtain ⟨trace, found⟩ := Option.isSome_iff_exists.mp traced
  obtain ⟨-, visit, member, same, -⟩ := ((Summarizes.nil.addVisits distinct).traces _ _).mp found
  exact List.mem_map.mpr ⟨visit, member, same⟩

end AnalysisReport

/-! ## Programs in two parts -/

namespace Program

def paths (program : Program) : List String :=
  program.files.map SourceFile.path

def append (program other : Program) : Program :=
  other.files.foldl add program

theorem files_foldl_add {program : Program} {files : List SourceFile}
    (distinct : (program.paths ++ files.map SourceFile.path).Nodup) :
    (files.foldl add program).files = program.files ++ files := by
  induction files generalizing program with
  | nil => exact (List.append_nil _).symm
  | cons file files ih =>
      have new : file.path ∉ program.files.map SourceFile.path := by
        intro member
        exact (List.nodup_append.mp distinct).2.2 _ member _ List.mem_cons_self rfl
      have added : (program.add file).files = program.files ++ [file] := by
        rw [add, dif_neg new]
      rw [List.foldl_cons, ih]
      · rw [added, List.append_assoc, List.singleton_append]
      · simpa [paths, added] using distinct

theorem files_append {program other : Program} (disjoint : program.paths.Disjoint other.paths) :
    (program.append other).files = program.files ++ other.files := by
  apply files_foldl_add
  rw [List.nodup_append']
  exact ⟨program.distinct, other.distinct, disjoint⟩

end Program

def AnalysisReport.MadeUpOf (report first second : AnalysisReport) : Prop :=
  report = first.join second ∧
    ∀ path, first.traces.contains path = true → second.traces.contains path = false

theorem AnalysisReport.addVisits_append_madeUpOf {program other : Program}
    (disjoint : program.paths.Disjoint other.paths) {visits visits' : List (Visit app)}
    (before : visits.map Visit.file = program.files)
    (after : visits'.map Visit.file = other.files) :
    (addVisits {} (visits ++ visits')).MadeUpOf (addVisits {} visits) (addVisits {} visits') := by
  have paths : visits.map (·.file.path) = program.paths := by
    rw [Program.paths, ← before, List.map_map]
    rfl
  have paths' : visits'.map (·.file.path) = other.paths := by
    rw [Program.paths, ← after, List.map_map]
    rfl
  refine ⟨addVisits_append visits visits', ?_⟩
  intro path traced
  by_contra traced'
  rw [Bool.not_eq_false] at traced'
  have here := path_mem_of_contains_traces (paths ▸ program.distinct) traced
  have there := path_mem_of_contains_traces (paths' ▸ other.distinct) traced'
  rw [paths] at here
  rw [paths'] at there
  exact disjoint here there

theorem Session.analyzes_append_iff {session : Session app} {check : Check app}
    {world left : Host.World app.World} {report : AnalysisReport}
    (patient : session.config.failFast = false)
    (blind : check.ContextBlind session.procedures fun _ => True)
    (unread : session.ProgramUnread check) {program other : Program}
    (disjoint : program.paths.Disjoint other.paths) :
    (session.withProgram (program.append other)).Analyzes check world report left ↔
      ∃ first middle second, report.MadeUpOf first second ∧
        (session.withProgram program).Analyzes check world first middle ∧
        (session.withProgram other).Analyzes check middle second left := by
  simp only [analyzes_withProgram_iff patient, Program.files_append disjoint]
  constructor
  · rintro ⟨visits, files, visited, rfl⟩
    obtain ⟨visits, visits', rfl, before, after⟩ := List.map_eq_append_iff.mp files
    obtain ⟨middle, first, second⟩ := visits_append.mp visited
    exact ⟨_, middle, _, AnalysisReport.addVisits_append_madeUpOf disjoint before after,
      ⟨visits, before, first.withProgram blind unread program, rfl⟩,
      ⟨visits', after, second.withProgram blind unread other, rfl⟩⟩
  · rintro ⟨_, middle, _, madeUp, ⟨visits, before, first, rfl⟩, ⟨visits', after, second, rfl⟩⟩
    refine ⟨visits ++ visits', ?_, ?_, ?_⟩
    · rw [List.map_append, before, after]
    · exact visits_append.mpr
        ⟨middle, first.withProgram blind unread _, second.withProgram blind unread _⟩
    · rw [AnalysisReport.addVisits_append]
      exact madeUp.1.symm

/-- Analysing the files of two programs is analysing the one and then the other.  If runs over
different files do not meet in the world, the two analyses are independent. -/
theorem analysis_shards {session : Session app} {check : Check app}
    (patient : session.config.failFast = false)
    (blind : check.ContextBlind session.procedures fun _ => True)
    (unread : session.ProgramUnread check) {program other : Program}
    (disjoint : program.paths.Disjoint other.paths) :
    (program.append other).files = program.files ++ other.files ∧
    (∀ world left report,
      (session.withProgram (program.append other)).Analyzes check world report left ↔
        ∃ first middle second, report.MadeUpOf first second ∧
          (session.withProgram program).Analyzes check world first middle ∧
          (session.withProgram other).Analyzes check middle second left) ∧
    (session.Isolated check → ∀ world start start' report,
      (∃ left, (session.withProgram (program.append other)).Analyzes check world report left) ↔
        ∃ first second, report.MadeUpOf first second ∧
          (∃ left, (session.withProgram program).Analyzes check start first left) ∧
          ∃ left, (session.withProgram other).Analyzes check start' second left) := by
  refine ⟨Program.files_append disjoint,
    fun _ _ _ => Session.analyzes_append_iff patient blind unread disjoint, ?_⟩
  intro isolated world start start' report
  simp only [Session.analyzes_append_iff patient blind unread disjoint]
  constructor
  · rintro ⟨left, first, middle, second, madeUp, before, after⟩
    exact ⟨first, second, madeUp, isolated.analyzes patient before start,
      isolated.analyzes patient after start'⟩
  · rintro ⟨first, second, madeUp, ⟨_, before⟩, _, after⟩
    obtain ⟨middle, before'⟩ := isolated.analyzes patient before world
    obtain ⟨left, after'⟩ := isolated.analyzes patient after middle
    exact ⟨left, first, middle, second, madeUp, before', after'⟩

namespace Sample

def crosses : Check signature :=
  Host.patternCheck "crosses" "x" .warning "found"

def tracing : Session signature where
  config := { engine := .tracing }
  program := .empty
  procedures := ⟨nofun⟩

theorem crosses_contextBlind : crosses.ContextBlind tracing.procedures fun _ => True :=
  ⟨{ context := False, calls := fun _ => True }, id, rfl, nofun, trivial, fun _ => trivial⟩

def crossesReport (file : SourceFile) : RunReport CheckError (List Diagnostic) where
  exit := .ok (.ok ((file.findAll "x").map fun span =>
    ⟨file.path, span, .warning, "crosses", "found"⟩))
  suppressed := #[]
  stats := { steps := 1, capabilityRequests := 1 }
  trace := #[.capabilityResolved 0 "source_file"]
  dropped := 0

theorem crosses_records (program : Program) (file : SourceFile) (tracker : Host.TrackerRef)
    (world : Host.World (List String)) :
    ∃ history, requestedIds history = [2] ∧
      tracing.interpreter.Records crosses
        ((tracing.withProgram program).fileContext tracker file) world history
        (crossesReport file) world := by
  refine ⟨_, ?_, _, .drive (.andThenValue (.perform (.requestFound rfl)) .succeed)
    (.drained rfl), rfl, rfl⟩
  rfl

theorem crosses_programUnread : tracing.ProgramUnread crosses := by
  intro program world visit history visited records
  obtain ⟨history', ids, out', run', -⟩ :=
    crosses_records program visit.file visit.tracker visit.start
  obtain ⟨out, run, -⟩ := records
  obtain ⟨rfl, -⟩ := run.unique run'
  rw [ids]
  decide

theorem crosses_run {program : Program} {world : Host.World (List String)}
    {visit : Visit signature}
    (visited : (tracing.withProgram program).Visited crosses world visit) :
    visit.run = ⟨visit.file.path, crossesReport visit.file, []⟩ := by
  obtain ⟨history, records⟩ := Interpreter.completes_iff_records.mp visited.completes
  obtain ⟨history', ids, records'⟩ :=
    crosses_records program visit.file visit.tracker visit.start
  obtain ⟨report, finish⟩ := records.unique records'
  have success : visit.succeeded = true := by
    rw [Visit.succeeded, report]
    rfl
  simp only [Visit.run, success, if_true, Visit.recorded, report, finish, visited.empty]
  rfl

theorem crosses_isolated : tracing.Isolated crosses := by
  rintro program file run world world' ⟨fuel, left, ran⟩
  obtain ⟨visit, visited, rfl, rfl, -⟩ := Session.visited_of_runFile ran
  let visit' : Visit signature := ⟨visit.file, world'.newTracker.2, world'.newTracker.1,
    crossesReport visit.file, world'.newTracker.1⟩
  obtain ⟨history', -, records'⟩ :=
    crosses_records program visit'.file visit'.tracker visit'.start
  have visited' : (tracing.withProgram program).Visited crosses world' visit' := by
    refine ⟨rfl, ?_, Interpreter.completes_iff_records.mpr ⟨history', records'⟩⟩
    simp [visit', Host.World.newTracker, Host.World.tracker]
  obtain ⟨fuel', ran'⟩ := visited'.runFile.exists
  have same : visit'.run = visit.run := (crosses_run visited').trans (crosses_run visited).symm
  exact ⟨fuel', visit'.left, same ▸ ran'⟩

end Sample

theorem analysis_shards_crosses : ∃ report first second : AnalysisReport,
    report.diagnostics.length = 3 ∧ report.stats.steps = 2 ∧ report.MadeUpOf first second ∧
    (∃ left, (Sample.tracing.withProgram (.ofFiles [⟨"a", "xyx"⟩, ⟨"b", "yx"⟩])).Analyzes
      Sample.crosses { app := [] } report left) ∧
    (∃ left, (Sample.tracing.withProgram (.ofFiles [⟨"a", "xyx"⟩])).Analyzes
      Sample.crosses { app := [] } first left) ∧
    ∃ left, (Sample.tracing.withProgram (.ofFiles [⟨"b", "yx"⟩])).Analyzes
      Sample.crosses { app := [] } second left := by
  have disjoint : (Program.ofFiles [⟨"a", "xyx"⟩]).paths.Disjoint
      (Program.ofFiles [⟨"b", "yx"⟩]).paths := by
    simp [Program.paths, Program.ofFiles, Program.add, Program.empty]
  obtain ⟨-, -, independent⟩ := analysis_shards rfl Sample.crosses_contextBlind
    Sample.crosses_programUnread disjoint
  have analyzes : (Sample.tracing.withProgram (.ofFiles [⟨"a", "xyx"⟩, ⟨"b", "yx"⟩])).Analyzes
      Sample.crosses { app := [] } _ _ := ⟨9, rfl⟩
  obtain ⟨first, second, madeUp, before, after⟩ :=
    (independent Sample.crosses_isolated _ { app := [] } { app := [] } _).mp ⟨_, analyzes⟩
  exact ⟨_, first, second, rfl, rfl, madeUp, ⟨_, analyzes⟩, before, after⟩

end Sequencer
