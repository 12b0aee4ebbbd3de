import Sequencer.Proofs.Isolation
import Sequencer.Proofs.Sharding
import Mathlib.Data.Finset.Card
import Mathlib.Data.List.Induction

/-!
# Programs as maps

A program that files are added to, one after another, is a map from paths to files: the last file of
a path counts, and it stands where the path came first.  A check that asks for a file by its path is
given what the map has.
-/

namespace Sequencer

variable {app : Signature}

namespace Program

def last? (path : String) (added : List SourceFile) : Option SourceFile :=
  (added.filter (·.path = path)).getLast?

theorem last?_concat (path : String) (added : List SourceFile) (file : SourceFile) :
    last? path (added ++ [file]) = if file.path = path then some file else last? path added := by
  by_cases same : file.path = path <;> simp [last?, same]

theorem isSome_last?_iff {path : String} {added : List SourceFile} :
    (last? path added).isSome = true ↔ path ∈ added.map SourceFile.path := by
  simp [last?]

theorem paths_add (program : Program) (file : SourceFile) :
    (program.add file).paths =
      if file.path ∈ program.paths then program.paths else program.paths ++ [file.path] := by
  unfold add paths
  split
  · exact paths_replace file program.files
  · exact List.map_append

theorem mem_files_add {program : Program} {file other : SourceFile} :
    other ∈ (program.add file).files ↔
      other = file ∨ other ∈ program.files ∧ other.path ≠ file.path := by
  unfold add
  split
  · next present =>
      obtain ⟨old, member, same⟩ := List.mem_map.mp present
      simp only [replace, List.mem_map]
      constructor
      · rintro ⟨existing, kept, rfl⟩
        by_cases replaced : existing.path = file.path
        · exact .inl (if_pos replaced)
        · rw [if_neg replaced]
          exact .inr ⟨kept, replaced⟩
      · rintro (rfl | ⟨kept, differs⟩)
        · exact ⟨old, member, if_pos same⟩
        · exact ⟨other, kept, if_neg differs⟩
  · next absent =>
      have differs : ∀ kept ∈ program.files, kept.path ≠ file.path :=
        fun kept member same => absent (List.mem_map.mpr ⟨kept, member, same⟩)
      rw [List.mem_append, List.mem_singleton, or_comm]
      exact or_congr_right ⟨fun kept => ⟨kept, differs other kept⟩, And.left⟩

theorem file?_eq_some_iff {program : Program} {path : String} {file : SourceFile} :
    program.file? path = some file ↔ file ∈ program.files ∧ file.path = path := by
  constructor
  · intro found
    have same := List.find?_some found
    exact ⟨List.mem_of_find?_eq_some found, beq_iff_eq.mp same⟩
  · rintro ⟨member, rfl⟩
    cases found : program.file? file.path with
    | none => simpa using List.find?_eq_none.mp found file member
    | some other =>
        have same := List.find?_some found
        rw [List.inj_on_of_nodup_map program.distinct (List.mem_of_find?_eq_some found) member
          (beq_iff_eq.mp same)]

theorem file?_add (program : Program) (file : SourceFile) (path : String) :
    (program.add file).file? path =
      if file.path = path then some file else program.file? path := by
  apply Option.ext
  intro other
  rw [file?_eq_some_iff, mem_files_add]
  split
  · next same =>
      subst same
      constructor
      · rintro ⟨rfl | ⟨-, differs⟩, same⟩
        · rfl
        · exact absurd same differs
      · rintro ⟨⟩
        exact ⟨.inl rfl, rfl⟩
  · next differs =>
      rw [file?_eq_some_iff]
      constructor
      · rintro ⟨rfl | ⟨kept, -⟩, same⟩
        · exact absurd same differs
        · exact ⟨kept, same⟩
      · rintro ⟨kept, rfl⟩
        exact ⟨.inr ⟨kept, Ne.symm differs⟩, rfl⟩

structure Holds (program : Program) (added : List SourceFile) : Prop where
  paths : program.paths = (added.map SourceFile.path).eraseDups
  file? : ∀ path, program.file? path = last? path added

theorem eraseDups_concat (paths : List String) (path : String) :
    (paths ++ [path]).eraseDups =
      if path ∈ paths then paths.eraseDups else paths.eraseDups ++ [path] := by
  by_cases present : path ∈ paths <;>
    simp [List.eraseDups_append, List.eraseDups_cons, List.removeAll, present]

theorem Holds.snoc {program : Program} {added : List SourceFile} (holds : program.Holds added)
    (file : SourceFile) : (program.add file).Holds (added ++ [file]) where
  paths := by
    rw [paths_add, List.map_append, List.map_singleton, eraseDups_concat, holds.paths]
    simp only [List.mem_eraseDups]
  file? path := by rw [file?_add, last?_concat, holds.file?]

theorem holds_ofFiles (added : List SourceFile) : (ofFiles added).Holds added := by
  induction added using List.reverseRecOn with
  | nil => exact ⟨rfl, fun _ => rfl⟩
  | append_singleton added file ih =>
      rw [ofFiles, List.foldl_append]
      exact ih.snoc file

theorem Holds.size_eq {program : Program} {added : List SourceFile} (holds : program.Holds added) :
    program.size = (added.map SourceFile.path).toFinset.card := by
  have same : program.paths.toFinset = (added.map SourceFile.path).toFinset := by
    ext path
    simp only [holds.paths, List.mem_toFinset, List.mem_eraseDups]
  have distinct : program.paths.Nodup := program.distinct
  rw [← same, List.toFinset_card_of_nodup distinct, Program.paths, List.length_map, size]

def fetch (program : Program) (path : String) : Settled CheckError SourceFile :=
  match program.file? path with
  | some file => .ok file
  | none => .error (.failed (.missingFile path))

theorem Holds.fetch_eq_ok_iff {program : Program} {added : List SourceFile}
    (holds : program.Holds added) {path : String} {file : SourceFile} :
    program.fetch path = .ok file ↔ last? path added = some file := by
  rw [fetch, holds.file?]
  cases last? path added <;> simp

theorem Holds.fetch_eq_missing_iff {program : Program} {added : List SourceFile}
    (holds : program.Holds added) {path : String} :
    program.fetch path = .error (.failed (.missingFile path)) ↔
      path ∉ added.map SourceFile.path := by
  rw [fetch, holds.file?, ← isSome_last?_iff]
  cases last? path added <;> simp

end Program

/-! ## Asking for a file -/

section Runs

variable {procedures : Procedures (Host.signature app)} {program : Program}
  {frame : Frame (Host.signature app) CheckError}

theorem Runs.fetched (path : String) (state : RunState (Host.signature app)) :
    ∃ history journal,
      Runs procedures (.play (match program.file? path with
          | some file => .done file
          | none => .fail (.missingFile path))) frame state history
        ⟨program.fetch path, frame, ⟨journal, state.world⟩⟩ := by
  unfold Program.fetch
  cases program.file? path with
  | some file => exact ⟨[], state.journal, .done⟩
  | none => exact ⟨_, _, Runs.routine_fail_iff.mpr (.perform .fail)⟩

theorem Runs.file (found : frame.context.lookup Host.Key.program = .found program) (path : String)
    (state : RunState (Host.signature app)) :
    ∃ history journal, Runs procedures (.evaluate (Host.file path)) frame state history
      ⟨program.fetch path, frame, ⟨journal, state.world⟩⟩ := by
  obtain ⟨history, journal, fetched⟩ := @Runs.fetched app procedures program frame path _
  exact ⟨_, journal, .routine (.performValue (.requestFound found) fetched)⟩

end Runs

theorem Settled.exit_eq_value_iff {E A : Type} {settled : Settled E A} {value : A} :
    settled.exit .ok .err = .ok (.ok value : Outcome E A) ↔ settled = .ok value := by
  rcases settled with (error | defect) | found <;> simp [exit]

theorem Settled.exit_eq_failure_iff {E A : Type} {settled : Settled E A} {error : E} :
    settled.exit .ok .err = .ok (.err error : Outcome E A) ↔ settled = .error (.failed error) := by
  rcases settled with (error | defect) | found <;> simp [exit]

theorem Session.completes_file (session : Session app) (tracker : Host.TrackerRef)
    (current : SourceFile) (world : Host.World app.World) (path : String) :
    ∃ report, session.interpreter.Completes (Host.file path) (session.fileContext tracker current)
        world report world ∧
      report.exit = (session.program.fetch path).exit .ok .err := by
  obtain ⟨history, journal, run⟩ := @Runs.file app session.procedures session.program
    { context := session.fileContext tracker current, depth := 0 } rfl path
    ⟨Journal.reach { config := session.interpreter.config } 0, world⟩
  have driven : Runs session.procedures (.drive (Host.file path)) _
      ⟨{ config := session.interpreter.config }, world⟩ _ _ := .drive run (.drained rfl)
  exact ⟨_, Interpreter.completes_iff_records.mpr ⟨_, _, driven, rfl, rfl⟩, rfl⟩

/-- Files that are added one after another make a map: paths stand in the order in which they came
first, each with the file that came last.  A check can ask for a file by its path anywhere where the
program is the one provided, and is given the file or fails. -/
theorem programs_map_paths_to_files (added : List SourceFile) :
    (Program.ofFiles added).paths.Nodup ∧
    (Program.ofFiles added).paths = (added.map SourceFile.path).eraseDups ∧
    (∀ file, file ∈ (Program.ofFiles added).files ↔
      Program.last? file.path added = some file) ∧
    (∀ path, (Program.ofFiles added).file? path = Program.last? path added ∧
      ((Program.last? path added).isSome = true ↔ path ∈ added.map SourceFile.path)) ∧
    (Program.ofFiles added).size = (added.map SourceFile.path).toFinset.card ∧
    (∀ (procedures : Procedures (Host.signature app))
      (frame : Frame (Host.signature app) CheckError)
      (state : RunState (Host.signature app)) (path : String),
      frame.context.lookup Host.Key.program = .found (Program.ofFiles added) →
      ∃ settled state', (Host.file path).Evaluates procedures frame state ⟨settled, frame, state'⟩ ∧
        state'.world = state.world ∧
        (∀ file, settled = .ok file ↔ Program.last? path added = some file) ∧
        (settled = .error (.failed (.missingFile path)) ↔ path ∉ added.map SourceFile.path)) ∧
    ∀ (session : Session app) (tracker : Host.TrackerRef) (current : SourceFile)
      (world : Host.World app.World) (path : String), session.program = .ofFiles added →
      ∃ report, session.interpreter.Completes (Host.file path)
          (session.fileContext tracker current) world report world ∧
        (∀ file, report.exit = .ok (.ok file) ↔ Program.last? path added = some file) ∧
        (report.exit = .ok (.err (.missingFile path)) ↔ path ∉ added.map SourceFile.path) := by
  have holds := Program.holds_ofFiles added
  refine ⟨(Program.ofFiles added).distinct, holds.paths, fun file => ?_,
    fun path => ⟨holds.file? path, Program.isSome_last?_iff⟩, holds.size_eq, ?_, ?_⟩
  · rw [← holds.file?, Program.file?_eq_some_iff]
    exact (and_iff_left rfl).symm
  · intro procedures frame state path found
    obtain ⟨history, journal, run⟩ := @Runs.file app procedures _ _ found path state
    exact ⟨_, _, eval_iff_runs.mpr ⟨history, run⟩, rfl, fun _ => holds.fetch_eq_ok_iff,
      holds.fetch_eq_missing_iff⟩
  · intro session tracker current world path made
    obtain ⟨report, completes, exit⟩ := session.completes_file tracker current world path
    rw [made] at exit
    refine ⟨report, completes, fun file => ?_, ?_⟩
    · rw [exit, Settled.exit_eq_value_iff, holds.fetch_eq_ok_iff]
    · rw [exit, Settled.exit_eq_failure_iff, holds.fetch_eq_missing_iff]

namespace Sample

def revised : List SourceFile :=
  [⟨"a", "old"⟩, ⟨"b", "x"⟩, ⟨"a", "new"⟩]

def reading : Session signature where
  config := {}
  program := .ofFiles revised
  procedures := ⟨nofun⟩

end Sample

theorem programs_map_paths_to_files_revised :
    (Program.ofFiles Sample.revised).files = [⟨"a", "new"⟩, ⟨"b", "x"⟩] ∧
    (Program.ofFiles Sample.revised).size = 2 ∧
    (∃ state', (Host.file "b").Evaluates Sample.reading.procedures
      { context := Sample.reading.context, depth := 2 } ⟨{ config := {} }, { app := [] }⟩
      ⟨.ok ⟨"b", "x"⟩, { context := Sample.reading.context, depth := 2 }, state'⟩) ∧
    (∃ report, Sample.reading.interpreter.Completes (Host.file "a")
        (Sample.reading.fileContext ⟨0⟩ ⟨"b", "x"⟩) { app := [] } report { app := [] } ∧
      report.exit = .ok (.ok ⟨"a", "new"⟩)) ∧
    ∃ report, Sample.reading.interpreter.Completes (Host.file "c")
        (Sample.reading.fileContext ⟨0⟩ ⟨"b", "x"⟩) { app := [] } report { app := [] } ∧
      report.exit = .ok (.err (.missingFile "c")) := by
  obtain ⟨-, -, -, -, size, frames, sessions⟩ :=
    @programs_map_paths_to_files Sample.signature Sample.revised
  obtain ⟨settled, state', evaluates, -, given, -⟩ := frames Sample.reading.procedures
    { context := Sample.reading.context, depth := 2 } ⟨{ config := {} }, { app := [] }⟩ "b" rfl
  obtain rfl := (given ⟨"b", "x"⟩).mpr (by decide)
  obtain ⟨report, completes, found, -⟩ :=
    sessions Sample.reading ⟨0⟩ ⟨"b", "x"⟩ { app := [] } "a" rfl
  obtain ⟨report', completes', -, missing⟩ :=
    sessions Sample.reading ⟨0⟩ ⟨"b", "x"⟩ { app := [] } "c" rfl
  refine ⟨by decide, size.trans (by decide), ⟨state', evaluates⟩,
    ⟨report, completes, (found _).mpr (by decide)⟩, report', completes', missing.mpr (by decide)⟩

end Sequencer
