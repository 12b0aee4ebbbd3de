import Sequencer.ChangeTracker
import Sequencer.Interpreter
import Sequencer.SortedMap

/-!
# Analysis reports

What an analysis found, file by file.  A file's edits and diagnostics count only when its
check succeeded.
-/

namespace Sequencer

structure FileFailure where
  file : String
  message : String
  deriving DecidableEq

structure FileDefect where
  file : String
  capability : Option String
  message : String
  deriving DecidableEq

structure AnalysisReport where
  filesAnalyzed : Nat := 0
  diagnostics : List Diagnostic := []
  failures : List FileFailure := []
  defects : List FileDefect := []
  suppressed : List FileFailure := []
  edits : List TextEdit := []
  stats : RunStats := {}
  traces : SortedMap String (List TraceEvent) := .empty
  deriving DecidableEq

/-- The run of a check over one file, and the edits its tracker then held. -/
structure FileRun where
  path : String
  report : RunReport CheckError (List Diagnostic)
  edits : List TextEdit

namespace FileRun

def isDefect (run : FileRun) : Bool :=
  match run.report.exit with
  | .error _ => true
  | .ok _ => false

end FileRun

namespace AnalysisReport

def errorCount (report : AnalysisReport) : Nat :=
  report.diagnostics.countP fun diagnostic => diagnostic.severity = .error

def isClean (report : AnalysisReport) : Bool :=
  report.errorCount == 0 && report.failures.isEmpty && report.defects.isEmpty

def count (report : AnalysisReport) (run : FileRun) : AnalysisReport :=
  { report with
    filesAnalyzed := report.filesAnalyzed + 1
    stats := report.stats.combine run.report.stats
    traces :=
      if run.report.trace.isEmpty then report.traces
      else report.traces.insert run.path run.report.trace.toList
    suppressed :=
      report.suppressed ++ run.report.suppressed.toList.map fun error => ⟨run.path, error.message⟩ }

def add (report : AnalysisReport) (run : FileRun) : AnalysisReport :=
  let report := report.count run
  match run.report.exit with
  | .ok (.ok diagnostics) =>
      { report with
        diagnostics := report.diagnostics ++ diagnostics
        edits := report.edits ++ run.edits }
  | .ok (.err error) =>
      { report with failures := report.failures ++ [⟨run.path, error.message⟩] }
  | .error defect =>
      { report with
        defects := report.defects ++ [⟨run.path, defect.capabilityName?, defect.message⟩] }

end AnalysisReport

end Sequencer
