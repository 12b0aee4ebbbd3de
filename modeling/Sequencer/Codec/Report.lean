import Sequencer.Codec.Diagnostic
import Sequencer.Codec.Trace
import Sequencer.Host.Report
import Sequencer.Json.Printer
import Sequencer.Json.Reader

/-!
# Reports in JSON

The traces of a report are left out when there are none.  `AnalysisReport.render` is the
text a report is stored as, and `AnalysisReport.parse?` reads it back.
-/

namespace Sequencer

namespace FileFailure

def toJson (failure : FileFailure) : Json :=
  .obj [("file", .str failure.file), ("message", .str failure.message)]

def ofJson? (json : Json) : Option FileFailure :=
  match json.slots? [⟨"file", .never⟩, ⟨"message", .never⟩] with
  | some [file, message] => do
      return ⟨← Json.needed Json.toText? file, ← Json.needed Json.toText? message⟩
  | _ => none

end FileFailure

namespace FileDefect

def toJson (defect : FileDefect) : Json :=
  .obj [("file", .str defect.file), ("capability", Json.ofOption .str defect.capability),
    ("message", .str defect.message)]

def ofJson? (json : Json) : Option FileDefect :=
  match json.slots? [⟨"file", .never⟩, ⟨"capability", .inObject⟩, ⟨"message", .never⟩] with
  | some [file, capability, message] => do
      return {
        file := ← Json.needed Json.toText? file
        capability := ← Json.nullable Json.toText? capability
        message := ← Json.needed Json.toText? message }
  | _ => none

end FileDefect

namespace AnalysisReport

def toJson (report : AnalysisReport) : Json :=
  .obj ([("files_analyzed", .nat report.filesAnalyzed),
    ("diagnostics", Json.ofList Diagnostic.toJson report.diagnostics),
    ("failures", Json.ofList FileFailure.toJson report.failures),
    ("defects", Json.ofList FileDefect.toJson report.defects),
    ("suppressed", Json.ofList FileFailure.toJson report.suppressed),
    ("edits", Json.ofList TextEdit.toJson report.edits),
    ("stats", report.stats.toJson)] ++
    if report.traces.isEmpty then []
    else [("traces", Json.ofMap (Json.ofList TraceEvent.toJson) report.traces)])

def fields : List Json.Field :=
  [⟨"files_analyzed", .never⟩, ⟨"diagnostics", .never⟩, ⟨"failures", .never⟩,
    ⟨"defects", .never⟩, ⟨"suppressed", .never⟩, ⟨"edits", .never⟩, ⟨"stats", .never⟩,
    ⟨"traces", .always⟩]

/-- Events stand inside the report, its map of traces and a list. -/
def eventDepth : Nat := 3

def ofJson? (json : Json) : Option AnalysisReport :=
  match json.slots? fields with
  | some [files, diagnostics, failures, defects, suppressed, edits, stats, traces] => do
      return {
        filesAnalyzed := ← Json.needed Json.toSize? files
        diagnostics := ← Json.needed (Json.toList? Diagnostic.ofJson?) diagnostics
        failures := ← Json.needed (Json.toList? FileFailure.ofJson?) failures
        defects := ← Json.needed (Json.toList? FileDefect.ofJson?) defects
        suppressed := ← Json.needed (Json.toList? FileFailure.ofJson?) suppressed
        edits := ← Json.needed (Json.toList? TextEdit.ofJson?) edits
        stats := ← Json.needed RunStats.ofJson? stats
        traces := ← Json.orDefault .empty
          (Json.toMap? (Json.toList? (TraceEvent.ofJson? eventDepth))) traces }
  | _ => none

def render (report : AnalysisReport) : String :=
  report.toJson.pretty

def parse? (text : String) : Option AnalysisReport :=
  (Json.read text).bind ofJson?

end AnalysisReport

end Sequencer
