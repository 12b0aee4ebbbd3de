import Sequencer.ChangeTracker
import Sequencer.Json.Record
import Sequencer.Source.File

/-!
# Files, diagnostics and edits in JSON

Each is a record whose fields are all required; a severity is its bare name.
-/

namespace Sequencer

namespace Span

def toJson (span : Span) : Json :=
  .obj [("start", .nat span.start), ("end", .nat span.stop)]

def ofJson? (json : Json) : Option Span :=
  match json.slots? [⟨"start", .never⟩, ⟨"end", .never⟩] with
  | some [start, stop] => do
      return ⟨← Json.needed Json.toSize? start, ← Json.needed Json.toSize? stop⟩
  | _ => none

end Span

namespace SourceFile

def toJson (file : SourceFile) : Json :=
  .obj [("path", .str file.path), ("text", .str file.text)]

def ofJson? (json : Json) : Option SourceFile :=
  match json.slots? [⟨"path", .never⟩, ⟨"text", .never⟩] with
  | some [path, text] => do
      return ⟨← Json.needed Json.toText? path, ← Json.needed Json.toText? text⟩
  | _ => none

end SourceFile

namespace Severity

def ofName? : String → Option Severity
  | "error" => some .error
  | "warning" => some .warning
  | "info" => some .info
  | _ => none

def toJson (severity : Severity) : Json :=
  .str severity.name

def ofJson? (json : Json) : Option Severity :=
  json.toName?.bind ofName?

end Severity

namespace Diagnostic

def toJson (diagnostic : Diagnostic) : Json :=
  .obj [("file", .str diagnostic.file), ("span", diagnostic.span.toJson),
    ("severity", diagnostic.severity.toJson), ("rule", .str diagnostic.rule),
    ("message", .str diagnostic.message)]

def fields : List Json.Field :=
  [⟨"file", .never⟩, ⟨"span", .never⟩, ⟨"severity", .never⟩, ⟨"rule", .never⟩,
    ⟨"message", .never⟩]

def ofJson? (json : Json) : Option Diagnostic :=
  match json.slots? fields with
  | some [file, span, severity, rule, message] => do
      return {
        file := ← Json.needed Json.toText? file
        span := ← Json.needed Span.ofJson? span
        severity := ← Json.needed Severity.ofJson? severity
        rule := ← Json.needed Json.toText? rule
        message := ← Json.needed Json.toText? message }
  | _ => none

end Diagnostic

namespace TextEdit

def toJson (edit : TextEdit) : Json :=
  .obj [("file", .str edit.file), ("span", edit.span.toJson),
    ("replacement", .str edit.replacement)]

def ofJson? (json : Json) : Option TextEdit :=
  match json.slots? [⟨"file", .never⟩, ⟨"span", .never⟩, ⟨"replacement", .never⟩] with
  | some [file, span, replacement] => do
      return {
        file := ← Json.needed Json.toText? file
        span := ← Json.needed Span.ofJson? span
        replacement := ← Json.needed Json.toText? replacement }
  | _ => none

end TextEdit

end Sequencer
