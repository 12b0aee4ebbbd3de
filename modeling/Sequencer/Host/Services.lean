import Sequencer.Host.Capabilities
import Sequencer.Sequence.Combinators

/-!
# Services

Sequences over the host's capabilities.  Checks are written with these.
-/

namespace Sequencer.Host

variable {app : Signature} {E : Type}

def program : Sequence (signature app) E Program :=
  .service Key.program

def sourceFile : Sequence (signature app) E SourceFile :=
  .service Key.sourceFile

def option (name : String) : Sequence (signature app) E (Option String) :=
  (Sequence.service Key.options).map fun options : Options => options.get? name

def file (path : String) : Sequence (signature app) CheckError SourceFile :=
  .routine <| .service Key.program fun program : Program =>
    match program.file? path with
    | some file => .done file
    | none => .fail (.missingFile path)

def recordEdit (edit : TextEdit) : Sequence (signature app) CheckError Unit :=
  .routine <| .service Key.changeTracker fun tracker : TrackerRef =>
    .effect (fun world : World app.World => world.record tracker edit) fun
      | .ok () => .done ()
      | .error error => .fail error

def patternCheck (rule pattern : String) (severity : Severity) (message : String) :
    Sequence (signature app) E (List Diagnostic) :=
  sourceFile.map fun file =>
    (file.findAll pattern).map fun span => ⟨file.path, span, severity, rule, message⟩

def combine (checks : List (Sequence (signature app) E (List Diagnostic))) :
    Sequence (signature app) E (List Diagnostic) :=
  (Sequence.all checks).map List.flatten

end Sequencer.Host
