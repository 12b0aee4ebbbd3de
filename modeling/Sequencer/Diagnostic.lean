import Sequencer.Source.File

/-!
# Diagnostics and check failures

What a check reports about a file, and the ways a check itself can fail.
-/

namespace Sequencer

/-- From the most to the least serious. -/
inductive Severity where
  | error
  | warning
  | info
  deriving DecidableEq, Inhabited

namespace Severity

def name : Severity → String
  | error => "error"
  | warning => "warning"
  | info => "info"

def rank : Severity → Nat
  | error => 0
  | warning => 1
  | info => 2

def before (severity other : Severity) : Bool :=
  severity.rank < other.rank

end Severity

structure Diagnostic where
  file : String
  span : Span
  severity : Severity
  rule : String
  message : String
  deriving DecidableEq, Inhabited

namespace Diagnostic

def error (file : String) (span : Span) (rule message : String) : Diagnostic :=
  ⟨file, span, .error, rule, message⟩

def warning (file : String) (span : Span) (rule message : String) : Diagnostic :=
  ⟨file, span, .warning, rule, message⟩

end Diagnostic

inductive CheckError where
  | rule (rule reason : String)
  | missingFile (path : String)
  | edit (reason : String)
  deriving DecidableEq

def CheckError.message : CheckError → String
  | .rule name reason => s!"Rule {name} failed: {reason}"
  | .missingFile path => s!"Source file not found: {path}"
  | .edit reason => s!"Edit rejected: {reason}"

end Sequencer
