import Sequencer.Codec.ConfigFile
import Sequencer.Host.Config
import Sequencer.Host.Report
import Sequencer.Host.Services

/-!
# Sessions

A session runs one check over each file of a program.  Every file gets a run of its own,
with a fresh change tracker; with `failFast`, the first defect ends the analysis.  `analyze` is
the whole of the host in one step: it loads the configuration at a path and runs a check over a
program.
-/

namespace Sequencer

abbrev Check (app : Signature) :=
  Sequence (Host.signature app) CheckError (List Diagnostic)

structure Session (app : Signature) where
  config : HostConfig
  program : Program
  procedures : Procedures (Host.signature app)

namespace Session

variable {app : Signature}

def context (session : Session app) : Context (Host.signature app) :=
  (Context.empty.provide Host.Key.program session.program).provide Host.Key.options
    session.config.options

def interpreter (session : Session app) : Interpreter (Host.signature app) :=
  ⟨session.config.engine, session.procedures⟩

/-- Run the check over one file.  The tracker is emptied only after a success. -/
def runFile (session : Session app) (fuel : Nat) (check : Check app) (file : SourceFile)
    (world : Host.World app.World) : Except Stop (FileRun × Host.World app.World) :=
  let (world, tracker) := world.newTracker
  let context := (session.context.provide Host.Key.changeTracker tracker).provide
    Host.Key.sourceFile file
  match session.interpreter.run fuel check context world with
  | .error stop => .error stop
  | .ok (report, world) =>
      if report.isSuccess then
        let (world, edits) := Host.World.take world tracker
        .ok (⟨file.path, report, edits⟩, world)
      else
        .ok (⟨file.path, report, []⟩, world)

def analyzeFiles (session : Session app) (fuel : Nat) (check : Check app) :
    List SourceFile → AnalysisReport → Host.World app.World →
      Except Stop (AnalysisReport × Host.World app.World)
  | [], report, world => .ok (report, world)
  | file :: rest, report, world =>
      match session.runFile fuel check file world with
      | .error stop => .error stop
      | .ok (run, world) =>
          if session.config.failFast && run.isDefect then .ok (report.add run, world)
          else analyzeFiles session fuel check rest (report.add run) world

def analyze (session : Session app) (fuel : Nat) (check : Check app)
    (world : Host.World app.World) : Except Stop (AnalysisReport × Host.World app.World) :=
  session.analyzeFiles fuel check session.program.files {} world

end Session

/-! ## Analysis from a configuration file -/

structure SessionError where
  path : String
  cause : ConfigError

def SessionError.message (error : SessionError) : String :=
  s!"Failed to load host configuration: {error.path}"

variable {app : Signature}

def Session.ofConfigFile (tree : FileTree) (path : String) (program : Program)
    (procedures : Procedures (Host.signature app)) : Except SessionError (Session app) :=
  match HostConfig.load tree path with
  | .error cause => .error ⟨path, cause⟩
  | .ok config => .ok ⟨config, program, procedures⟩

/-- Load the configuration at `path` and run `check` over `program`.  The outer result is
about the configuration, the inner one about the runs. -/
def analyze (tree : FileTree) (path : String) (program : Program)
    (procedures : Procedures (Host.signature app)) (fuel : Nat) (check : Check app)
    (world : Host.World app.World) :
    Except SessionError (Except Stop (AnalysisReport × Host.World app.World)) :=
  match Session.ofConfigFile tree path program procedures with
  | .error error => .error error
  | .ok session => .ok (session.analyze fuel check world)

end Sequencer
