import Sequencer.EngineConfig
import Sequencer.Host.Capabilities
import Sequencer.Text.Characters

/-!
# Host configuration

The settings of an analysis.  Merging lets the options of the overriding configuration win
and only ever switches flags on.  A configuration is valid when the engine's part is and no
option has a blank name.
-/

namespace Sequencer

structure HostConfig where
  verbose : Bool := false
  failFast : Bool := false
  engine : EngineConfig := {}
  options : Host.Options := .empty
  deriving DecidableEq, Inhabited

inductive ConfigError where
  | io (path : String)
  | parse (path : String)
  | serialize
  | blankOption (name : String)
  | engine (error : EngineConfigError)
  deriving DecidableEq

namespace ConfigError

def field? : ConfigError → Option String
  | .blankOption _ => some "options"
  | .engine error => some error.field
  | _ => none

/-- What this library says about the error.  After a colon at the end, the system's or the
format's own words may follow. -/
def message : ConfigError → String
  | .io path => s!"I/O error for {Text.quote path}: "
  | .parse path => s!"Parse error for {Text.quote path}: "
  | .serialize => "Serialization error: "
  | .blankOption name =>
      s!"Invalid configuration for options: Option names must not be blank, found {Text.quote name}"
  | .engine error => error.message

end ConfigError

namespace HostConfig

def blankOption? (config : HostConfig) : Option String :=
  config.options.keys.find? Text.isBlank

def validate (config : HostConfig) : Except ConfigError Unit :=
  match config.engine.validate with
  | .error error => .error (.engine error)
  | .ok () =>
      match config.blankOption? with
      | some name => .error (.blankOption name)
      | none => .ok ()

def merge (config other : HostConfig) : HostConfig where
  verbose := config.verbose || other.verbose
  failFast := config.failFast || other.failFast
  engine := config.engine.merge other.engine
  options := config.options.union other.options

def option? (config : HostConfig) (name : String) : Option String :=
  config.options.get? name

end HostConfig

end Sequencer
