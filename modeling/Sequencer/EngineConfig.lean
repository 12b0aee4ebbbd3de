/-!
# Engine configuration

Whether a run keeps its trace, and how many events it keeps.  Merging only ever switches
recording on; a capacity overrides when it is not the default one.
-/

namespace Sequencer

structure EngineConfig where
  recordTrace : Bool := false
  traceCapacity : Nat := 1024
  deriving DecidableEq, Inhabited

structure EngineConfigError where
  field : String
  reason : String
  deriving DecidableEq

def EngineConfigError.message (error : EngineConfigError) : String :=
  s!"Invalid engine configuration for {error.field}: {error.reason}"

namespace EngineConfig

def defaultCapacity : Nat := ({} : EngineConfig).traceCapacity

def tracing : EngineConfig := { recordTrace := true }

def validate (config : EngineConfig) : Except EngineConfigError Unit :=
  if config.recordTrace && config.traceCapacity == 0 then
    .error ⟨"trace_capacity", "Trace capacity must be positive when traces are recorded"⟩
  else
    .ok ()

def merge (config other : EngineConfig) : EngineConfig where
  recordTrace := config.recordTrace || other.recordTrace
  traceCapacity :=
    if other.traceCapacity = defaultCapacity then config.traceCapacity else other.traceCapacity

end EngineConfig

end Sequencer
