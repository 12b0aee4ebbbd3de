import Sequencer.Host.Config
import Sequencer.Json.Record

/-!
# Configurations in JSON

Every setting has a default, so any part of a configuration may be left out.
-/

namespace Sequencer

namespace EngineConfig

def toJson (config : EngineConfig) : Json :=
  .obj [("record_trace", .bool config.recordTrace), ("trace_capacity", .nat config.traceCapacity)]

def fields : List Json.Field :=
  [⟨"record_trace", .always⟩, ⟨"trace_capacity", .always⟩]

def ofJson? (json : Json) : Option EngineConfig :=
  match json.slots? fields with
  | some [record, capacity] => do
      return {
        recordTrace := ← Json.orDefault false Json.toBool? record
        traceCapacity := ← Json.orDefault defaultCapacity Json.toSize? capacity }
  | _ => none

end EngineConfig

namespace HostConfig

def toJson (config : HostConfig) : Json :=
  .obj [("verbose", .bool config.verbose), ("fail_fast", .bool config.failFast),
    ("engine", config.engine.toJson), ("options", Json.ofMap .str config.options)]

def fields : List Json.Field :=
  [⟨"verbose", .always⟩, ⟨"fail_fast", .always⟩, ⟨"engine", .always⟩, ⟨"options", .always⟩]

def ofJson? (json : Json) : Option HostConfig :=
  match json.slots? fields with
  | some [verbose, failFast, engine, options] => do
      return {
        verbose := ← Json.orDefault false Json.toBool? verbose
        failFast := ← Json.orDefault false Json.toBool? failFast
        engine := ← Json.orDefault {} EngineConfig.ofJson? engine
        options := ← Json.orDefault .empty (Json.toMap? Json.toText?) options }
  | _ => none

end HostConfig

end Sequencer
