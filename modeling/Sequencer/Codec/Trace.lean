import Sequencer.Json.Record
import Sequencer.Trace

/-!
# Traces and statistics in JSON

An event is a record tagged by the name of its kind.  A reader has to keep all of an event
until it has met the tag, so nothing in it may be unreadable, and it may not be nested
beyond what a reader keeps.
-/

namespace Sequencer

def StepKind.name : StepKind → String
  | requestCapability => "RequestCapability"
  | fail => "Fail"
  | runNested => "RunNested"
  | finalize => "Finalize"

def StepKind.ofName? : String → Option StepKind
  | "RequestCapability" => some .requestCapability
  | "Fail" => some .fail
  | "RunNested" => some .runNested
  | "Finalize" => some .finalize
  | _ => none

def StepKind.toJson (kind : StepKind) : Json :=
  .str kind.name

def StepKind.ofJson? (json : Json) : Option StepKind :=
  json.toName?.bind ofName?

namespace TraceEvent

def toJson : TraceEvent → Json
  | capabilityResolved depth name =>
      .obj [("event", .str "capability_resolved"), ("depth", .nat depth), ("name", .str name)]
  | capabilityUnresolved depth name =>
      .obj [("event", .str "capability_unresolved"), ("depth", .nat depth), ("name", .str name)]
  | failed depth => .obj [("event", .str "failed"), ("depth", .nat depth)]
  | nestedEntered depth => .obj [("event", .str "nested_entered"), ("depth", .nat depth)]
  | nestedExited depth ok =>
      .obj [("event", .str "nested_exited"), ("depth", .nat depth), ("ok", .bool ok)]
  | finalizerRegistered depth =>
      .obj [("event", .str "finalizer_registered"), ("depth", .nat depth)]
  | finalizerRan depth => .obj [("event", .str "finalizer_ran"), ("depth", .nat depth)]
  | finalizerSuppressed depth =>
      .obj [("event", .str "finalizer_suppressed"), ("depth", .nat depth)]

def depthOnly? (make : Nat → TraceEvent) (rest : Json) : Option TraceEvent :=
  match rest.slots? [⟨"depth", .never⟩] with
  | some [depth] => (Json.needed Json.toSize? depth).map make
  | _ => none

def withName? (make : Nat → String → TraceEvent) (rest : Json) : Option TraceEvent :=
  match rest.slots? [⟨"depth", .never⟩, ⟨"name", .never⟩] with
  | some [depth, name] => do
      return make (← Json.needed Json.toSize? depth) (← Json.needed Json.toText? name)
  | _ => none

def withOk? (make : Nat → Bool → TraceEvent) (rest : Json) : Option TraceEvent :=
  match rest.slots? [⟨"depth", .never⟩, ⟨"ok", .never⟩] with
  | some [depth, ok] => do
      return make (← Json.needed Json.toSize? depth) (← Json.needed Json.toBool? ok)
  | _ => none

def ofTagged? (tag : String) (rest : Json) : Option TraceEvent :=
  match tag with
  | "capability_resolved" => withName? .capabilityResolved rest
  | "capability_unresolved" => withName? .capabilityUnresolved rest
  | "failed" => depthOnly? .failed rest
  | "nested_entered" => depthOnly? .nestedEntered rest
  | "nested_exited" => withOk? .nestedExited rest
  | "finalizer_registered" => depthOnly? .finalizerRegistered rest
  | "finalizer_ran" => depthOnly? .finalizerRan rest
  | "finalizer_suppressed" => depthOnly? .finalizerSuppressed rest
  | _ => none

/-- How deep a value may be nested that a reader has to keep. -/
def maxKeptDepth : Nat := 127

/-- Read an event that stands `outer` levels deep in a text. -/
def ofJson? (outer : Nat) (json : Json) : Option TraceEvent :=
  if json.isReadable && outer + json.depth ≤ maxKeptDepth then
    match json with
    | .obj fields =>
        match fields.filter fun field => field.1 == "event" with
        | [(_, .str tag)] => ofTagged? tag (.obj (fields.filter fun field => field.1 != "event"))
        | _ => none
    | .arr (.str tag :: rest) => ofTagged? tag (.arr rest)
    | _ => none
  else
    none

end TraceEvent

namespace RunStats

def toJson (stats : RunStats) : Json :=
  .obj [("steps", .nat stats.steps), ("capability_requests", .nat stats.capabilityRequests),
    ("finalizers_run", .nat stats.finalizersRun), ("suppressed", .nat stats.suppressed),
    ("max_depth", .nat stats.maxDepth)]

def fields : List Json.Field :=
  [⟨"steps", .never⟩, ⟨"capability_requests", .never⟩, ⟨"finalizers_run", .never⟩,
    ⟨"suppressed", .never⟩, ⟨"max_depth", .never⟩]

def ofJson? (json : Json) : Option RunStats :=
  match json.slots? fields with
  | some [steps, requests, finalizers, suppressed, depth] => do
      return {
        steps := ← Json.needed Json.toSize? steps
        capabilityRequests := ← Json.needed Json.toSize? requests
        finalizersRun := ← Json.needed Json.toSize? finalizers
        suppressed := ← Json.needed Json.toSize? suppressed
        maxDepth := ← Json.needed Json.toSize? depth }
  | _ => none

end RunStats

end Sequencer
