import Sequencer.Codec.Config
import Sequencer.Codec.Report
import Sequencer.Proofs.Codecs

/-!
# Round trips of reports, events and configurations

The codecs of what an analysis stores: its reports with their parts, and its configurations.  A
value fits when all its numbers are sizes.  `AnalysisReport.parse?` then gives back what
`AnalysisReport.render` has written, whatever the texts, with or without traces.
-/

namespace Sequencer

/-! ## Diagnostics and edits -/

namespace Span

def Fits (span : Span) : Prop :=
  span.start < Json.sizeLimit ∧ span.stop < Json.sizeLimit

instance (span : Span) : Decidable span.Fits :=
  inferInstanceAs (Decidable (_ ∧ _))

theorem codes : Json.Codes toJson ofJson? Fits where
  plain fits := .obj (by simp [Json.Codes.size.plain fits.1, Json.Codes.size.plain fits.2])
  decoded {span} fits := by
    rw [toJson, ofJson?, Json.slots?_obj rfl (by decide)]
    simp [Json.needed_some, Json.Codes.size.decoded fits.1, Json.Codes.size.decoded fits.2]
  fits {json span} given := by
    unfold ofJson? at given
    split at given
    · obtain ⟨start, first, given⟩ := Option.bind_eq_some_iff.mp given
      obtain ⟨stop, second, given⟩ := Option.bind_eq_some_iff.mp given
      cases given
      exact ⟨Json.Codes.size.fits_of_bind first, Json.Codes.size.fits_of_bind second⟩
    · cases given

end Span

theorem Severity.codes : Json.Codes toJson ofJson? fun _ => True where
  plain _ := .str _
  decoded {severity} _ := by cases severity <;> rfl
  fits _ := trivial

namespace Diagnostic

def Fits (diagnostic : Diagnostic) : Prop :=
  diagnostic.span.Fits

instance (diagnostic : Diagnostic) : Decidable diagnostic.Fits :=
  inferInstanceAs (Decidable diagnostic.span.Fits)

theorem codes : Json.Codes toJson ofJson? Fits where
  plain fits := .obj (by simp [Span.codes.plain fits, Severity.codes.plain trivial])
  decoded {diagnostic} fits := by
    rw [toJson, ofJson?, Json.slots?_obj rfl (by decide)]
    simp [Json.needed_some, Json.toText?, Span.codes.decoded fits, Severity.codes.decoded trivial]
  fits {json diagnostic} given := by
    unfold ofJson? at given
    split at given
    · obtain ⟨file, -, given⟩ := Option.bind_eq_some_iff.mp given
      obtain ⟨span, spanned, given⟩ := Option.bind_eq_some_iff.mp given
      obtain ⟨severity, -, given⟩ := Option.bind_eq_some_iff.mp given
      obtain ⟨rule, -, given⟩ := Option.bind_eq_some_iff.mp given
      obtain ⟨message, -, given⟩ := Option.bind_eq_some_iff.mp given
      cases given
      exact Span.codes.fits_of_bind spanned
    · cases given

end Diagnostic

namespace TextEdit

def Fits (edit : TextEdit) : Prop :=
  edit.span.Fits

instance (edit : TextEdit) : Decidable edit.Fits :=
  inferInstanceAs (Decidable edit.span.Fits)

theorem codes : Json.Codes toJson ofJson? Fits where
  plain fits := .obj (by simp [Span.codes.plain fits])
  decoded {edit} fits := by
    rw [toJson, ofJson?, Json.slots?_obj rfl (by decide)]
    simp [Json.needed_some, Json.toText?, Span.codes.decoded fits]
  fits {json edit} given := by
    unfold ofJson? at given
    split at given
    · obtain ⟨file, -, given⟩ := Option.bind_eq_some_iff.mp given
      obtain ⟨span, spanned, given⟩ := Option.bind_eq_some_iff.mp given
      obtain ⟨replacement, -, given⟩ := Option.bind_eq_some_iff.mp given
      cases given
      exact Span.codes.fits_of_bind spanned
    · cases given

end TextEdit

/-! ## Statistics and events -/

namespace RunStats

structure Fits (stats : RunStats) : Prop where
  steps : stats.steps < Json.sizeLimit
  capabilityRequests : stats.capabilityRequests < Json.sizeLimit
  finalizersRun : stats.finalizersRun < Json.sizeLimit
  suppressed : stats.suppressed < Json.sizeLimit
  maxDepth : stats.maxDepth < Json.sizeLimit

theorem codes : Json.Codes toJson ofJson? Fits where
  plain fits := .obj (by
    simp [Json.Codes.size.plain fits.steps, Json.Codes.size.plain fits.capabilityRequests,
      Json.Codes.size.plain fits.finalizersRun, Json.Codes.size.plain fits.suppressed,
      Json.Codes.size.plain fits.maxDepth])
  decoded {stats} fits := by
    rw [toJson, ofJson?, Json.slots?_obj rfl (by decide)]
    simp [Json.needed_some, Json.Codes.size.decoded fits.steps,
      Json.Codes.size.decoded fits.capabilityRequests,
      Json.Codes.size.decoded fits.finalizersRun, Json.Codes.size.decoded fits.suppressed,
      Json.Codes.size.decoded fits.maxDepth]
  fits {json stats} given := by
    unfold ofJson? at given
    split at given
    · obtain ⟨steps, first, given⟩ := Option.bind_eq_some_iff.mp given
      obtain ⟨requests, second, given⟩ := Option.bind_eq_some_iff.mp given
      obtain ⟨finalizers, third, given⟩ := Option.bind_eq_some_iff.mp given
      obtain ⟨suppressed, fourth, given⟩ := Option.bind_eq_some_iff.mp given
      obtain ⟨depth, fifth, given⟩ := Option.bind_eq_some_iff.mp given
      cases given
      exact ⟨Json.Codes.size.fits_of_bind first, Json.Codes.size.fits_of_bind second,
        Json.Codes.size.fits_of_bind third, Json.Codes.size.fits_of_bind fourth,
        Json.Codes.size.fits_of_bind fifth⟩
    · cases given

end RunStats

def Text.snakeCase (name : String) : String :=
  match name.toList with
  | [] => ""
  | first :: rest =>
      String.ofList (first.toLower ::
        rest.flatMap fun c => if c.isUpper then ['_', c.toLower] else [c])

namespace TraceEvent

def kind : TraceEvent → String
  | capabilityResolved .. => "CapabilityResolved"
  | capabilityUnresolved .. => "CapabilityUnresolved"
  | failed .. => "Failed"
  | nestedEntered .. => "NestedEntered"
  | nestedExited .. => "NestedExited"
  | finalizerRegistered .. => "FinalizerRegistered"
  | finalizerRan .. => "FinalizerRan"
  | finalizerSuppressed .. => "FinalizerSuppressed"

def depth : TraceEvent → Nat
  | capabilityResolved depth _ => depth
  | capabilityUnresolved depth _ => depth
  | failed depth => depth
  | nestedEntered depth => depth
  | nestedExited depth _ => depth
  | finalizerRegistered depth => depth
  | finalizerRan depth => depth
  | finalizerSuppressed depth => depth

def Fits (event : TraceEvent) : Prop :=
  event.depth < Json.sizeLimit

instance (event : TraceEvent) : Decidable event.Fits :=
  inferInstanceAs (Decidable (_ < _))

theorem field?_event (event : TraceEvent) :
    event.toJson.field? "event" = some (.str (Text.snakeCase event.kind)) := by
  cases event <;> simp [toJson, Json.field?, kind] <;> decide

theorem depthOnly?_obj {make : Nat → TraceEvent} {depth : Nat} (small : depth < Json.sizeLimit) :
    depthOnly? make (.obj [("depth", .nat depth)]) = some (make depth) := by
  rw [depthOnly?, Json.slots?_obj rfl (by decide)]
  simp [Json.needed_some, Json.Codes.size.decoded small]

theorem withName?_obj {make : Nat → String → TraceEvent} {depth : Nat} {name : String}
    (small : depth < Json.sizeLimit) :
    withName? make (.obj [("depth", .nat depth), ("name", .str name)]) =
      some (make depth name) := by
  rw [withName?, Json.slots?_obj rfl (by decide)]
  simp [Json.needed_some, Json.toText?, Json.Codes.size.decoded small]

theorem withOk?_obj {make : Nat → Bool → TraceEvent} {depth : Nat} {ok : Bool}
    (small : depth < Json.sizeLimit) :
    withOk? make (.obj [("depth", .nat depth), ("ok", .bool ok)]) = some (make depth ok) := by
  rw [withOk?, Json.slots?_obj rfl (by decide)]
  simp [Json.needed_some, Json.toBool?, Json.Codes.size.decoded small]

theorem ofJson?_toJson {event : TraceEvent} {outer : Nat} (shallow : outer < maxKeptDepth)
    (fits : event.Fits) : ofJson? outer event.toJson = some event := by
  -- No event is deeper than one level, so only what it stands in can be too deep.
  have kept : (event.toJson.isReadable && outer + event.toJson.depth ≤ maxKeptDepth) = true := by
    have flat : event.toJson.isReadable = true ∧ event.toJson.depth = 1 := by
      cases event <;> exact ⟨rfl, rfl⟩
    simpa [flat] using Nat.succ_le_of_lt shallow
  unfold ofJson?
  rw [if_pos kept]
  cases event with
  | capabilityResolved depth name | capabilityUnresolved depth name =>
      have small : depth < Json.sizeLimit := fits
      simp [toJson, ofTagged?, withName?_obj small]
  | nestedExited depth ok =>
      have small : depth < Json.sizeLimit := fits
      simp [toJson, ofTagged?, withOk?_obj small]
  | failed depth | nestedEntered depth | finalizerRegistered depth | finalizerRan depth
  | finalizerSuppressed depth =>
      have small : depth < Json.sizeLimit := fits
      simp [toJson, ofTagged?, depthOnly?_obj small]

theorem lt_of_depthOnly? {make : Nat → TraceEvent} {rest : Json} {event : TraceEvent}
    (given : depthOnly? make rest = some event) :
    ∃ depth < Json.sizeLimit, event = make depth := by
  unfold depthOnly? at given
  split at given
  · obtain ⟨depth, sized, rfl⟩ := Option.map_eq_some_iff.mp given
    exact ⟨depth, Json.Codes.size.fits_of_bind sized, rfl⟩
  · cases given

theorem lt_of_withName? {make : Nat → String → TraceEvent} {rest : Json} {event : TraceEvent}
    (given : withName? make rest = some event) :
    ∃ depth < Json.sizeLimit, ∃ name, event = make depth name := by
  unfold withName? at given
  split at given
  · obtain ⟨depth, sized, given⟩ := Option.bind_eq_some_iff.mp given
    obtain ⟨name, -, given⟩ := Option.bind_eq_some_iff.mp given
    cases given
    exact ⟨depth, Json.Codes.size.fits_of_bind sized, name, rfl⟩
  · cases given

theorem lt_of_withOk? {make : Nat → Bool → TraceEvent} {rest : Json} {event : TraceEvent}
    (given : withOk? make rest = some event) :
    ∃ depth < Json.sizeLimit, ∃ ok, event = make depth ok := by
  unfold withOk? at given
  split at given
  · obtain ⟨depth, sized, given⟩ := Option.bind_eq_some_iff.mp given
    obtain ⟨ok, -, given⟩ := Option.bind_eq_some_iff.mp given
    cases given
    exact ⟨depth, Json.Codes.size.fits_of_bind sized, ok, rfl⟩
  · cases given

theorem fits_of_ofTagged? {tag : String} {rest : Json} {event : TraceEvent}
    (given : ofTagged? tag rest = some event) : event.Fits := by
  unfold ofTagged? at given
  split at given
  case h_1 | h_2 =>
    obtain ⟨depth, small, name, rfl⟩ := lt_of_withName? given
    exact small
  case h_5 =>
    obtain ⟨depth, small, ok, rfl⟩ := lt_of_withOk? given
    exact small
  case h_9 => cases given
  all_goals
    obtain ⟨depth, small, rfl⟩ := lt_of_depthOnly? given
    exact small

theorem fits_of_ofJson? {outer : Nat} {json : Json} {event : TraceEvent}
    (given : ofJson? outer json = some event) : event.Fits := by
  unfold ofJson? at given
  split at given
  · split at given
    · split at given
      · exact fits_of_ofTagged? given
      · cases given
    · exact fits_of_ofTagged? given
    · cases given
  · cases given

theorem codes {outer : Nat} (shallow : outer < maxKeptDepth) :
    Json.Codes toJson (ofJson? outer) Fits where
  plain {event} fits := by
    have small : Json.Plain (.nat event.depth) := Json.Codes.size.plain fits
    cases event <;> exact .obj (by simpa [depth] using small)
  decoded := ofJson?_toJson shallow
  fits := fits_of_ofJson?

end TraceEvent

/-! ## Configurations -/

def EngineConfig.Fits (config : EngineConfig) : Prop :=
  config.traceCapacity < Json.sizeLimit

theorem EngineConfig.codes : Json.Codes toJson ofJson? Fits where
  plain fits := .obj (by simp [Json.Codes.size.plain fits])
  decoded {config} fits := by
    rw [toJson, ofJson?, Json.slots?_obj rfl (by decide)]
    simp [Json.orDefault_some, Json.toBool?, Json.Codes.size.decoded fits]
  fits {json config} given := by
    unfold ofJson? at given
    split at given
    · obtain ⟨record, -, given⟩ := Option.bind_eq_some_iff.mp given
      obtain ⟨capacity, sized, given⟩ := Option.bind_eq_some_iff.mp given
      cases given
      exact Json.Codes.size.fits_of_orDefault (by decide) sized
    · cases given

def HostConfig.Fits (config : HostConfig) : Prop :=
  config.engine.Fits

theorem HostConfig.codes : Json.Codes toJson ofJson? Fits where
  plain fits := .obj (by
    simp [EngineConfig.codes.plain fits, Json.Codes.text.map.plain fun _ _ => trivial])
  decoded {config} fits := by
    rw [toJson, ofJson?, Json.slots?_obj rfl (by decide)]
    simp [Json.orDefault_some, Json.toBool?, EngineConfig.codes.decoded fits,
      Json.Codes.text.map.decoded fun _ _ => trivial]
  fits {json config} given := by
    unfold ofJson? at given
    split at given
    · obtain ⟨verbose, -, given⟩ := Option.bind_eq_some_iff.mp given
      obtain ⟨failFast, -, given⟩ := Option.bind_eq_some_iff.mp given
      obtain ⟨engine, sized, given⟩ := Option.bind_eq_some_iff.mp given
      obtain ⟨options, -, given⟩ := Option.bind_eq_some_iff.mp given
      cases given
      have usual : EngineConfig.defaultCapacity < Json.sizeLimit := by decide
      exact EngineConfig.codes.fits_of_orDefault usual sized
    · cases given

/-! ## Reports -/

theorem FileFailure.codes : Json.Codes toJson ofJson? fun _ => True where
  plain _ := .obj (by simp)
  decoded {failure} _ := by
    rw [toJson, ofJson?, Json.slots?_obj rfl (by decide)]
    simp [Json.needed_some, Json.toText?]
  fits _ := trivial

theorem FileDefect.codes : Json.Codes toJson ofJson? fun _ => True where
  plain {defect} _ := .obj (by cases defect.capability <;> simp [Json.ofOption])
  decoded {defect} _ := by
    rw [toJson, ofJson?, Json.slots?_obj rfl (by decide)]
    simp [Json.needed_some, Json.toText?, Json.nullable_ofOption]
  fits _ := trivial

namespace AnalysisReport

structure Fits (report : AnalysisReport) : Prop where
  filesAnalyzed : report.filesAnalyzed < Json.sizeLimit
  diagnostics : ∀ diagnostic ∈ report.diagnostics, diagnostic.Fits
  edits : ∀ edit ∈ report.edits, edit.Fits
  stats : report.stats.Fits
  traces : ∀ entry ∈ report.traces.entries, ∀ event ∈ entry.2, event.Fits

theorem traces_codes : Json.Codes (Json.ofMap (Json.ofList TraceEvent.toJson))
    (Json.toMap? (Json.toList? (TraceEvent.ofJson? eventDepth)))
    fun traces => ∀ entry ∈ traces.entries, ∀ event ∈ entry.2, event.Fits :=
  (TraceEvent.codes (by decide)).list.map

def standing (report : AnalysisReport) : List (String × Json) :=
  [("files_analyzed", .nat report.filesAnalyzed),
    ("diagnostics", Json.ofList Diagnostic.toJson report.diagnostics),
    ("failures", Json.ofList FileFailure.toJson report.failures),
    ("defects", Json.ofList FileDefect.toJson report.defects),
    ("suppressed", Json.ofList FileFailure.toJson report.suppressed),
    ("edits", Json.ofList TextEdit.toJson report.edits),
    ("stats", report.stats.toJson)]

theorem toJson_of_untraced {report : AnalysisReport} (untraced : report.traces = .empty) :
    report.toJson = .obj report.standing := by
  rw [toJson, if_pos (SortedMap.isEmpty_iff.mpr untraced), List.append_nil, standing]

theorem toJson_of_traced {report : AnalysisReport} (traced : report.traces ≠ .empty) :
    report.toJson = .obj (report.standing ++
      [("traces", Json.ofMap (Json.ofList TraceEvent.toJson) report.traces)]) := by
  rw [toJson, if_neg (mt SortedMap.isEmpty_iff.mp traced), standing]

theorem plain_of_mem_standing {report : AnalysisReport} (fits : report.Fits) :
    ∀ field ∈ report.standing, Json.Plain field.2 := by
  simp [standing, Json.Codes.size.plain fits.filesAnalyzed,
    Diagnostic.codes.list.plain fits.diagnostics, FileFailure.codes.list.plain fun _ _ => trivial,
    FileDefect.codes.list.plain fun _ _ => trivial, TextEdit.codes.list.plain fits.edits,
    RunStats.codes.plain fits.stats]

theorem slots?_toJson {report : AnalysisReport} (fits : report.Fits) :
    ∃ traces, report.toJson.slots? fields =
        some (report.standing.map (fun field => some field.2) ++ [traces]) ∧
      Json.orDefault .empty (Json.toMap? (Json.toList? (TraceEvent.ofJson? eventDepth))) traces =
        some report.traces := by
  by_cases untraced : report.traces = .empty
  · refine ⟨none, ?_, congrArg some untraced.symm⟩
    rw [toJson_of_untraced untraced]
    exact @Json.slots?_obj_append report.standing (fields.take 7) [⟨"traces", .always⟩] rfl
      (by decide) (by decide)
  · refine ⟨some (Json.ofMap (Json.ofList TraceEvent.toJson) report.traces), ?_,
      traces_codes.decoded fits.traces⟩
    rw [toJson_of_traced untraced, Json.slots?_obj rfl (by decide), List.map_append]
    rfl

theorem codes : Json.Codes toJson ofJson? Fits where
  plain {report} fits := by
    by_cases untraced : report.traces = .empty
    · rw [toJson_of_untraced untraced]
      exact .obj (plain_of_mem_standing fits)
    · rw [toJson_of_traced untraced]
      refine .obj (List.forall_mem_append.mpr ⟨plain_of_mem_standing fits, ?_⟩)
      simpa using traces_codes.plain fits.traces
  decoded {report} fits := by
    obtain ⟨traces, slots, read⟩ := slots?_toJson fits
    rw [ofJson?, slots]
    simp [standing, Json.needed_some, Json.Codes.size.decoded fits.filesAnalyzed,
      Diagnostic.codes.list.decoded fits.diagnostics,
      FileFailure.codes.list.decoded fun _ _ => trivial,
      FileDefect.codes.list.decoded fun _ _ => trivial, TextEdit.codes.list.decoded fits.edits,
      RunStats.codes.decoded fits.stats, read]
  fits {json report} given := by
    unfold ofJson? at given
    split at given
    · obtain ⟨files, sized, given⟩ := Option.bind_eq_some_iff.mp given
      obtain ⟨diagnostics, diagnosed, given⟩ := Option.bind_eq_some_iff.mp given
      obtain ⟨failures, -, given⟩ := Option.bind_eq_some_iff.mp given
      obtain ⟨defects, -, given⟩ := Option.bind_eq_some_iff.mp given
      obtain ⟨suppressed, -, given⟩ := Option.bind_eq_some_iff.mp given
      obtain ⟨edits, edited, given⟩ := Option.bind_eq_some_iff.mp given
      obtain ⟨stats, counted, given⟩ := Option.bind_eq_some_iff.mp given
      obtain ⟨traces, traced, given⟩ := Option.bind_eq_some_iff.mp given
      cases given
      exact ⟨Json.Codes.size.fits_of_bind sized, Diagnostic.codes.list.fits_of_bind diagnosed,
        TextEdit.codes.list.fits_of_bind edited, RunStats.codes.fits_of_bind counted,
        traces_codes.fits_of_orDefault (by simp [SortedMap.empty]) traced⟩
    · cases given

theorem exists_fields {report : AnalysisReport} :
    ∃ fields, report.toJson = .obj fields ∧
      ("traces" ∈ fields.map Prod.fst ↔ report.traces ≠ .empty) := by
  by_cases untraced : report.traces = .empty
  · exact ⟨_, toJson_of_untraced untraced, by simp [standing, untraced]⟩
  · exact ⟨_, toJson_of_traced untraced, by simp [untraced]⟩

end AnalysisReport

/-- The text of a report is read as the report, as long as its numbers are sizes, and only then.  It
has traces among its fields exactly when the report has any.  Diagnostics, edits, statistics, events
and configurations come back in the same way.  The kind of an event is its tag. -/
theorem reports_and_settings_round_trip :
    (∀ report : AnalysisReport,
      (AnalysisReport.parse? report.render = some report ↔ report.Fits) ∧
      (report.Fits → ∃ fields, Json.read report.render = some (.obj fields) ∧
        ("traces" ∈ fields.map Prod.fst ↔ report.traces ≠ .empty))) ∧
    Json.RoundTrips AnalysisReport.toJson AnalysisReport.ofJson? AnalysisReport.Fits ∧
    Json.RoundTrips Diagnostic.toJson Diagnostic.ofJson? Diagnostic.Fits ∧
    Json.RoundTrips TextEdit.toJson TextEdit.ofJson? TextEdit.Fits ∧
    Json.RoundTrips RunStats.toJson RunStats.ofJson? RunStats.Fits ∧
    (∀ event : TraceEvent,
      event.toJson.field? "event" = some (.str (Text.snakeCase event.kind))) ∧
    (∀ outer < TraceEvent.maxKeptDepth,
      Json.RoundTrips TraceEvent.toJson (TraceEvent.ofJson? outer) TraceEvent.Fits) ∧
    Json.RoundTrips HostConfig.toJson HostConfig.ofJson? HostConfig.Fits := by
  refine ⟨fun report => ⟨AnalysisReport.codes.roundTrips.pretty report, fun fits => ?_⟩,
    AnalysisReport.codes.roundTrips, Diagnostic.codes.roundTrips, TextEdit.codes.roundTrips,
    RunStats.codes.roundTrips, TraceEvent.field?_event,
    fun outer shallow => (TraceEvent.codes shallow).roundTrips, HostConfig.codes.roundTrips⟩
  obtain ⟨fields, written, named⟩ := @AnalysisReport.exists_fields report
  refine ⟨fields, ?_, named⟩
  rw [AnalysisReport.render, Json.read_pretty (AnalysisReport.codes.plain fits), written]

def Sample.crowdedReport : AnalysisReport where
  filesAnalyzed := 2
  diagnostics := [⟨"src/\"a\".fx", ⟨7, 3⟩, .warning, "tab\there", "line\nline \\ \x01 ≤ 😀"⟩]
  failures := [⟨"b.fx", ""⟩]
  defects := [⟨"b.fx", some "host::program", "missing"⟩, ⟨"b.fx", none, "null"⟩]
  suppressed := [⟨"b.fx", "late"⟩, ⟨"b.fx", "later"⟩]
  edits := [⟨"src/\"a\".fx", ⟨0, 18446744073709551615⟩, "\x7b\x7d"⟩]
  stats := { steps := 9, maxDepth := 2 }
  traces := .ofList [("traces", []),
    ("b.fx", [.nestedEntered 1, .capabilityUnresolved 2 "k", .nestedExited 1 false])]

theorem reports_and_settings_round_trip_crowded :
    Sample.crowdedReport.Fits ∧
    AnalysisReport.parse? Sample.crowdedReport.render = some Sample.crowdedReport ∧
    (∃ fields, Json.read Sample.crowdedReport.render = some (.obj fields) ∧
      "traces" ∈ fields.map Prod.fst) ∧
    TraceEvent.ofJson? 126 (TraceEvent.toJson (.finalizerRan 3)) = some (.finalizerRan 3) := by
  have fits : Sample.crowdedReport.Fits := by
    refine ⟨by decide, by decide, by decide, ⟨?_, ?_, ?_, ?_, ?_⟩, by decide⟩ <;> decide
  obtain ⟨reports, -, -, -, -, -, events, -⟩ := reports_and_settings_round_trip
  obtain ⟨back, text⟩ := reports Sample.crowdedReport
  obtain ⟨fields, read, traced⟩ := text fits
  exact ⟨fits, back.mpr fits, ⟨fields, read, traced.mpr (by decide)⟩,
    ((events 126 (by decide)).value (.finalizerRan 3)).mpr (by decide)⟩

end Sequencer
