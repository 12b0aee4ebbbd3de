import Sequencer.Proofs.ContextIrrelevance
import Sequencer.Proofs.Finalizers
import Sequencer.Proofs.Laws

/-!
# One layer for many

Overrides can be given to a sequence together, as one layer, or one after another, each with a frame
of its own.  A sequence that does not look at its depth does the same work either way, if no context
on the way outweighs a layer that joins it; otherwise the sequence may see different values.
-/

namespace Sequencer

variable {S : Signature} {E A : Type}

structure Override (S : Signature) where
  {shape : S.Shape}
  key : Key S shape
  value : S.El shape

namespace Override

def id (override : Override S) : Nat :=
  override.key.id

def binding (override : Override S) : Binding S :=
  override.key.bind override.value

def layer (override : Override S) : Layer S :=
  Layer.empty.provide override.key override.value

def last? (id : Nat) : List (Override S) → Option (Binding S)
  | [] => none
  | override :: later =>
      (last? id later).or (if override.id = id then some override.binding else none)

end Override

def Layer.ofOverrides (overrides : List (Override S)) : Layer S :=
  overrides.foldl (fun layer override => layer.provide override.key override.value) .empty

def Context.override (context : Context S) (overrides : List (Override S)) : Context S :=
  overrides.foldl (fun context override => context.provide override.key override.value) context

/-- Each override in a frame of its own, the first of them outermost. -/
def Sequence.provideEach (sequence : Sequence S E A) (overrides : List (Override S)) :
    Sequence S E A :=
  overrides.foldr (fun override inner => inner.provide override.key override.value) sequence

/-! ## Contexts -/

theorem get?_foldl_override (overrides : List (Override S)) (bindings : SortedMap Nat (Binding S))
    (id : Nat) :
    (overrides.foldl (fun map override => map.insert override.id override.binding) bindings).get?
        id = (Override.last? id overrides).or (bindings.get? id) := by
  induction overrides generalizing bindings with
  | nil => rfl
  | cons override later ih =>
      rw [List.foldl_cons, ih, SortedMap.get?_insert, Override.last?, Option.or_assoc]
      by_cases same : override.id = id
      · simp [same]
      · have differs : ¬ compare id override.id = .eq := fun equal =>
          same (Std.LawfulEqOrd.eq_of_compare equal).symm
        simp [same, differs]

theorem Layer.bindings_ofOverrides (overrides : List (Override S)) :
    (Layer.ofOverrides overrides).bindings =
      overrides.foldl (fun map override => map.insert override.id override.binding) .empty :=
  (List.foldl_hom Layer.bindings fun _ _ => rfl).symm

theorem Layer.get?_ofOverrides (overrides : List (Override S)) (id : Nat) :
    (Layer.ofOverrides overrides).bindings.get? id = Override.last? id overrides := by
  rw [bindings_ofOverrides, get?_foldl_override, SortedMap.get?_empty, Option.or_none]

namespace Override

theorem last?_append (id : Nat) (earlier later : List (Override S)) :
    last? id (earlier ++ later) = (last? id later).or (last? id earlier) := by
  induction earlier with
  | nil => simp [last?]
  | cons override earlier ih => rw [List.cons_append, last?, last?, ih, Option.or_assoc]

theorem last?_eq_none {id : Nat} {overrides : List (Override S)}
    (others : ∀ override ∈ overrides, override.id ≠ id) : last? id overrides = none := by
  induction overrides with
  | nil => rfl
  | cons override later ih =>
      obtain ⟨other, rest⟩ := List.forall_mem_cons.mp others
      simp [last?, other, ih rest]

end Override

/-- Where the layer and the context bind the same key, the context is not the larger one. -/
def Layer.Prevails (layer : Layer S) (context : Context S) : Prop :=
  ∀ id, layer.bindings.contains id = true → context.bindings.contains id = true →
    context.size ≤ layer.size

namespace Context

theorem bindings_override (context : Context S) (overrides : List (Override S)) :
    (context.override overrides).bindings =
      overrides.foldl (fun map override => map.insert override.id override.binding)
        context.bindings :=
  (List.foldl_hom Context.bindings fun _ _ => rfl).symm

theorem get?_override (context : Context S) (overrides : List (Override S)) (id : Nat) :
    (context.override overrides).bindings.get? id =
      (Override.last? id overrides).or (context.bindings.get? id) := by
  rw [bindings_override, get?_foldl_override]

theorem get?_extend_of_prevails {context : Context S} {layer : Layer S}
    (prevails : layer.Prevails context) (id : Nat) :
    (context.extend layer).bindings.get? id =
      (layer.bindings.get? id).or (context.bindings.get? id) := by
  rw [get?_extend]
  split
  · rfl
  · next larger =>
      cases provided : layer.bindings.get? id with
      | none => simp
      | some binding =>
          cases bound : context.bindings.get? id with
          | none => simp
          | some old =>
              exact absurd (prevails id (by simp [SortedMap.contains, provided])
                (by simp [SortedMap.contains, bound])) larger

theorem extend_ofOverrides {context : Context S} {overrides : List (Override S)}
    (prevails : (Layer.ofOverrides overrides).Prevails context) :
    context.extend (.ofOverrides overrides) = context.override overrides := by
  have same : (context.extend (.ofOverrides overrides)).bindings =
      (context.override overrides).bindings := by
    apply SortedMap.ext_get?
    intro id
    rw [get?_extend_of_prevails prevails, Layer.get?_ofOverrides, get?_override]
  exact congrArg Context.mk same

def YieldsToEach (context : Context S) : List (Override S) → Prop
  | [] => True
  | override :: later => override.layer.Prevails context ∧
      (context.provide override.key override.value).YieldsToEach later

theorem YieldsToEach.foldl_extend {context : Context S} {overrides : List (Override S)}
    (yields : context.YieldsToEach overrides) :
    (overrides.map Override.layer).foldl extend context = context.override overrides := by
  induction overrides generalizing context with
  | nil => rfl
  | cons override later ih =>
      have first : (Layer.ofOverrides [override]).Prevails context := yields.1
      have joined : context.extend override.layer = context.override [override] :=
        extend_ofOverrides first
      rw [List.map_cons, List.foldl_cons, joined]
      exact ih yields.2

/-- No layer is outweighed, neither that of all the overrides nor that of any one of them. -/
structure Fusible (context : Context S) (overrides : List (Override S)) : Prop where
  together : (Layer.ofOverrides overrides).Prevails context
  apart : context.YieldsToEach overrides

theorem lookup_override_last {overrides earlier later : List (Override S)} {override : Override S}
    (context : Context S) (split : overrides = earlier ++ override :: later)
    (last : ∀ other ∈ later, other.id ≠ override.id) :
    (context.override overrides).lookup override.key = .found override.value := by
  have none : Override.last? override.key.id later = none := Override.last?_eq_none last
  have bound : (context.override overrides).bindings.get? override.key.id =
      some override.binding := by
    rw [get?_override, split, Override.last?_append, Override.last?, none]
    simp [Override.id]
  simp [lookup, bound, Override.binding, Key.bind, Binding.read]

theorem lookup_override_other {overrides : List (Override S)} {shape : S.Shape} {key : Key S shape}
    (context : Context S) (others : ∀ override ∈ overrides, override.id ≠ key.id) :
    (context.override overrides).lookup key = context.lookup key := by
  rw [lookup, get?_override, Override.last?_eq_none others, Option.none_or, lookup]

end Context

/-! ## Frames around a sequence -/

def Sequence.underLayers (sequence : Sequence S E A) (layers : List (Layer S)) : Sequence S E A :=
  layers.foldr (fun layer inner => inner.provideLayer layer) sequence

theorem Sequence.provideEach_eq (sequence : Sequence S E A) (overrides : List (Override S)) :
    sequence.provideEach overrides = sequence.underLayers (overrides.map Override.layer) := by
  rw [provideEach, underLayers, List.foldr_map]
  rfl

def TraceEvent.enclosed (n : Nat) (ok : Bool) (events : List TraceEvent) : List TraceEvent :=
  (List.range' 1 n).map .nestedEntered ++ events.map (.deepen n) ++
    (List.range' 1 n).reverse.map (.nestedExited · ok)

namespace TraceEvent

theorem deepen_zero : deepen 0 = id :=
  moved_id

theorem deepen_deepen (n k : Nat) (event : TraceEvent) :
    (event.deepen n).deepen k = event.deepen (n + k) := by
  cases event <;> simp [deepen, moved, Nat.add_assoc]

theorem deepen_nestedEntered (n depth : Nat) :
    (nestedEntered depth).deepen n = .nestedEntered (depth + n) := rfl

theorem deepen_nestedExited (n depth : Nat) (ok : Bool) :
    (nestedExited depth ok).deepen n = .nestedExited (depth + n) ok := rfl

theorem enclosed_zero (ok : Bool) (events : List TraceEvent) : enclosed 0 ok events = events := by
  simp [enclosed, deepen_zero]

theorem enclosed_succ (n : Nat) (ok : Bool) (events : List TraceEvent) :
    enclosed (n + 1) ok events =
      .nestedEntered 1 :: (enclosed n ok events).map (.deepen 1) ++ [.nestedExited 1 ok] := by
  have shifted : List.range' 2 n = (List.range' 1 n).map (1 + ·) :=
    (List.map_add_range' 1 n 1).symm
  simp [enclosed, List.range'_succ, Function.comp_def, shifted, deepen_deepen, deepen_nestedEntered,
    deepen_nestedExited, Nat.add_comm 1]

theorem enclosed_one (ok : Bool) (events : List TraceEvent) :
    enclosed 1 ok events =
      .nestedEntered 1 :: events.map (.deepen 1) ++ [.nestedExited 1 ok] := by
  rw [enclosed_succ, enclosed_zero]

end TraceEvent

theorem RunStats.ofEvents_enclosed (n : Nat) (ok : Bool) (events : List TraceEvent) :
    RunStats.ofEvents 0 (TraceEvent.enclosed n ok events) =
      { RunStats.ofEvents 0 events with
        steps := (RunStats.ofEvents 0 events).steps + n
        maxDepth := (RunStats.ofEvents 0 events).maxDepth + n } := by
  induction n with
  | zero => rw [TraceEvent.enclosed_zero]; rfl
  | succ n ih => rw [TraceEvent.enclosed_succ, RunStats.ofEvents_nested, ih]; rfl

/-- What a frame does and comes to, wherever it stands.  Depths of events count from the frame. -/
structure Course (S : Signature) (E A : Type) where
  events : List TraceEvent
  settled : Settled E A
  suppressed : Array E
  left : S.World

def Course.within (course : Course S E A) (n : Nat) : Course S E A :=
  { course with events := TraceEvent.enclosed n course.settled.isSuccess course.events }

theorem Course.within_succ (course : Course S E A) (n : Nat) :
    course.within (n + 1) = (course.within n).within 1 := by
  rw [within, within, within, TraceEvent.enclosed_succ, TraceEvent.enclosed_one]

def Sequence.Takes (procedures : Procedures S) (sequence : Sequence S E A) (context : Context S)
    (world : S.World) (course : Course S E A) : Prop :=
  ∀ (depth : Nat) (journal : Journal), ∃ history out,
    Runs procedures (.drive sequence) { context, depth } ⟨journal, world⟩ history out ∧
    fullTrace history = course.events.map (.deepen depth) ∧ out.settled = course.settled ∧
    out.frame.suppressed = course.suppressed ∧ out.state.world = course.left

section

variable {procedures : Procedures S} {sequence : Sequence S E A} {context : Context S}

theorem Sequence.DepthBlind.takes (blind : sequence.DepthBlind procedures) {depth : Nat}
    {state : RunState S} {history : History S} {out : Evaluated S E A}
    (run : Runs procedures (.drive sequence) { context, depth } state history out) :
    ∃ course, sequence.Takes procedures context state.world course := by
  obtain ⟨events, -, everywhere⟩ := blind.shifted run
  refine ⟨⟨events, out.settled, out.frame.suppressed, out.state.world⟩, ?_⟩
  intro depth' journal
  obtain ⟨history', after, trace, suppressed, run'⟩ := everywhere depth' journal
  exact ⟨history', _, run', trace, rfl, suppressed, rfl⟩

theorem RunReport.isSuccess_of_exit {report : RunReport E A} {settled : Settled E A}
    (exit : report.exit = settled.exit .ok .err) : report.isSuccess = settled.isSuccess := by
  rw [RunReport.isSuccess, exit]
  rcases settled with (error | defect) | value <;> rfl

namespace Sequence.Takes

variable {world : S.World} {course : Course S E A}

theorem provideLayer {layer : Layer S}
    (takes : sequence.Takes procedures (context.extend layer) world course) :
    (sequence.provideLayer layer).Takes procedures context world (course.within 1) := by
  intro depth journal
  let entry : RunState S :=
    ((RunState.reach ⟨journal, world⟩ depth).countStep .runNested).record
      (.nestedEntered (depth + 1))
  obtain ⟨inside, inner, run, trace, settled, suppressed, left⟩ := takes (depth + 1) entry.journal
  refine ⟨_, _, Runs.drive_provideLayer_iff.mpr ⟨inside, inner, run, rfl, rfl⟩, ?_, settled,
    suppressed, left⟩
  simp [Course.within, TraceEvent.enclosed_one, Moment.event?, Function.comp_def,
    TraceEvent.deepen_deepen, TraceEvent.deepen_nestedEntered, TraceEvent.deepen_nestedExited,
    trace, settled, Nat.add_comm 1 depth]

theorem underLayers {layers : List (Layer S)}
    (takes : sequence.Takes procedures (layers.foldl Context.extend context) world course) :
    (sequence.underLayers layers).Takes procedures context world (course.within layers.length) := by
  induction layers generalizing context with
  | nil =>
      rw [List.length_nil, Course.within, TraceEvent.enclosed_zero]
      exact takes
  | cons layer layers ih =>
      rw [List.length_cons, Course.within_succ]
      exact (ih takes).provideLayer

theorem records {interpreter : Interpreter S}
    (takes : sequence.Takes interpreter.procedures context world course) :
    ∃ history report, interpreter.Records sequence context world history report course.left ∧
      fullTrace history = course.events ∧ report.exit = course.settled.exit .ok .err ∧
      report.suppressed = course.suppressed := by
  obtain ⟨history, out, run, trace, settled, suppressed, left⟩ :=
    takes 0 { config := interpreter.config }
  rw [TraceEvent.deepen_zero, List.map_id] at trace
  exact ⟨history, _, ⟨out, run, rfl, left.symm⟩, trace,
    congrArg (Settled.exit Outcome.ok Outcome.err) settled, suppressed⟩

theorem reports {interpreter : Interpreter S} {layers : List (Layer S)} {report : RunReport E A}
    {left : S.World}
    (takes : sequence.Takes interpreter.procedures (layers.foldl Context.extend context) world
      course)
    (completes : interpreter.Completes (sequence.underLayers layers) context world report left) :
    left = course.left ∧ report.exit = course.settled.exit .ok .err ∧
    report.suppressed = course.suppressed ∧
    report.stats = { RunStats.ofEvents 0 course.events with
      steps := (RunStats.ofEvents 0 course.events).steps + layers.length
      maxDepth := (RunStats.ofEvents 0 course.events).maxDepth + layers.length } ∧
    (interpreter.config.recordTrace = true → report.dropped = 0 → report.trace.toList =
      TraceEvent.enclosed layers.length course.settled.isSuccess course.events) := by
  obtain ⟨_, given⟩ := Interpreter.completes_iff_records.mp completes
  obtain ⟨history, _, records, trace, exit, suppressed⟩ := takes.underLayers.records
  obtain ⟨rfl, rfl⟩ := given.unique records
  refine ⟨rfl, exit, suppressed, ?_, ?_⟩
  · rw [records.stats_eq, trace, Course.within, RunStats.ofEvents_enclosed]
  · intro recording undropped
    rw [records.trace_eq_fullTrace recording ((records.dropped_eq_zero_iff recording).mp undropped),
      trace, Course.within]

end Sequence.Takes

theorem Runs.inside_layers {layers : List (Layer S)} {depth : Nat} {state : RunState S}
    {history : History S} {out : Evaluated S E A}
    (run : Runs procedures (.drive (sequence.underLayers layers)) { context, depth } state history
      out) :
    ∃ entry inside inner, Runs procedures (.drive sequence)
        { context := layers.foldl Context.extend context, depth := depth + layers.length } entry
        inside inner ∧
      entry.world = state.world ∧ inside <:+: history := by
  induction layers generalizing context depth state history out with
  | nil => exact ⟨state, history, out, run, rfl, List.infix_rfl⟩
  | cons layer layers ih =>
      obtain ⟨around, _, deeper, rfl, -⟩ := Runs.drive_provideLayer_iff.mp run
      obtain ⟨entry, inside, inner, innermost, world, within⟩ := ih deeper
      rw [Nat.add_right_comm] at innermost
      have framed : ∀ opened entered exited settled closed : Moment S,
          around <:+: opened :: (entered :: around ++ [exited]) ++ [settled] ++ [closed] :=
        fun opened entered exited settled closed =>
          ⟨[opened, entered], [exited, settled, closed], by simp⟩
      exact ⟨entry, inside, inner, innermost, world, within.trans (framed _ _ _ _ _)⟩

theorem Sequence.DepthBlind.completes_underLayers_iff {interpreter : Interpreter S}
    (blind : sequence.DepthBlind interpreter.procedures) {layers : List (Layer S)}
    {world left : S.World} :
    (∃ report, interpreter.Completes (sequence.underLayers layers) context world report left) ↔
      ∃ course, sequence.Takes interpreter.procedures (layers.foldl Context.extend context) world
        course ∧ course.left = left := by
  constructor
  · rintro ⟨report, completes⟩
    obtain ⟨_, _, run, _, _⟩ := Interpreter.completes_iff_records.mp completes
    -- The innermost frame shows what course the sequence takes in every place.
    obtain ⟨entry, _, _, inner, same, -⟩ := run.inside_layers
    obtain ⟨course, takes⟩ := blind.takes inner
    rw [same] at takes
    exact ⟨course, takes, (takes.reports completes).1.symm⟩
  · rintro ⟨course, takes, rfl⟩
    obtain ⟨history, report, records, -⟩ := takes.underLayers.records
    exact ⟨report, Interpreter.completes_iff_records.mpr ⟨history, records⟩⟩

theorem Sequence.Evaluates.context_eq {frame : Frame S E} {state : RunState S}
    {out : Evaluated S E A} (evaluates : sequence.Evaluates procedures frame state out) :
    out.frame.context = frame.context := by
  obtain ⟨_, run⟩ := eval_iff_runs.mp evaluates
  obtain ⟨_, grown⟩ := (finalizerDiscipline S).of_runs run
  exact grown.context

end

/-- Every run of `form` has a frame of `sequence` in it that sees the context `seen`, its finalizers
included.  Where `form` is evaluated, the context stays as it is. -/
structure Interpreter.Shows (interpreter : Interpreter S) (form sequence : Sequence S E A)
    (context : Context S) (world : S.World) (seen : Context S) (depth : Nat) : Prop where
  inside : ∀ history report left, interpreter.Records form context world history report left →
    ∃ entry own out, Runs interpreter.procedures (.drive sequence) { context := seen, depth } entry
        own out ∧
      FrameHistory sequence seen depth own ∧ own <:+: history
  around : ∀ frame state out, form.Evaluates interpreter.procedures frame state out →
    out.frame.context = frame.context

theorem Interpreter.Shows.underLayers (interpreter : Interpreter S) (sequence : Sequence S E A)
    (layers : List (Layer S)) (context : Context S) (world : S.World) :
    interpreter.Shows (sequence.underLayers layers) sequence context world
      (layers.foldl Context.extend context) layers.length where
  inside := by
    rintro history _ _ ⟨_, run, -, -⟩
    obtain ⟨entry, own, out, innermost, -, within⟩ := run.inside_layers
    rw [Nat.zero_add] at innermost
    exact ⟨entry, own, out, innermost, (finalizerDiscipline S).of_runs innermost, within⟩
  around _ _ _ evaluates := evaluates.context_eq

/-- Overrides fuse into one layer where no layer is outweighed.  Given one frame each, they make the
same run in as many more frames; either way the sequence and its finalizers see the last override of
each key, and the frame around keeps its context. -/
theorem layers_fuse {interpreter : Interpreter S} {sequence : Sequence S E A}
    {overrides : List (Override S)} {context : Context S}
    (blind : sequence.DepthBlind interpreter.procedures) (given : overrides ≠ [])
    (fusible : context.Fusible overrides) (world : S.World) :
    (∀ left,
      (∃ report, interpreter.Completes (sequence.provideLayer (.ofOverrides overrides)) context
        world report left) ↔
      ∃ report, interpreter.Completes (sequence.provideEach overrides) context world report left) ∧
    (∀ fused apart left left',
      interpreter.Completes (sequence.provideLayer (.ofOverrides overrides)) context world fused
        left →
      interpreter.Completes (sequence.provideEach overrides) context world apart left' →
        left' = left ∧ apart.exit = fused.exit ∧ apart.suppressed = fused.suppressed ∧
        apart.stats = { fused.stats with
          steps := fused.stats.steps + (overrides.length - 1)
          maxDepth := fused.stats.maxDepth + (overrides.length - 1) } ∧
        (interpreter.config.recordTrace = true → fused.dropped = 0 → apart.dropped = 0 →
          ∃ events, fused.trace.toList = TraceEvent.enclosed 1 fused.isSuccess events ∧
            apart.trace.toList = TraceEvent.enclosed overrides.length fused.isSuccess events)) ∧
    interpreter.Shows (sequence.provideLayer (.ofOverrides overrides)) sequence context world
      (context.override overrides) 1 ∧
    interpreter.Shows (sequence.provideEach overrides) sequence context world
      (context.override overrides) overrides.length ∧
    (∀ earlier override later, overrides = earlier ++ override :: later →
      (∀ other ∈ later, other.id ≠ override.id) →
        (context.override overrides).lookup override.key = .found override.value) ∧
    ∀ {shape : S.Shape} (key : Key S shape), (∀ override ∈ overrides, override.id ≠ key.id) →
      (context.override overrides).lookup key = context.lookup key := by
  have together : [Layer.ofOverrides overrides].foldl Context.extend context =
      context.override overrides := Context.extend_ofOverrides fusible.together
  have each : (overrides.map Override.layer).foldl Context.extend context =
      context.override overrides := fusible.apart.foldl_extend
  have count : (overrides.map Override.layer).length = overrides.length := List.length_map _
  -- Both forms put the sequence under layers, and both lists of layers lead to one context.
  have form : sequence.provideLayer (.ofOverrides overrides) =
      sequence.underLayers [.ofOverrides overrides] := rfl
  rw [form, sequence.provideEach_eq]
  refine ⟨?_, ?_, ?_, ?_, ?_, ?_⟩
  · intro left
    rw [blind.completes_underLayers_iff, blind.completes_underLayers_iff, together, each]
  · intro fused apart left left' completes completes'
    obtain ⟨course, takes, -⟩ := blind.completes_underLayers_iff.mp ⟨fused, completes⟩
    have takes' : sequence.Takes interpreter.procedures
        ((overrides.map Override.layer).foldl Context.extend context) world course := by
      rw [each, ← together]
      exact takes
    obtain ⟨rfl, exit, suppressed, stats, trace⟩ := takes.reports completes
    obtain ⟨rfl, exit', suppressed', stats', trace'⟩ := takes'.reports completes'
    refine ⟨rfl, exit'.trans exit.symm, suppressed'.trans suppressed.symm, ?_, ?_⟩
    · have positive : 0 < overrides.length := List.length_pos_iff.mpr given
      rw [stats, stats', count]
      ext <;> simp only [List.length_singleton] <;> omega
    · intro recording kept kept'
      rw [RunReport.isSuccess_of_exit exit]
      exact ⟨course.events, trace recording kept, count ▸ trace' recording kept'⟩
  · exact together ▸ .underLayers interpreter sequence _ context world
  · exact each ▸ count ▸ .underLayers interpreter sequence _ context world
  · intro earlier override later split last
    exact context.lookup_override_last split last
  · intro shape key others
    exact context.lookup_override_other others

def notedLimit : Sequence Sample.signature String Nat :=
  (Sequence.service (Sample.key 0 "limit")).ensuring
    ((Sequence.service (Sample.key 0 "limit")).andThen fun value =>
      Sample.note (if value = 8 then "eight" else "another"))

def limitOverrides : List (Override Sample.signature) :=
  [⟨Sample.key 0 "limit", 7⟩, ⟨Sample.key 0 "limit", 8⟩, ⟨Sample.key 1 "other", 9⟩]

theorem notedLimit_depthBlind : notedLimit.DepthBlind Sample.interpreter.procedures := by
  refine ⟨{ depth := False, calls := fun _ => True }, id, nofun, ?_⟩
  simp [notedLimit, Sequence.service, Sample.note, Sequence.sync, Sequence.Keeps, Step.Keeps]

theorem limitOverrides_fusible : (limitWith []).Fusible limitOverrides where
  together _ _ _ := by decide
  apart := ⟨fun _ _ _ => by decide, fun _ _ _ => by decide, fun _ _ _ => by decide, trivial⟩

theorem layers_fuse_repeated :
    notedLimit.DepthBlind Sample.interpreter.procedures ∧ limitOverrides ≠ [] ∧
    (limitWith []).Fusible limitOverrides ∧
    ∃ fused apart,
      Sample.interpreter.Completes (notedLimit.provideLayer (.ofOverrides limitOverrides))
        (limitWith []) [] fused ["eight"] ∧
      Sample.interpreter.Completes (notedLimit.provideEach limitOverrides) (limitWith []) [] apart
        ["eight"] ∧
      fused.exit = .ok (.ok 8) ∧ apart.exit = .ok (.ok 8) ∧ fused.stats.maxDepth = 2 ∧
      apart.stats.maxDepth = 4 := by
  have given : limitOverrides ≠ [] := nofun
  obtain ⟨both, alike, -⟩ := layers_fuse notedLimit_depthBlind given limitOverrides_fusible []
  have completes : Sample.interpreter.Completes
      (notedLimit.provideLayer (.ofOverrides limitOverrides)) (limitWith []) [] _ ["eight"] :=
    ⟨8, rfl⟩
  obtain ⟨apart, completes'⟩ := (both ["eight"]).mp ⟨_, completes⟩
  obtain ⟨-, exit, -, stats, -⟩ := alike _ _ _ _ completes completes'
  exact ⟨notedLimit_depthBlind, given, limitOverrides_fusible, _, apart, completes, completes', rfl,
    exit, rfl, congrArg RunStats.maxDepth stats⟩

/-- An override of a key comes too late for a context that binds this key and another one: the frame
keeps the earlier value, where a layer of all the overrides has the later one. -/
theorem outweighed_layers_do_not_fuse :
    ¬ ∀ (sequence : Sequence Sample.signature String Nat)
      (overrides : List (Override Sample.signature)) (context : Context Sample.signature)
      (fused apart : RunReport String Nat) (left left' : List String),
      sequence.DepthBlind Sample.interpreter.procedures → overrides ≠ [] →
      Sample.interpreter.Completes (sequence.provideLayer (.ofOverrides overrides)) context [] fused
        left →
      Sample.interpreter.Completes (sequence.provideEach overrides) context [] apart left' →
      apart.exit = fused.exit := by
  intro fuse
  have blind : (Sequence.service (Sample.key 0 "a") :
      Sequence Sample.signature String Nat).DepthBlind Sample.interpreter.procedures :=
    ⟨{ depth := False, calls := fun _ => True }, id, nofun, trivial⟩
  have same := fuse _ [⟨Sample.key 0 "a", 1⟩, ⟨Sample.key 1 "b", 2⟩, ⟨Sample.key 0 "a", 3⟩] .empty
    _ _ [] [] blind nofun ⟨8, rfl⟩ ⟨8, rfl⟩
  cases same

end Sequencer
