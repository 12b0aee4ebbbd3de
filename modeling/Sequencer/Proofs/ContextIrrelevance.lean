import Sequencer.Proofs.DepthShift

/-!
# What a run does not ask for

A run whose routines do not look at their context learns of it only what it asks for.  Two
contexts that agree on the requested keys may still lead to different runs.  A layer competes with
the context it joins by size, so a key that nobody asks for can decide which of two bindings of
another key a nested frame sees.  Where every layer that rebinds a requested key outweighs both
contexts or neither, the runs are the same.
-/

namespace Sequencer

variable {S : Signature} {E A : Type}

def requestedIds (history : History S) : List Nat :=
  (requests history).map Capability.id

/-! ## Contexts that agree on some keys -/

def Binding.content (binding : Binding S) : (shape : S.Shape) × S.El shape :=
  ⟨binding.shape, binding.value⟩

namespace Context

/-- Both contexts miss the key of this identity, or both bind it to the same value. -/
def AgreeOn (context context' : Context S) (id : Nat) : Prop :=
  (context'.bindings.get? id).map Binding.content = (context.bindings.get? id).map Binding.content

theorem AgreeOn.lookup_eq {context context' : Context S} {shape : S.Shape} {key : Key S shape}
    (agree : context.AgreeOn context' key.id) : context'.lookup key = context.lookup key := by
  have read : ∀ context : Context S, context.lookup key =
      ((context.bindings.get? key.id).map Binding.content).elim .missing fun content =>
        if same : content.1 = shape then .found (same ▸ content.2) else .misshapen := by
    intro context
    unfold lookup
    cases context.bindings.get? key.id <;> rfl
  rw [read, read, agree]

theorem AgreeOn.contains_eq {context context' : Context S} {id : Nat}
    (agree : context.AgreeOn context' id) :
    context'.bindings.contains id = context.bindings.contains id := by
  have bound := congrArg Option.isSome agree
  simpa [SortedMap.contains] using bound

theorem get?_extend (context : Context S) (layer : Layer S) (id : Nat) :
    (context.extend layer).bindings.get? id =
      if context.size ≤ layer.size then
        (layer.bindings.get? id).or (context.bindings.get? id)
      else (context.bindings.get? id).or (layer.bindings.get? id) := by
  by_cases empty : layer.isEmpty = true
  · have none : layer.bindings.get? id = none := by
      obtain ⟨⟨entries, sorted⟩⟩ := layer
      obtain rfl := List.isEmpty_iff.mp empty
      rfl
    simp [extend, empty, none]
  · have joined : context.extend layer =
        if context.size ≤ layer.size then ⟨context.bindings.union layer.bindings⟩
        else ⟨layer.bindings.union context.bindings⟩ := if_neg empty
    rw [joined]
    split
    · exact SortedMap.get?_union _ _ _
    · exact SortedMap.get?_union _ _ _

end Context

/-! ## Layers that treat two contexts alike -/

/-- Where the layer binds one of the keys that both contexts bind already, it outweighs both
contexts or neither. -/
def Layer.MeetsAlike (layer : Layer S) (ids : List Nat) (context context' : Context S) : Prop :=
  ∀ id ∈ ids, layer.bindings.contains id = true → context.bindings.contains id = true →
    context'.bindings.contains id = true →
      (context.size ≤ layer.size ↔ context'.size ≤ layer.size)

namespace Context

theorem AgreeOn.extend {context context' : Context S} {layer : Layer S} {ids : List Nat} {id : Nat}
    (agree : context.AgreeOn context' id) (alike : layer.MeetsAlike ids context context')
    (member : id ∈ ids) : (context.extend layer).AgreeOn (context'.extend layer) id := by
  have contained := agree.contains_eq
  rw [AgreeOn, get?_extend, get?_extend]
  cases bound : layer.bindings.get? id with
  | none =>
      -- The layer leaves the key alone.
      simp only [Option.none_or, Option.or_none, ite_self]
      exact agree
  | some binding =>
      cases kept : context.bindings.get? id with
      | none =>
          have missing : context'.bindings.get? id = none := by
            simpa [SortedMap.contains, kept] using contained
          simp [missing]
      | some old =>
          -- Both have a binding to set against the layer's; the sizes decide alike.
          have present : context.bindings.contains id = true := by
            simp [SortedMap.contains, kept]
          have sides := alike id member (by simp [SortedMap.contains, bound]) present
            (contained.trans present)
          rw [AgreeOn, kept] at agree
          obtain ⟨old', found, same⟩ := Option.map_eq_some_iff.mp agree
          by_cases outweighed : context.size ≤ layer.size
          · simp [outweighed, sides.mp outweighed]
          · have outweighed' : ¬ context'.size ≤ layer.size := fun h => outweighed (sides.mpr h)
            simp [outweighed, outweighed', found, same]

/-- However the layers join both contexts, one after another, the next one meets them alike. -/
def LayeredAlike (ids : List Nat) (layers : Layer S → Prop) (context context' : Context S) :
    Prop :=
  ∀ joined : List (Layer S), (∀ layer ∈ joined, layers layer) → ∀ layer, layers layer →
    layer.MeetsAlike ids (joined.foldl extend context) (joined.foldl extend context')

namespace LayeredAlike

variable {ids : List Nat} {layers : Layer S → Prop} {context context' : Context S}

theorem meetsAlike (alike : LayeredAlike ids layers context context') {layer : Layer S}
    (allowed : layers layer) : layer.MeetsAlike ids context context' :=
  alike [] (List.forall_mem_nil _) layer allowed

theorem extend (alike : LayeredAlike ids layers context context') {layer : Layer S}
    (allowed : layers layer) :
    LayeredAlike ids layers (context.extend layer) (context'.extend layer) := by
  intro joined all
  exact alike (layer :: joined) (List.forall_mem_cons.mpr ⟨allowed, all⟩)

theorem symm (alike : LayeredAlike ids layers context context') :
    LayeredAlike ids layers context' context := by
  intro joined all layer allowed id member rebinds bound' bound
  exact (alike joined all layer allowed id member rebinds bound bound').symm

end LayeredAlike

end Context

/-! ## The same run under another context -/

def Displacement.recontext {licence : Licence S} (blind : ¬ licence.context) (ids : List Nat) :
    Displacement licence where
  floor := 0
  depth := id
  wanted id := id ∈ ids
  Alike context context' := (∀ id ∈ ids, context.AgreeOn context' id) ∧
    Context.LayeredAlike ids licence.layers context context'
  depth_succ _ := rfl
  lookup_eq alike _ _ wanted := (alike.1 _ wanted).lookup_eq
  extend alike allowed :=
    ⟨fun id member => (alike.1 id member).extend (alike.2.meetsAlike allowed) member,
      alike.2.extend allowed⟩
  depth_unseen _ _ _ := rfl
  context_unseen seen := absurd seen blind

theorem Journal.replay_map_moved (journal : Journal) (history : History S) :
    journal.replay (history.map (Moment.moved id)) = journal.replay history := by
  induction history generalizing journal with
  | nil => rfl
  | cons moment history ih =>
      rw [List.map_cons, replay_cons, replay_cons, ih]
      cases moment <;> rfl

theorem Moved.replay_eq {history history' : History S} (moved : Moved id history history')
    (journal : Journal) : journal.replay history' = journal.replay history := by
  rw [← journal.replay_map_moved history', moved, journal.replay_map_moved]

theorem Runs.recontext {licence : Licence S} (blind : ¬ licence.context)
    {procedures : Procedures S} (covers : licence.Covers procedures) {task : Task S E A}
    {context context' : Context S} {depth : Nat} {state : RunState S} {history : History S}
    {out : Evaluated S E A} (run : Runs procedures task { context, depth } state history out)
    (keeps : task.Keeps licence)
    (agree : ∀ id ∈ requestedIds history, context.AgreeOn context' id)
    (alike : Context.LayeredAlike (requestedIds history) licence.layers context context') :
    ∃ history' after, requestedIds history' = requestedIds history ∧
      after.suppressed = out.frame.suppressed ∧
      Runs procedures task { context := context', depth } state history'
        ⟨out.settled, after, out.state⟩ := by
  have carries : (Displacement.recontext blind (requestedIds history)).Carries
      ({ context, depth } : Frame S E) { context := context', depth } :=
    { high := Nat.zero_le depth
      depth := rfl
      context := ⟨agree, alike⟩
      finalizers := rfl
      suppressed := rfl
      keeps := nofun }
  have known : (Displacement.recontext blind (requestedIds history)).Knows history :=
    fun _ member => List.mem_map_of_mem member
  obtain ⟨history', after, journal, moved, carried, run'⟩ :=
    run.displaced _ covers keeps known carries state.journal
  -- Journals follow histories, and these differ in contexts only, which no journal keeps.
  have replayed : out.state.journal = state.journal.replay history := run.replayed
  have replayed' : journal = state.journal.replay history' := run'.replayed
  have same : journal = out.state.journal := by rw [replayed', replayed, moved.replay_eq]
  rw [same] at run'
  refine ⟨history', after, ?_, carried.suppressed, run'⟩
  rw [requestedIds, moved.requests_eq, requestedIds]

/-- No routine of the sequence, or of a procedure it calls, looks at its context, and their frames
join no other layers than these. -/
def Sequence.ContextBlind (procedures : Procedures S) (layers : Layer S → Prop)
    (sequence : Sequence S E A) : Prop :=
  ∃ licence : Licence S, ¬ licence.context ∧ licence.layers = layers ∧
    licence.Covers procedures ∧ sequence.Keeps licence

/-- The layer binds no key that the history asks for, and `layers` that join later meet the
context with it and without it alike. -/
def Layer.Unnoticed (layer : Layer S) (layers : Layer S → Prop) (context : Context S)
    (history : History S) : Prop :=
  (∀ id ∈ requestedIds history, layer.bindings.contains id = false) ∧
    Context.LayeredAlike (requestedIds history) layers context (context.extend layer)

theorem Layer.Unnoticed.get?_extend {layer : Layer S} {layers : Layer S → Prop}
    {context : Context S} {history : History S}
    (unnoticed : layer.Unnoticed layers context history) {id : Nat}
    (member : id ∈ requestedIds history) :
    (context.extend layer).bindings.get? id = context.bindings.get? id := by
  have unbound : layer.bindings.get? id = none := by
    simpa [SortedMap.contains] using unnoticed.1 id member
  simp [Context.get?_extend, unbound]

theorem Sequence.ContextBlind.relayer {procedures : Procedures S} {layers : Layer S → Prop}
    {sequence : Sequence S E A} (blind : sequence.ContextBlind procedures layers)
    {layer : Layer S} (layer' : Layer S) {frame : Frame S E} {state : RunState S}
    {history : History S} {out : Evaluated S E A}
    (run : Runs procedures (.evaluate (sequence.provideLayer layer)) frame state history out)
    (agree : ∀ id ∈ requestedIds history,
      (frame.context.extend layer).AgreeOn (frame.context.extend layer') id)
    (alike : Context.LayeredAlike (requestedIds history) layers (frame.context.extend layer)
      (frame.context.extend layer')) :
    ∃ history', requestedIds history' = requestedIds history ∧
      Runs procedures (.evaluate (sequence.provideLayer layer')) frame state history' out := by
  obtain ⟨licence, unseen, rfl, covers, keeps⟩ := blind
  obtain ⟨inner, nested, rfl⟩ := Runs.provideLayer_iff.mp run
  obtain ⟨history', after, ids, suppressed, nested'⟩ :=
    nested.recontext unseen covers keeps agree alike
  refine ⟨history', ids, Runs.provideLayer_iff.mpr ⟨_, nested', ?_⟩⟩
  rw [suppressed]

/-- What a run does not ask for makes no difference to it, as long as the layers of its frames
join either context alike; nor does a layer around a part of it that does not ask for its keys. -/
theorem unrequested_keys_irrelevant {interpreter : Interpreter S} {layers : Layer S → Prop}
    {sequence : Sequence S E A}
    (blind : sequence.ContextBlind interpreter.procedures layers) :
    (∀ context context' world history report left,
      interpreter.Records sequence context world history report left →
      (∀ id ∈ requestedIds history, context.AgreeOn context' id) →
      Context.LayeredAlike (requestedIds history) layers context context' →
      interpreter.Completes sequence context' world report left) ∧
    ∀ (frame : Frame S E) (state : RunState S) (layer : Layer S) (out : Evaluated S E A),
      (∃ history,
        Runs interpreter.procedures (.evaluate (sequence.provideLayer layer)) frame state history
          out ∧ layer.Unnoticed layers frame.context history) ↔
      ∃ history,
        Runs interpreter.procedures (.evaluate sequence.nested) frame state history out ∧
          layer.Unnoticed layers frame.context history := by
  constructor
  · rintro context context' world history report left ⟨out, run, rfl, rfl⟩ agree alike
    obtain ⟨licence, unseen, rfl, covers, keeps⟩ := blind
    obtain ⟨history', after, -, suppressed, run'⟩ := run.recontext unseen covers keeps agree alike
    refine Interpreter.completes_iff_records.mpr ⟨history', _, run', ?_, rfl⟩
    simp only [Evaluated.driven, suppressed]
  · intro frame state layer out
    constructor
    · rintro ⟨history, run, unnoticed⟩
      obtain ⟨history', ids, run'⟩ := blind.relayer .empty run
        (fun id member => congrArg _ (unnoticed.get?_extend member).symm) unnoticed.2.symm
      refine ⟨history', run', ?_⟩
      rw [Layer.Unnoticed, ids]
      exact unnoticed
    · rintro ⟨history, run, unnoticed⟩
      obtain ⟨history', ids, run'⟩ := blind.relayer layer run
        (fun id member => congrArg _ (unnoticed.get?_extend member)) unnoticed.2
      refine ⟨history', run', ?_⟩
      rw [Layer.Unnoticed, ids]
      exact unnoticed

def overriddenLimit : Sequence Sample.signature String Nat :=
  (Sequence.service (Sample.key 0 "limit")).provide (Sample.key 0 "limit") 7

def limitLayer : Layer Sample.signature :=
  Layer.empty.provide (Sample.key 0 "limit") 7

def limitWith (others : List Nat) : Context Sample.signature :=
  others.foldl (fun context id => context.provide (Sample.key id "other") 0)
    (Context.empty.provide (Sample.key 0 "limit") 1)

theorem overriddenLimit_contextBlind :
    overriddenLimit.ContextBlind Sample.interpreter.procedures (· = limitLayer) := by
  refine ⟨{ context := False, layers := (· = limitLayer), calls := fun _ => True }, id, rfl,
    nofun, ?_⟩
  simp [overriddenLimit, Sequence.provide, Sequence.provideLayer, Sequence.service,
    Sequence.Keeps, Step.Keeps, limitLayer]

theorem overriddenLimit_runs {context : Context Sample.signature} {value : Nat}
    (found : (context.extend limitLayer).lookup (Sample.key 0 "limit") = .found value)
    (depth : Nat) (state : RunState Sample.signature) :
    ∃ history out, requestedIds history = [0] ∧ out.settled = .ok value ∧
      out.state.world = state.world ∧
      Runs Sample.interpreter.procedures (.drive overriddenLimit) { context, depth } state history
        out := by
  refine ⟨_, _, ?_, ?_, ?_, .drive (.perform (.nested (.nest
    (.drive (.perform (.requestFound found)) (.drained rfl))))) (.drained rfl)⟩
  · rfl
  · rfl
  · rfl

theorem overriddenLimit_records {context : Context Sample.signature} {value : Nat}
    (found : (context.extend limitLayer).lookup (Sample.key 0 "limit") = .found value) :
    ∃ history report, requestedIds history = [0] ∧ report.exit = .ok (.ok value) ∧
      Sample.interpreter.Records overriddenLimit context [] history report [] := by
  obtain ⟨history, out, ids, settled, world, run⟩ :=
    overriddenLimit_runs found 0 ⟨{ config := Sample.interpreter.config }, []⟩
  have exit : (Interpreter.report out.driven).exit = .ok (.ok value) :=
    congrArg (Settled.exit Outcome.ok Outcome.err) settled
  exact ⟨history, _, ids, exit, out, run, rfl, world.symm⟩

theorem overriddenLimit_nested_runs {context : Context Sample.signature} {value : Nat}
    (found : (context.extend limitLayer).lookup (Sample.key 0 "limit") = .found value)
    (depth : Nat) (state : RunState Sample.signature) :
    ∃ history out, requestedIds history = [0] ∧ out.settled = .ok value ∧
      Runs Sample.interpreter.procedures (.evaluate overriddenLimit.nested) { context, depth } state
        history out := by
  obtain ⟨history, out, ids, settled, -, run⟩ := overriddenLimit_runs found (depth + 1)
    ((state.countStep .runNested).record (.nestedEntered (depth + 1)))
  refine ⟨_, _, ?_, ?_, Runs.provideLayer_iff.mpr ⟨_, .nest run, rfl⟩⟩
  · simpa [requestedIds, requests, Moment.request?, List.filterMap_cons] using ids
  · exact settled

theorem limitWith_layeredAlike :
    Context.LayeredAlike [0] (· = limitLayer) (limitWith [1]) (limitWith [1, 2]) := by
  intro joined all layer allowed
  have kept : ∀ context : Context Sample.signature, context.extend limitLayer = context →
      joined.foldl Context.extend context = context := by
    intro context absorbs
    induction joined with
    | nil => rfl
    | cons first joined ih =>
        obtain ⟨same, rest⟩ := List.forall_mem_cons.mp all
        rw [List.foldl_cons, same, absorbs, ih rest]
  rw [kept _ rfl, kept _ rfl, allowed]
  intro id member rebinds bound bound'
  decide

theorem unrequested_keys_irrelevant_outweighed :
    overriddenLimit.ContextBlind Sample.interpreter.procedures (· = limitLayer) ∧
    (∃ report : RunReport String Nat, report.exit = .ok (.ok 1) ∧
      Sample.interpreter.Completes overriddenLimit (limitWith [1]) [] report [] ∧
      Sample.interpreter.Completes overriddenLimit (limitWith [1, 2]) [] report []) ∧
    ∃ history history' out, out.settled = .ok 1 ∧
      Runs Sample.interpreter.procedures (.evaluate overriddenLimit.nested)
        { context := limitWith [1], depth := 0 } ⟨{ config := {} }, []⟩ history out ∧
      Runs Sample.interpreter.procedures
        (.evaluate (overriddenLimit.provide (Sample.key 2 "other") 0))
        { context := limitWith [1], depth := 0 } ⟨{ config := {} }, []⟩ history' out := by
  obtain ⟨switched, layered⟩ := unrequested_keys_irrelevant overriddenLimit_contextBlind
  have found : ((limitWith [1]).extend limitLayer).lookup (Sample.key 0 "limit") = .found 1 := rfl
  refine ⟨overriddenLimit_contextBlind, ?_, ?_⟩
  · obtain ⟨history, report, ids, exit, records⟩ := overriddenLimit_records found
    have agree : ∀ id ∈ requestedIds history, (limitWith [1]).AgreeOn (limitWith [1, 2]) id := by
      rw [ids]
      exact List.forall_mem_singleton.mpr rfl
    refine ⟨report, exit, Interpreter.completes_iff_records.mpr ⟨history, records⟩, ?_⟩
    exact switched _ _ _ _ _ _ records agree (ids ▸ limitWith_layeredAlike)
  · obtain ⟨history, out, ids, settled, run⟩ :=
      overriddenLimit_nested_runs found 0 ⟨{ config := {} }, []⟩
    have unnoticed : (Layer.empty.provide (Sample.key 2 "other") 0).Unnoticed (· = limitLayer)
        (limitWith [1]) history := by
      rw [Layer.Unnoticed, ids]
      exact ⟨by decide, limitWith_layeredAlike⟩
    obtain ⟨history', run', -⟩ := (layered _ _ _ _).mpr ⟨history, run, unnoticed⟩
    exact ⟨history, history', out, settled, run, run'⟩

/-- Two contexts that agree on the one key a run asks for lead to different exits: beside a second
key the context outweighs the layer that binds the requested one anew, and alone it does not. -/
theorem unrequested_key_decides_override :
    ¬ ∀ (sequence : Sequence Sample.signature String Nat) (layers : Layer Sample.signature → Prop)
      (context context' : Context Sample.signature) (history : History Sample.signature)
      (report report' : RunReport String Nat),
      sequence.ContextBlind Sample.interpreter.procedures layers →
      Sample.interpreter.Records sequence context [] history report [] →
      (∀ id ∈ requestedIds history, context.AgreeOn context' id) →
      Sample.interpreter.Completes sequence context' [] report' [] →
      report'.exit = report.exit := by
  intro irrelevant
  obtain ⟨history, report, ids, seven, records⟩ := overriddenLimit_records
    (show ((limitWith []).extend limitLayer).lookup (Sample.key 0 "limit") = .found 7 from rfl)
  obtain ⟨history', report', -, one, records'⟩ := overriddenLimit_records
    (show ((limitWith [1]).extend limitLayer).lookup (Sample.key 0 "limit") = .found 1 from rfl)
  have agree : ∀ id ∈ requestedIds history, (limitWith []).AgreeOn (limitWith [1]) id := by
    rw [ids]
    exact List.forall_mem_singleton.mpr rfl
  have same : report'.exit = report.exit := irrelevant _ _ _ _ _ _ _ overriddenLimit_contextBlind
    records agree (Interpreter.completes_iff_records.mpr ⟨history', records'⟩)
  rw [one, seven] at same
  cases same

end Sequencer
