import Sequencer.Proofs.LayerFusion
import Sequencer.Proofs.Maps
import Mathlib.Data.List.Dedup
import Mathlib.Data.List.Induction

/-!
# Contexts as histories

A context is made from the empty one by calls that bind a key or join a layer.  What it binds can be
read off the calls: the last override of a key counts.  A layer that is smaller than the context it
joins is the exception.  Its overrides go below those already there, as if they had come first.
-/

namespace Sequencer

variable {S : Signature}

/-! ## Overrides that count -/

namespace Override

def Stands (override : Override S) (history : List (Override S)) : Prop :=
  ∃ earlier later, history = earlier ++ override :: later ∧
    ∀ other ∈ later, other.id ≠ override.id

def distinct (history : List (Override S)) : Nat :=
  (history.map id).dedup.length

theorem isSome_last?_iff {id : Nat} {history : List (Override S)} :
    (last? id history).isSome = true ↔ ∃ override ∈ history, override.id = id := by
  induction history with
  | nil => simp [last?]
  | cons first later ih =>
      simp only [last?, Option.isSome_or, Bool.or_eq_true, ih]
      by_cases same : first.id = id <;> simp [same]

theorem last?_eq_some_iff {id : Nat} {history : List (Override S)} {binding : Binding S} :
    last? id history = some binding ↔
      ∃ override : Override S, override.Stands history ∧ override.id = id ∧
        override.binding = binding := by
  constructor
  · intro found
    induction history with
    | nil => cases found
    | cons first later ih =>
        rw [last?, Option.or_eq_some_iff] at found
        rcases found with after | ⟨none, here⟩
        · obtain ⟨override, ⟨earlier, rest, rfl, last⟩, same⟩ := ih after
          exact ⟨override, ⟨first :: earlier, rest, rfl, last⟩, same⟩
        · obtain ⟨same, rfl⟩ : first.id = id ∧ first.binding = binding := by
            simpa using here
          refine ⟨first, ⟨[], later, rfl, ?_⟩, same, rfl⟩
          intro other member equal
          have bound := isSome_last?_iff.mpr ⟨other, member, equal.trans same⟩
          simp [none] at bound
  · rintro ⟨override, ⟨earlier, later, rfl, last⟩, rfl, rfl⟩
    rw [last?_append, last?, last?_eq_none last]
    simp

theorem size_eq_distinct {bindings : SortedMap Nat (Binding S)} {history : List (Override S)}
    (bound : ∀ id, bindings.contains id = true ↔ ∃ override ∈ history, override.id = id) :
    bindings.size = distinct history := by
  have same : bindings.keys.Perm (history.map id).dedup := by
    rw [List.perm_ext_iff_of_nodup bindings.keys_nodup (List.nodup_dedup _)]
    intro id
    rw [SortedMap.mem_keys_iff, bound, List.mem_dedup, List.mem_map]
  have counted := same.length_eq
  rwa [SortedMap.keys, List.length_map] at counted

end Override

/-! ## What a context answers -/

namespace Context

structure Binds (context : Context S) (history : List (Override S)) : Prop where
  contains : ∀ {shape : S.Shape} (key : Key S shape),
    context.contains key = true ↔ ∃ override ∈ history, override.id = key.id
  missing : ∀ {shape : S.Shape} (key : Key S shape),
    context.lookup key = .missing ↔ context.contains key = false
  unresolved : ∀ {E : Type} {shape : S.Shape} (key : Key S shape) (level : Level S)
    (frame : Frame S E) (state : RunState S), frame.context = context →
    context.contains key = false → ∃ state', level.handle (.request key) frame state =
      .ok ⟨.error (.defect (.unresolvedCapability key.name key.id)), frame, state'⟩
  ascending : (context.capabilities.map Capability.id).Pairwise (· < ·)
  capabilities : ∀ id, id ∈ context.capabilities.map Capability.id ↔
    ∃ override ∈ history, override.id = id
  size : context.size = Override.distinct history

/-- Each key bound has the value, and each capability the name, that the history gave it last. -/
structure Answers (context : Context S) (history : List (Override S)) : Prop
    extends context.Binds history where
  found : ∀ override : Override S, override.Stands history → ∀ key : Key S override.shape,
    key.id = override.id → context.lookup key = .found override.value
  named : ∀ capability, capability ∈ context.capabilities ↔
    ∃ override : Override S, override.Stands history ∧ override.key.capability = capability

theorem lookup_eq_missing_iff {context : Context S} {shape : S.Shape} {key : Key S shape} :
    context.lookup key = .missing ↔ context.contains key = false := by
  unfold lookup contains SortedMap.contains
  cases context.bindings.get? key.id with
  | none => simp
  | some binding =>
      simp only [Binding.read, Option.isSome_some]
      split <;> simp

theorem handle_unresolved {E : Type} {shape : S.Shape} {key : Key S shape} (level : Level S)
    {frame : Frame S E} (state : RunState S) (missing : frame.context.lookup key = .missing) :
    ∃ state', level.handle (.request key) frame state =
      .ok ⟨.error (.defect (.unresolvedCapability key.name key.id)), frame, state'⟩ := by
  simp [Level.handle, missing]

theorem ids_capabilities (context : Context S) :
    context.capabilities.map Capability.id = context.bindings.keys := by
  simp [capabilities, capabilitiesOf, SortedMap.keys, Function.comp_def]

theorem mem_capabilities_iff {context : Context S} {capability : Capability} :
    capability ∈ context.capabilities ↔
      ∃ binding, context.bindings.get? capability.id = some binding ∧
        binding.name = capability.name := by
  obtain ⟨id, name⟩ := capability
  simp only [capabilities, capabilitiesOf, List.mem_map, Capability.mk.injEq, Prod.exists,
    SortedMap.get?_eq_some_iff]
  constructor
  · rintro ⟨_, binding, member, rfl, rfl⟩
    exact ⟨binding, member, rfl⟩
  · rintro ⟨binding, member, rfl⟩
    exact ⟨id, binding, member, rfl, rfl⟩

theorem binds_of_contains {context : Context S} {history : List (Override S)}
    (bound : ∀ id, context.bindings.contains id = true ↔ ∃ override ∈ history, override.id = id) :
    context.Binds history where
  contains key := bound key.id
  missing _ := lookup_eq_missing_iff
  unresolved key level frame state here unbound := by
    have missing : frame.context.lookup key = .missing := by
      rw [here]
      exact lookup_eq_missing_iff.mpr unbound
    exact handle_unresolved level state missing
  ascending := by
    rw [ids_capabilities, SortedMap.keys, List.pairwise_map]
    apply context.bindings.sorted.imp
    intro a b less
    exact Nat.compare_eq_lt.mp less
  capabilities id := by rw [ids_capabilities, SortedMap.mem_keys_iff, bound]
  size := Override.size_eq_distinct bound

theorem answers_of_get? {context : Context S} {history : List (Override S)}
    (law : ∀ id, context.bindings.get? id = Override.last? id history) :
    context.Answers history where
  toBinds := binds_of_contains fun id => by
    rw [SortedMap.contains, law, Override.isSome_last?_iff]
  found := by
    rintro override stands key same
    have bound : context.bindings.get? key.id = some override.binding := by
      rw [law, Override.last?_eq_some_iff]
      exact ⟨override, stands, same.symm, rfl⟩
    simp [lookup, bound, Override.binding, Key.bind, Binding.read]
  named := by
    intro capability
    simp only [mem_capabilities_iff, law, Override.last?_eq_some_iff]
    constructor
    · rintro ⟨_, ⟨override, stands, same, rfl⟩, name⟩
      refine ⟨override, stands, ?_⟩
      cases capability
      cases same
      cases name
      rfl
    · rintro ⟨override, stands, rfl⟩
      exact ⟨_, ⟨override, stands, rfl, rfl⟩, rfl⟩

end Context

/-! ## Making contexts -/

/-- A call that makes a context out of another.  A layer is given by the calls that build it. -/
inductive Provision (S : Signature) where
  | provide (override : Override S)
  | extend (layer : List (Override S))

namespace Provision

def overrides : Provision S → List (Override S)
  | .provide override => [override]
  | .extend layer => layer

def apply (context : Context S) : Provision S → Context S
  | .provide override => context.provide override.key override.value
  | .extend layer => context.extend (.ofOverrides layer)

def history (provisions : List (Provision S)) : List (Override S) :=
  provisions.flatMap overrides

/-- What stands after one more call: a layer goes on top, or below if it is the smaller one. -/
def place (standing : List (Override S)) : Provision S → List (Override S)
  | .provide override => standing ++ [override]
  | .extend layer =>
      if Override.distinct standing ≤ Override.distinct layer then standing ++ layer
      else layer ++ standing

def standing (provisions : List (Provision S)) : List (Override S) :=
  provisions.foldl place []

end Provision

namespace Context

def built (provisions : List (Provision S)) : Context S :=
  provisions.foldl Provision.apply .empty

def stages (provisions : List (Provision S)) : List (Context S) :=
  provisions.scanl Provision.apply .empty

end Context

/-- No layer is outweighed by the context that it joins, where they bind the same key. -/
def Provision.Prevailing (provisions : List (Provision S)) : Prop :=
  ∀ past layer, past ++ [.extend layer] <+: provisions →
    (Layer.ofOverrides layer).Prevails (Context.built past)

theorem Layer.size_ofOverrides (overrides : List (Override S)) :
    (Layer.ofOverrides overrides).size = Override.distinct overrides := by
  apply Override.size_eq_distinct
  intro id
  rw [SortedMap.contains, get?_ofOverrides, Override.isSome_last?_iff]

namespace Provision

variable {context : Context S} {overrides : List (Override S)}

theorem get?_place (law : ∀ id, context.bindings.get? id = Override.last? id overrides)
    (provision : Provision S) (id : Nat) :
    (provision.apply context).bindings.get? id = Override.last? id (place overrides provision) := by
  cases provision with
  | provide override =>
      have bound := context.get?_override [override] id
      rw [law, ← Override.last?_append] at bound
      exact bound
  | extend layer =>
      have size : context.size = Override.distinct overrides := (Context.answers_of_get? law).size
      rw [apply, place, Context.get?_extend, size, Layer.size_ofOverrides, Layer.get?_ofOverrides,
        law]
      split
      · rw [Override.last?_append]
      · rw [Override.last?_append]

theorem get?_apply_of_prevails (law : ∀ id, context.bindings.get? id = Override.last? id overrides)
    (provision : Provision S)
    (prevails : ∀ layer, provision = .extend layer → (Layer.ofOverrides layer).Prevails context)
    (id : Nat) : (provision.apply context).bindings.get? id =
      Override.last? id (overrides ++ provision.overrides) := by
  rw [Override.last?_append]
  cases provision with
  | provide override =>
      have bound := context.get?_override [override] id
      rw [law] at bound
      exact bound
  | extend layer =>
      rw [apply, Context.get?_extend_of_prevails (prevails layer rfl), Layer.get?_ofOverrides, law]
      rfl

theorem place_perm (standing : List (Override S)) (provision : Provision S) :
    (place standing provision).Perm (standing ++ provision.overrides) := by
  cases provision with
  | provide override => exact .refl _
  | extend layer =>
      rw [place]
      split
      · exact .refl _
      · exact List.perm_append_comm

theorem history_concat (past : List (Provision S)) (provision : Provision S) :
    history (past ++ [provision]) = history past ++ provision.overrides := by
  simp [history]

theorem standing_perm_history (provisions : List (Provision S)) :
    (standing provisions).Perm (history provisions) := by
  induction provisions using List.reverseRecOn with
  | nil => exact .refl _
  | append_singleton past provision ih =>
      rw [standing, List.foldl_concat, history_concat]
      exact (place_perm _ _).trans (ih.append_right _)

end Provision

namespace Context

theorem get?_built (provisions : List (Provision S)) (id : Nat) :
    (built provisions).bindings.get? id = Override.last? id (Provision.standing provisions) := by
  induction provisions using List.reverseRecOn generalizing id with
  | nil => rfl
  | append_singleton past provision ih =>
      rw [built, Provision.standing, List.foldl_concat, List.foldl_concat]
      exact Provision.get?_place ih provision id

theorem get?_built_of_prevailing {provisions : List (Provision S)}
    (prevailing : Provision.Prevailing provisions) (id : Nat) :
    (built provisions).bindings.get? id = Override.last? id (Provision.history provisions) := by
  induction provisions using List.reverseRecOn generalizing id with
  | nil => rfl
  | append_singleton past provision ih =>
      have before : Provision.Prevailing past := fun earlier layer within =>
        prevailing earlier layer (within.trans (List.prefix_append _ _))
      rw [built, List.foldl_concat, Provision.history_concat]
      apply Provision.get?_apply_of_prevails (ih before)
      rintro layer rfl
      exact prevailing past layer (List.prefix_refl _)

theorem binds_built (provisions : List (Provision S)) :
    (built provisions).Binds (Provision.history provisions) := by
  apply binds_of_contains
  intro id
  rw [SortedMap.contains, get?_built, Override.isSome_last?_iff]
  simp only [(Provision.standing_perm_history provisions).mem_iff]

theorem getElem?_stages {provisions : List (Provision S)} {n : Nat} {context : Context S}
    (stage : (stages provisions)[n]? = some context) :
    n ≤ provisions.length ∧ built (provisions.take n) = context := by
  rw [stages, List.getElem?_scanl] at stage
  split at stage
  · next within => exact ⟨within, Option.some.inj stage⟩
  · cases stage

end Context

/-- At every stage a context binds the keys of the calls so far, and later calls leave it as it is.
A key has the last value that stands.  Where no layer is outweighed by the context it joins, that is
the last value the calls gave it. -/
theorem contexts_follow_history {provisions : List (Provision S)} {n : Nat} {context : Context S}
    (stage : (Context.stages provisions)[n]? = some context) :
    context.Binds (Provision.history (provisions.take n)) ∧
    context.Answers (Provision.standing (provisions.take n)) ∧
    (Provision.standing (provisions.take n)).Perm (Provision.history (provisions.take n)) ∧
    (Provision.Prevailing (provisions.take n) →
      context.Answers (Provision.history (provisions.take n))) ∧
    ∀ later, (Context.stages (provisions ++ later))[n]? = some context := by
  obtain ⟨within, rfl⟩ := Context.getElem?_stages stage
  refine ⟨Context.binds_built _, Context.answers_of_get? (Context.get?_built _),
    Provision.standing_perm_history _, ?_, ?_⟩
  · intro prevailing
    exact Context.answers_of_get? (Context.get?_built_of_prevailing prevailing)
  · intro later
    have known : n < (Context.stages provisions).length := by
      rw [Context.stages, List.length_scanl]
      omega
    have kept : Context.stages (provisions ++ later) = Context.stages provisions ++ _ :=
      List.scanl_append
    rw [kept, List.getElem?_append_left known]
    exact stage

def limitProvisions : List (Provision Sample.signature) :=
  [.provide ⟨Sample.key 0 "limit", 1⟩, .provide ⟨Sample.key 0 "limit", 2⟩,
    .extend [⟨Sample.key 0 "limit", 3⟩, ⟨Sample.key 1 "other", 9⟩, ⟨Sample.key 0 "limit", 4⟩]]

theorem limitProvisions_prevailing : Provision.Prevailing limitProvisions := by
  rintro past layer ⟨later, split⟩ id _ _
  rcases past with _ | ⟨first, _ | ⟨second, _ | ⟨third, past⟩⟩⟩ <;>
    simp [limitProvisions] at split
  obtain ⟨rfl, rfl, rfl, rfl⟩ := split
  decide

theorem contexts_follow_history_layered : ∃ before after : Context Sample.signature,
    (Context.stages limitProvisions)[2]? = some before ∧
    (Context.stages limitProvisions)[3]? = some after ∧
    Provision.Prevailing limitProvisions ∧
    before.lookup (Sample.key 0 "limit") = .found 2 ∧
    after.lookup (Sample.key 0 "limit") = .found 4 ∧ after.size = 2 := by
  have early : (Context.stages limitProvisions)[2]? = some _ := rfl
  have late : (Context.stages limitProvisions)[3]? = some _ := rfl
  obtain ⟨-, stands, -⟩ := contexts_follow_history early
  obtain ⟨-, -, -, answers, -⟩ := contexts_follow_history late
  have last := answers limitProvisions_prevailing
  refine ⟨_, _, early, late, limitProvisions_prevailing, ?_, ?_, last.size⟩
  · exact stands.found ⟨Sample.key 0 "limit", 2⟩ ⟨[_], [], rfl, List.forall_mem_nil _⟩ _ rfl
  · exact last.found ⟨Sample.key 0 "limit", 4⟩ ⟨[_, _, _, _], [], rfl, List.forall_mem_nil _⟩ _ rfl

/-- A layer that binds one key does not override a context that binds this key and another one. -/
theorem outweighed_layer_is_hidden :
    ¬ ∀ provisions : List (Provision Sample.signature),
      (Context.built provisions).Answers (Provision.history provisions) := by
  intro law
  have found := (law [.provide ⟨Sample.key 0 "a", 1⟩, .provide ⟨Sample.key 1 "b", 2⟩,
    .extend [⟨Sample.key 0 "a", 3⟩]]).found ⟨Sample.key 0 "a", 3⟩
    ⟨[_, _], [], rfl, List.forall_mem_nil _⟩ (Sample.key 0 "a") rfl
  cases found

end Sequencer
