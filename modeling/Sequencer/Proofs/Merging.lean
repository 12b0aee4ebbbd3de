import Sequencer.Host.Config
import Sequencer.Proofs.Maps
import Mathlib.Data.List.Induction

/-!
# Merging configurations

Merging is associative and has the default configuration for its unit, so configurations can be
merged in any grouping, and each setting of the result is read off the members: flags are on when
some member has them on, and otherwise the last member that says anything counts.  The settings of a
trace are merged apart from each other but validated together, so two valid configurations can have
an invalid merge.
-/

namespace Sequencer

/-! ## Groupings -/

/-- A nonempty list in brackets, which say what is merged first. -/
inductive Grouping (C : Type) where
  | single (member : C)
  | join (left right : Grouping C)

namespace Grouping

variable {C : Type}

def members : Grouping C → List C
  | single member => [member]
  | join left right => left.members ++ right.members

def combine (merge : C → C → C) : Grouping C → C
  | single member => member
  | join left right => merge (left.combine merge) (right.combine merge)

theorem combine_eq_foldl {merge : C → C → C} {unit : C} [Std.Associative merge]
    [Std.LawfulIdentity merge unit] (grouping : Grouping C) :
    grouping.combine merge = grouping.members.foldl merge unit := by
  induction grouping with
  | single member => exact (Std.LawfulLeftIdentity.left_id member).symm
  | join left right ihLeft ihRight =>
      have start : left.members.foldl merge unit =
          merge (left.members.foldl merge unit) unit :=
        (Std.LawfulRightIdentity.right_id _).symm
      rw [combine, members, List.foldl_append, start, List.foldl_assoc, ← ihLeft, ← ihRight]

theorem combine_of_members_eq {merge : C → C → C} {unit : C} [Std.Associative merge]
    [Std.LawfulIdentity merge unit] {grouping : Grouping C} {configs : List C}
    (onto : grouping.members = unit :: configs) :
    grouping.combine merge = configs.foldl merge unit := by
  have first : merge unit unit = unit := Std.LawfulLeftIdentity.left_id unit
  rw [combine_eq_foldl, onto, List.foldl_cons, first]

end Grouping

/-! ## The engine's part -/

namespace EngineConfig

instance : Std.Associative merge where
  assoc first second third := by
    simp only [merge, Bool.or_assoc]
    split <;> simp_all

instance : Std.IdempotentOp merge where
  idempotent config := by simp [merge]

instance : Std.LawfulIdentity merge {} where
  left_id config := by
    obtain ⟨recordTrace, traceCapacity⟩ := config
    by_cases same : traceCapacity = defaultCapacity
    · simp [merge, same, defaultCapacity]
    · simp [merge, same]
  right_id config := by simp [merge, defaultCapacity]

def lastCapacity (configs : List EngineConfig) : Nat :=
  ((configs.map traceCapacity).filter (· ≠ defaultCapacity)).getLast?.getD defaultCapacity

structure Overlays (merged : EngineConfig) (configs : List EngineConfig) : Prop where
  recordTrace : merged.recordTrace = true ↔ ∃ config ∈ configs, config.recordTrace = true
  traceCapacity : merged.traceCapacity = lastCapacity configs

theorem Overlays.snoc {merged : EngineConfig} {configs : List EngineConfig}
    (overlays : merged.Overlays configs) (config : EngineConfig) :
    (merged.merge config).Overlays (configs ++ [config]) where
  recordTrace := by simp [merge, overlays.recordTrace, or_and_right, exists_or]
  traceCapacity := by
    by_cases same : config.traceCapacity = defaultCapacity
    · simp [merge, lastCapacity, same, overlays.traceCapacity]
    · simp [merge, lastCapacity, same]

theorem overlays_foldl_merge (configs : List EngineConfig) :
    (configs.foldl merge {}).Overlays configs := by
  induction configs using List.reverseRecOn with
  | nil => exact ⟨by simp, rfl⟩
  | append_singleton configs config ih =>
      rw [List.foldl_append]
      exact ih.snoc config

theorem validate_eq_ok_iff {config : EngineConfig} :
    config.validate = .ok () ↔ ¬ (config.recordTrace = true ∧ config.traceCapacity = 0) := by
  simp [validate]

/-- One of the two records, and the capacity it gets from the other is zero. -/
def Starves (config other : EngineConfig) : Prop :=
  config.recordTrace = true ∧ other.traceCapacity = 0 ∨
    other.recordTrace = true ∧ other.traceCapacity = defaultCapacity ∧ config.traceCapacity = 0

instance (config other : EngineConfig) : Decidable (config.Starves other) :=
  inferInstanceAs (Decidable (_ ∨ _))

theorem validate_merge_eq_ok_iff {config other : EngineConfig} (valid : config.validate = .ok ())
    (valid' : other.validate = .ok ()) :
    (config.merge other).validate = .ok () ↔ ¬ config.Starves other := by
  rw [validate_eq_ok_iff] at valid valid' ⊢
  rw [not_iff_not]
  simp only [merge, Starves, Bool.or_eq_true]
  by_cases same : other.traceCapacity = defaultCapacity
  · have positive : other.traceCapacity ≠ 0 := same ▸ by decide
    grind
  · grind

theorem field_of_validate {config : EngineConfig} {error : EngineConfigError}
    (refused : config.validate = .error error) : error.field = "trace_capacity" := by
  unfold validate at refused
  split at refused
  · cases refused
    rfl
  · cases refused

end EngineConfig

/-! ## The whole configuration -/

namespace HostConfig

instance : Std.Associative merge where
  assoc first second third := by
    have engine := @Std.Associative.assoc _ EngineConfig.merge _
    simp only [merge, Bool.or_assoc, engine, SortedMap.union_assoc]

instance : Std.IdempotentOp merge where
  idempotent config := by
    have engine := @Std.IdempotentOp.idempotent _ EngineConfig.merge _
    simp only [merge, Bool.or_self, engine, SortedMap.union_self]

instance : Std.LawfulIdentity merge {} where
  left_id config := by
    have engine := @Std.LawfulLeftIdentity.left_id _ _ EngineConfig.merge {} _
    simp only [merge, Bool.false_or, engine, SortedMap.empty_union]
  right_id config := by
    have engine := @Std.LawfulRightIdentity.right_id _ _ EngineConfig.merge {} _
    simp only [merge, Bool.or_false, engine]
    rfl

structure Overlays (merged : HostConfig) (configs : List HostConfig) : Prop where
  verbose : merged.verbose = true ↔ ∃ config ∈ configs, config.verbose = true
  failFast : merged.failFast = true ↔ ∃ config ∈ configs, config.failFast = true
  engine : merged.engine.Overlays (configs.map engine)
  option? : ∀ name, merged.option? name = (configs.filterMap (·.option? name)).getLast?

theorem Overlays.snoc {merged : HostConfig} {configs : List HostConfig}
    (overlays : merged.Overlays configs) (config : HostConfig) :
    (merged.merge config).Overlays (configs ++ [config]) where
  verbose := by simp [merge, overlays.verbose, or_and_right, exists_or]
  failFast := by simp [merge, overlays.failFast, or_and_right, exists_or]
  engine := by
    rw [List.map_append]
    exact overlays.engine.snoc config.engine
  option? name := by
    have before := overlays.option? name
    cases defined : config.options.get? name <;>
      simp_all [merge, HostConfig.option?]

theorem overlays_foldl_merge (configs : List HostConfig) :
    (configs.foldl merge {}).Overlays configs := by
  induction configs using List.reverseRecOn with
  | nil => exact ⟨by simp, by simp, ⟨by simp, rfl⟩, fun _ => rfl⟩
  | append_singleton configs config ih =>
      rw [List.foldl_append]
      exact ih.snoc config

theorem blankOption?_eq_none_iff {config : HostConfig} :
    config.blankOption? = none ↔
      ∀ name, config.options.contains name = true → Text.isBlank name = false := by
  simp only [blankOption?, List.find?_eq_none, SortedMap.mem_keys_iff, Bool.not_eq_true]

theorem blankOption?_merge {config other : HostConfig} (named : config.blankOption? = none)
    (named' : other.blankOption? = none) : (config.merge other).blankOption? = none := by
  rw [blankOption?_eq_none_iff] at named named' ⊢
  intro name present
  rw [merge, SortedMap.contains_union, Bool.or_eq_true] at present
  exact present.elim (named name) (named' name)

theorem validate_eq_ok_iff {config : HostConfig} :
    config.validate = .ok () ↔ config.engine.validate = .ok () ∧ config.blankOption? = none := by
  unfold validate
  split
  · simp_all
  · split <;> simp_all

theorem validate_of_engine_error {config : HostConfig} {error : EngineConfigError}
    (refused : config.engine.validate = .error error) :
    config.validate = .error (.engine error) := by
  rw [validate, refused]

end HostConfig

/-- Two valid configurations have a valid merge unless one of them records and takes a zero capacity
from the other, and then it is the capacity for which the merge is refused. -/
theorem merges_valid_unless_starved :
    (∀ config other : EngineConfig, config.validate = .ok () → other.validate = .ok () →
      (¬ config.Starves other → (config.merge other).validate = .ok ()) ∧
      (config.Starves other → ∃ error, (config.merge other).validate = .error error ∧
        error.field = "trace_capacity")) ∧
    ∀ config other : HostConfig, config.validate = .ok () → other.validate = .ok () →
      (¬ config.engine.Starves other.engine → (config.merge other).validate = .ok ()) ∧
      (config.engine.Starves other.engine → ∃ error, (config.merge other).validate = .error error ∧
        error.field? = some "trace_capacity") := by
  have engines : ∀ config other : EngineConfig, config.validate = .ok () →
      other.validate = .ok () → config.Starves other →
      ∃ error, (config.merge other).validate = .error error ∧ error.field = "trace_capacity" := by
    intro config other valid valid' starves
    cases merged : (config.merge other).validate with
    | ok =>
        exact absurd starves ((EngineConfig.validate_merge_eq_ok_iff valid valid').mp merged)
    | error error => exact ⟨error, rfl, EngineConfig.field_of_validate merged⟩
  refine ⟨fun config other valid valid' =>
    ⟨(EngineConfig.validate_merge_eq_ok_iff valid valid').mpr, engines config other valid valid'⟩,
    fun config other valid valid' => ?_⟩
  rw [HostConfig.validate_eq_ok_iff] at valid valid'
  constructor
  · intro fed
    rw [HostConfig.validate_eq_ok_iff]
    exact ⟨(EngineConfig.validate_merge_eq_ok_iff valid.1 valid'.1).mpr fed,
      HostConfig.blankOption?_merge valid.2 valid'.2⟩
  · intro starves
    obtain ⟨error, refused, field⟩ := engines _ _ valid.1 valid'.1 starves
    exact ⟨_, HostConfig.validate_of_engine_error refused, congrArg some field⟩

namespace Sample

def userConfig : HostConfig where
  verbose := true
  engine := { traceCapacity := 16 }
  options := .ofList [("mode", "lax"), ("style", "plain")]

def projectConfig : HostConfig where
  engine := .tracing
  options := .ofList [("mode", "strict")]

def silentConfig : HostConfig where
  engine := { traceCapacity := 0 }

end Sample

theorem merges_valid_unless_starved_traced :
    (Sample.userConfig.merge Sample.projectConfig).validate = .ok () ∧
    ∃ error, (Sample.silentConfig.merge Sample.projectConfig).validate = .error error ∧
      error.field? = some "trace_capacity" := by
  obtain ⟨-, hosts⟩ := merges_valid_unless_starved
  have user : Sample.userConfig.validate = .ok () := by decide
  have project : Sample.projectConfig.validate = .ok () := by decide
  have silent : Sample.silentConfig.validate = .ok () := by decide
  exact ⟨(hosts _ _ user project).1 (by decide), (hosts _ _ silent project).2 (by decide)⟩

/-- Either way round, the merge records and has no room for an event. -/
theorem valid_configs_have_invalid_merge :
    (Sample.projectConfig.validate = .ok () ∧ Sample.silentConfig.validate = .ok () ∧
      (Sample.projectConfig.merge Sample.silentConfig).validate ≠ .ok () ∧
      (Sample.silentConfig.merge Sample.projectConfig).validate ≠ .ok ()) ∧
    Sample.projectConfig.engine.validate = .ok () ∧ Sample.silentConfig.engine.validate = .ok () ∧
      (Sample.projectConfig.engine.merge Sample.silentConfig.engine).validate ≠ .ok () := by
  decide

/-- Configurations are an idempotent monoid under merging.  So the members of a list can be merged
onto the default configuration in any grouping, and what the result says is read off the list. -/
theorem merging_reads_off_members :
    (Std.Associative EngineConfig.merge ∧ Std.IdempotentOp EngineConfig.merge ∧
      Std.LawfulIdentity EngineConfig.merge {}) ∧
    (Std.Associative HostConfig.merge ∧ Std.IdempotentOp HostConfig.merge ∧
      Std.LawfulIdentity HostConfig.merge {}) ∧
    (∀ (configs : List EngineConfig) (grouping : Grouping EngineConfig),
      grouping.members = {} :: configs →
      grouping.combine EngineConfig.merge = configs.foldl EngineConfig.merge {} ∧
        (grouping.combine EngineConfig.merge).Overlays configs) ∧
    ∀ (configs : List HostConfig) (grouping : Grouping HostConfig),
      grouping.members = {} :: configs →
      grouping.combine HostConfig.merge = configs.foldl HostConfig.merge {} ∧
        (grouping.combine HostConfig.merge).Overlays configs := by
  refine ⟨⟨inferInstance, inferInstance, inferInstance⟩,
    ⟨inferInstance, inferInstance, inferInstance⟩, fun configs grouping onto => ?_,
    fun configs grouping onto => ?_⟩
  · have merged : grouping.combine EngineConfig.merge = configs.foldl EngineConfig.merge {} :=
      Grouping.combine_of_members_eq onto
    exact ⟨merged, merged ▸ EngineConfig.overlays_foldl_merge configs⟩
  · have merged : grouping.combine HostConfig.merge = configs.foldl HostConfig.merge {} :=
      Grouping.combine_of_members_eq onto
    exact ⟨merged, merged ▸ HostConfig.overlays_foldl_merge configs⟩

theorem merging_reads_off_members_nested :
    ∃ merged : HostConfig,
      merged = (Grouping.join (.single {}) (.join (.single Sample.userConfig)
        (.single Sample.projectConfig))).combine HostConfig.merge ∧
      merged.verbose = true ∧ merged.engine.recordTrace = true ∧ merged.engine.traceCapacity = 16 ∧
      merged.option? "mode" = some "strict" ∧ merged.option? "style" = some "plain" := by
  obtain ⟨-, -, -, hosts⟩ := merging_reads_off_members
  obtain ⟨-, overlays⟩ := hosts [Sample.userConfig, Sample.projectConfig]
    (.join (.single {}) (.join (.single Sample.userConfig) (.single Sample.projectConfig))) rfl
  refine ⟨_, rfl, overlays.verbose.mpr ⟨Sample.userConfig, by simp, rfl⟩, ?_, ?_, ?_, ?_⟩
  · exact overlays.engine.recordTrace.mpr ⟨.tracing, by simp [Sample.projectConfig], rfl⟩
  · exact overlays.engine.traceCapacity.trans (by decide)
  · exact (overlays.option? "mode").trans (by decide)
  · exact (overlays.option? "style").trans (by decide)

end Sequencer
