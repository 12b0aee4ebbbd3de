import Sequencer.Proofs.Codecs
import Sequencer.Proofs.TomlLines

/-!
# Texts of configurations

Settings that are assigned one after another make up the table that is open, and headers with
settings under them the tables of a document, as long as no name comes twice.  The text of a
configuration is such a document, and what is read from it is the configuration.
-/

namespace Sequencer.Toml

abbrev Settings := List (String × Toml)

namespace Entries

theorem find?_eq_none_iff {entries : Entries} {name : String} :
    find? entries name = none ↔ name ∉ entries.map Prod.fst := by
  simp only [find?, Option.map_eq_none_iff, List.find?_eq_none, beq_iff_eq, List.mem_map,
    not_exists, not_and]

theorem find?_snoc {entries : Entries} {name : String} (fresh : name ∉ entries.map Prod.fst)
    (node : Node) : find? (entries ++ [(name, node)]) name = some node := by
  have absent := find?_eq_none_iff.mpr fresh
  rw [find?, Option.map_eq_none_iff] at absent
  simp [find?, List.find?_append, absent]

theorem set_snoc {entries : Entries} {name : String} (fresh : name ∉ entries.map Prod.fst)
    (node node' : Node) :
    set (entries ++ [(name, node)]) name node' = entries ++ [(name, node')] := by
  have kept : entries.map (fun entry => if entry.1 == name then (name, node') else entry) =
      entries := by
    refine (List.map_congr_left fun entry member => ?_).trans (List.map_id entries)
    have other : entry.1 ≠ name := fun same => fresh (same ▸ List.mem_map_of_mem member)
    simp [other]
  rw [set, find?_snoc fresh, if_pos Option.isSome_some, List.map_append, kept]
  simp

end Entries

def valueEntries (settings : Settings) : Entries :=
  settings.map fun setting => (setting.1, .value setting.2)

def assignments (settings : Settings) : List Statement :=
  settings.map fun setting => .assign ⟨[], setting.1⟩ setting.2

def sectionEntries (sections : List (String × Settings)) : Entries :=
  sections.map fun part => (part.1, .table .header (valueEntries part.2))

def sectionStatements (sections : List (String × Settings)) : List Statement :=
  sections.flatMap fun part => .header ⟨[], part.1⟩ :: assignments part.2

theorem Reads.under (name : String) {chars : List Char} {settings : Settings}
    (reads : Reads chars (assignments settings)) :
    Reads ('\n' :: '[' :: (keyChars name ++ ']' :: '\n' :: chars))
      (.header ⟨[], name⟩ :: assignments settings) := by
  simpa using (Reads.blank.append (.header name)).append reads

theorem names_valueEntries (settings : Settings) :
    (valueEntries settings).map Prod.fst = settings.map Prod.fst := by
  simp [valueEntries]

namespace Document

/-- A change of the table at a path is a change of what stands in a hole of the root. -/
def IsHole (current : List String) (fill : Entries → Entries) : Prop :=
  ∀ (change : Origin → Entries → Option Entries) (inner : Entries),
    Entries.modifyAt false change current .header (fill inner) = (change .header inner).map fill

theorem isHole_root : IsHole [] id := by
  intro change inner
  simp [Entries.modifyAt]

theorem isHole_last {entries : Entries} {name : String} (fresh : name ∉ entries.map Prod.fst) :
    IsHole [name] fun inner => entries ++ [(name, .table .header inner)] := by
  intro change inner
  simp [Entries.modifyAt, Entries.find?_snoc fresh, Entries.set_snoc fresh]

theorem apply_assign {current : List String} {fill : Entries → Entries}
    (hole : IsHole current fill) {inner : Entries} {name : String}
    (fresh : name ∉ inner.map Prod.fst) (value : Toml) :
    apply ⟨fill inner, current⟩ (.assign ⟨[], name⟩ value) =
      some ⟨fill (inner ++ [(name, .value value)]), current⟩ := by
  have absent := Entries.find?_eq_none_iff.mpr fresh
  simp [apply, hole (Entries.assign ⟨[], name⟩ value) inner, Entries.assign, Entries.modifyAt,
    absent]

theorem apply_header {root : Entries} {name : String} (fresh : name ∉ root.map Prod.fst)
    (current : List String) :
    apply ⟨root, current⟩ (.header ⟨[], name⟩) =
      some ⟨root ++ [(name, .table .header [])], [name]⟩ := by
  have absent := Entries.find?_eq_none_iff.mpr fresh
  simp [apply, Entries.openTable, Entries.modifyAt, absent]

theorem foldlM_assignments {current : List String} {fill : Entries → Entries}
    (hole : IsHole current fill) {settings before : Settings}
    (distinct : ((before ++ settings).map Prod.fst).Nodup) :
    (assignments settings).foldlM apply ⟨fill (valueEntries before), current⟩ =
      some ⟨fill (valueEntries (before ++ settings)), current⟩ := by
  induction settings generalizing before with
  | nil => simp [assignments]
  | cons setting settings ih =>
      have fresh : setting.1 ∉ (valueEntries before).map Prod.fst := by
        rw [names_valueEntries]
        intro earlier
        rw [List.map_append, List.nodup_append] at distinct
        exact distinct.2.2 _ earlier _ List.mem_cons_self rfl
      have grown : valueEntries before ++ [(setting.1, .value setting.2)] =
          valueEntries (before ++ [setting]) := by
        simp [valueEntries]
      rw [List.append_cons] at distinct ⊢
      rw [assignments, List.map_cons, List.foldlM_cons, apply_assign hole fresh, grown]
      exact ih distinct

theorem foldlM_sectionStatements {sections : List (String × Settings)} {root : Entries}
    {current : List String} (distinct : (root.map Prod.fst ++ sections.map Prod.fst).Nodup)
    (settled : ∀ part ∈ sections, (part.2.map Prod.fst).Nodup) :
    ∃ last, (sectionStatements sections).foldlM apply ⟨root, current⟩ =
      some ⟨root ++ sectionEntries sections, last⟩ := by
  induction sections generalizing root current with
  | nil => exact ⟨current, by simp [sectionStatements, sectionEntries]⟩
  | cons part sections ih =>
      have fresh : part.1 ∉ root.map Prod.fst := by
        intro earlier
        exact (List.nodup_append.mp distinct).2.2 _ earlier _ List.mem_cons_self rfl
      obtain ⟨settledPart, settledRest⟩ := List.forall_mem_cons.mp settled
      have filled := @foldlM_assignments _ _ (isHole_last fresh) part.2 [] settledPart
      obtain ⟨last, folded⟩ := @ih (root ++ [(part.1, .table .header (valueEntries part.2))])
        [part.1] (by simpa using distinct) settledRest
      refine ⟨last, ?_⟩
      have opened := apply_header fresh current
      rw [valueEntries, List.map_nil, List.nil_append] at filled
      rw [sectionStatements, List.flatMap_cons, List.cons_append, List.foldlM_cons, opened,
        Option.bind_eq_bind, Option.bind_some, List.foldlM_append, filled]
      simpa [sectionEntries, sectionStatements] using folded

end Document

theorem entriesToToml_append (entries more : Entries) :
    entriesToToml (entries ++ more) = entriesToToml entries ++ entriesToToml more := by
  induction entries with
  | nil => rfl
  | cons entry entries ih => simp [entriesToToml, ih]

theorem entriesToToml_valueEntries (settings : Settings) :
    entriesToToml (valueEntries settings) = settings := by
  induction settings with
  | nil => rfl
  | cons setting settings ih =>
      rw [valueEntries] at ih
      simp [valueEntries, entriesToToml, Node.toToml, ih]

theorem entriesToToml_sectionEntries (sections : List (String × Settings)) :
    entriesToToml (sectionEntries sections) =
      sections.map fun part => (part.1, .table part.2) := by
  induction sections with
  | nil => rfl
  | cons part sections ih =>
      rw [sectionEntries] at ih
      simp [sectionEntries, entriesToToml, Node.toToml, entriesToToml_valueEntries, ih]

theorem parse?_of_reads {chars : List Char} {top : Settings} {sections : List (String × Settings)}
    (reads : Reads chars (assignments top ++ sectionStatements sections))
    (unmarked : chars.head? ≠ some '\uFEFF')
    (distinct : (top.map Prod.fst ++ sections.map Prod.fst).Nodup)
    (settled : ∀ part ∈ sections, (part.2.map Prod.fst).Nodup) :
    parse? (String.ofList chars) =
      some (top ++ sections.map fun part => (part.1, .table part.2)) := by
  have filled := @Document.foldlM_assignments _ _ Document.isHole_root top []
    (List.nodup_append.mp distinct).1
  obtain ⟨last, folded⟩ := @Document.foldlM_sectionStatements sections (valueEntries top) []
    (by rwa [names_valueEntries]) settled
  rw [valueEntries, List.map_nil, List.nil_append, id, id] at filled
  rw [parse?, String.toList_ofList]
  split
  · exact absurd rfl unmarked
  · simp [reads.statements?, List.foldlM_append, filled, folded, entriesToToml_append,
      entriesToToml_valueEntries, entriesToToml_sectionEntries]

end Sequencer.Toml

namespace Sequencer

namespace EngineConfig

def settings (config : EngineConfig) : Toml.Settings :=
  [("record_trace", .boolean config.recordTrace),
    ("trace_capacity", .integer config.traceCapacity)]

theorem ofToml?_settings (config : EngineConfig) :
    ofToml? (.table config.settings) = some config := by
  simp [ofToml?, settings, Toml.slots?, Toml.orDefault, Toml.toBool?, Toml.toSize?,
    List.lookup_cons]

end EngineConfig

def Host.Options.settings (options : Host.Options) : Toml.Settings :=
  options.entries.map fun entry => (entry.1, .string entry.2)

theorem Host.Options.reads_settings (options : Host.Options) :
    Toml.Reads
      (options.entries.flatMap fun entry =>
        HostConfig.settingChars entry.1 (Toml.quotedChars entry.2))
      (Toml.assignments options.settings) := by
  rw [Toml.assignments, Host.Options.settings, List.map_map]
  exact .settings Prod.fst (fun entry => Toml.writes_quotedChars entry.2) options.entries

theorem Toml.toText?_eq_some_iff {toml : Toml} {text : String} :
    toText? toml = some text ↔ toml = .string text := by
  cases toml <;> simp [toText?]

theorem Toml.mapM_toText?_eq_some_iff {entries : Toml.Settings} {texts : List (String × String)} :
    entries.mapM (fun entry => (toText? entry.2).map (entry.1, ·)) = some texts ↔
      entries = texts.map fun entry => (entry.1, .string entry.2) := by
  induction entries generalizing texts with
  | nil => cases texts <;> simp
  | cons entry entries ih =>
      simp only [List.mapM_cons, Option.bind_eq_bind, Option.bind_eq_some_iff,
        Option.map_eq_some_iff, toText?_eq_some_iff, ih]
      constructor
      · rintro ⟨_, ⟨text, given, rfl⟩, later, rfl, ⟨⟩⟩
        rw [List.map_cons, ← given]
      · intro whole
        obtain ⟨text, later, rfl, rfl, rfl⟩ := List.map_eq_cons_iff.mp whole.symm
        exact ⟨text, ⟨text.2, rfl, rfl⟩, later, rfl, rfl⟩

theorem Toml.toTexts?_settings (options : Host.Options) :
    toTexts? (.table options.settings) = some options := by
  have texts : options.settings.mapM (fun entry => (toText? entry.2).map (entry.1, ·)) =
      some options.entries :=
    mapM_toText?_eq_some_iff.mpr rfl
  rw [toTexts?, texts, Option.map_some, SortedMap.ofList_entries]

namespace HostConfig

def settings (config : HostConfig) : Toml.Settings :=
  [("verbose", .boolean config.verbose), ("fail_fast", .boolean config.failFast)]

def sections (config : HostConfig) : List (String × Toml.Settings) :=
  [("engine", config.engine.settings), ("options", config.options.settings)]

theorem reads_fileChars {config : HostConfig}
    (small : (config.engine.traceCapacity : Int) < Toml.integerLimit) :
    Toml.Reads config.fileChars
      (Toml.assignments config.settings ++ Toml.sectionStatements config.sections) := by
  have capacity := Toml.writes_toDigits small
  have digits : (toString config.engine.traceCapacity).toList =
      Nat.toDigits 10 config.engine.traceCapacity := by
    simp [toString, Nat.repr]
  have top : Toml.Reads _ (Toml.assignments config.settings) :=
    (Toml.Reads.setting "verbose" (Toml.writes_boolChars config.verbose)).append
      (.setting "fail_fast" (Toml.writes_boolChars config.failFast))
  have engine : Toml.Reads _ (Toml.assignments config.engine.settings) :=
    (Toml.Reads.setting "record_trace" (Toml.writes_boolChars config.engine.recordTrace)).append
      (.setting "trace_capacity" capacity)
  have options := Host.Options.reads_settings config.options
  have engineBare : Toml.keyChars "engine" = "engine".toList := by decide
  have optionsBare : Toml.keyChars "options" = "options".toList := by decide
  have whole := top.append ((engine.under "engine").append (options.under "options"))
  simpa [fileChars, digits, engineBare, optionsBare, Toml.sectionStatements, sections] using whole

theorem parse?_fileChars {config : HostConfig}
    (small : (config.engine.traceCapacity : Int) < Toml.integerLimit) :
    parse? (String.ofList config.fileChars) = some config := by
  have distinct : (config.settings.map Prod.fst ++ config.sections.map Prod.fst).Nodup := by
    simp [settings, sections]
  have settled : ∀ part ∈ config.sections, (part.2.map Prod.fst).Nodup := by
    have options : config.options.settings.map Prod.fst = config.options.keys := by
      simp [Host.Options.settings, SortedMap.keys]
    simp [sections, EngineConfig.settings, options, SortedMap.keys_nodup]
  have unmarked : config.fileChars.head? ≠ some '\uFEFF' := by
    have bare : Toml.keyChars "verbose" = "verbose".toList := by decide
    simp [fileChars, settingChars, bare]
  have parsed := Toml.parse?_of_reads (reads_fileChars small) unmarked distinct settled
  rw [parse?, parsed, Option.bind_some]
  simp [ofToml?, settings, sections, Toml.slots?, Toml.orDefault, Toml.toBool?,
    EngineConfig.ofToml?_settings, Toml.toTexts?_settings, List.lookup_cons]

end HostConfig

end Sequencer
