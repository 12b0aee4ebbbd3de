import Sequencer.Proofs.ConfigTexts
import Sequencer.Proofs.FileTrees
import Sequencer.Proofs.Merging
import Mathlib.Algebra.Group.Nat.Defs

/-!
# Configuration files

A configuration whose capacity the format can express is written to every path that can be written
to, and is read back from there, or refused there with the error that validating it gives.  Any
other configuration is refused before a file is touched.  What a file describes has each setting
that the file leaves out at its default.
-/

namespace Sequencer

namespace Toml

variable {A : Type}

/-- A setting is what the value given for it says, and its default where none is given. -/
def Given (default : A) (means : A → Toml → Prop) (slot : Option Toml) (setting : A) : Prop :=
  match slot with
  | none => setting = default
  | some toml => means setting toml

theorem orDefault_eq_some_iff {default setting : A} {decode : Toml → Option A}
    {means : A → Toml → Prop} (law : ∀ toml value, decode toml = some value ↔ means value toml)
    {slot : Option Toml} :
    orDefault default decode slot = some setting ↔ Given default means slot setting := by
  cases slot with
  | none => simp [orDefault, Given, eq_comm]
  | some toml => exact law toml setting

def IsFlag (flag : Bool) (toml : Toml) : Prop :=
  toml = .boolean flag

def IsSize (size : Nat) (toml : Toml) : Prop :=
  toml = .integer size

/-- Texts under names; a date or a time is one text. -/
inductive AreTexts : SortedMap String String → Toml → Prop
  | table (texts : List (String × String)) :
      AreTexts (.ofList texts) (.table (texts.map fun entry => (entry.1, .string entry.2)))
  | datetime (value : Datetime) :
      AreTexts (.ofList [(datetimeName, value.text)]) (.datetime value)

theorem toBool?_eq_some_iff (toml : Toml) (flag : Bool) :
    toBool? toml = some flag ↔ IsFlag flag toml := by
  cases toml <;> simp [toBool?, IsFlag]

theorem toSize?_eq_some_iff (toml : Toml) (size : Nat) :
    toSize? toml = some size ↔ IsSize size toml := by
  cases toml with
  | integer value =>
      simp only [toSize?, IsSize, integer.injEq]
      split
      · simp only [Option.some.injEq]
        omega
      · simp only [reduceCtorEq, false_iff]
        omega
  | _ => simp [toSize?, IsSize]

theorem toTexts?_eq_some_iff (toml : Toml) (texts : SortedMap String String) :
    toTexts? toml = some texts ↔ AreTexts texts toml := by
  constructor
  · intro given
    cases toml with
    | table entries =>
        obtain ⟨list, read, rfl⟩ := Option.map_eq_some_iff.mp given
        rw [mapM_toText?_eq_some_iff.mp read]
        exact .table list
    | datetime value =>
        cases given
        exact .datetime value
    | _ => cases given
  · rintro (list | value)
    · rw [toTexts?, mapM_toText?_eq_some_iff.mpr rfl, Option.map_some]
    · rfl

end Toml

namespace EngineConfig

structure Takes (config : EngineConfig) (record capacity : Option Toml) : Prop where
  recordTrace : Toml.Given false Toml.IsFlag record config.recordTrace
  traceCapacity : Toml.Given defaultCapacity Toml.IsSize capacity config.traceCapacity

inductive Is (config : EngineConfig) : Toml → Prop
  | table (entries : List (String × Toml))
      (takes : config.Takes (entries.lookup "record_trace") (entries.lookup "trace_capacity")) :
      Is config (.table entries)
  | array (items : List Toml) (takes : config.Takes items[0]? items[1]?) : Is config (.array items)
  | datetime (value : Toml.Datetime) (takes : config.Takes none none) : Is config (.datetime value)

theorem ofToml?_of_slots {toml : Toml} {record capacity : Option Toml}
    (given : toml.slots? ["record_trace", "trace_capacity"] = some [record, capacity])
    {config : EngineConfig} : ofToml? toml = some config ↔ config.Takes record capacity := by
  simp only [ofToml?, given, Option.bind_eq_bind, Option.bind_eq_some_iff, Option.pure_def,
    Option.some.injEq, Toml.orDefault_eq_some_iff Toml.toBool?_eq_some_iff,
    Toml.orDefault_eq_some_iff Toml.toSize?_eq_some_iff]
  constructor
  · rintro ⟨record, recordTrace, capacity, traceCapacity, rfl⟩
    exact ⟨recordTrace, traceCapacity⟩
  · intro takes
    exact ⟨_, takes.recordTrace, _, takes.traceCapacity, rfl⟩

theorem ofToml?_eq_some_iff (toml : Toml) (config : EngineConfig) :
    ofToml? toml = some config ↔ config.Is toml := by
  cases toml with
  | table entries =>
      rw [ofToml?_of_slots rfl]
      exact ⟨.table entries, fun is => by cases is; assumption⟩
  | array items =>
      rw [ofToml?_of_slots rfl]
      exact ⟨.array items, fun is => by cases is; assumption⟩
  | datetime value =>
      rw [@ofToml?_of_slots (.datetime value) none none (by simp [Toml.slots?, Toml.datetimeName])]
      exact ⟨.datetime value, fun is => by cases is; assumption⟩
  | _ =>
      constructor
      · intro given
        cases given
      · intro is
        cases is

end EngineConfig

namespace HostConfig

structure DescribedBy (config : HostConfig) (entries : List (String × Toml)) : Prop where
  verbose : Toml.Given false Toml.IsFlag (entries.lookup "verbose") config.verbose
  failFast : Toml.Given false Toml.IsFlag (entries.lookup "fail_fast") config.failFast
  engine : Toml.Given {} EngineConfig.Is (entries.lookup "engine") config.engine
  options : Toml.Given .empty Toml.AreTexts (entries.lookup "options") config.options

theorem ofToml?_table_eq_some_iff {entries : List (String × Toml)} {config : HostConfig} :
    ofToml? (.table entries) = some config ↔ config.DescribedBy entries := by
  simp only [ofToml?, Toml.slots?, List.map_cons, List.map_nil, Option.bind_eq_bind,
    Option.bind_eq_some_iff, Option.pure_def, Option.some.injEq,
    Toml.orDefault_eq_some_iff Toml.toBool?_eq_some_iff,
    Toml.orDefault_eq_some_iff EngineConfig.ofToml?_eq_some_iff,
    Toml.orDefault_eq_some_iff Toml.toTexts?_eq_some_iff]
  constructor
  · rintro ⟨_, verbose, _, failFast, _, engine, _, options, rfl⟩
    exact ⟨verbose, failFast, engine, options⟩
  · intro described
    exact ⟨_, described.verbose, _, described.failFast, _, described.engine, _, described.options,
      rfl⟩

/-! ## Faults -/

structure LeastBlank (config : HostConfig) (name : String) : Prop where
  named : config.options.contains name = true
  blank : Text.isBlank name = true
  least : ∀ other, config.options.contains other = true → Text.isBlank other = true →
    other = name ∨ compare name other = .lt

theorem LeastBlank.unique {config : HostConfig} {name other : String}
    (first : config.LeastBlank name) (second : config.LeastBlank other) : name = other := by
  rcases first.least other second.named second.blank with same | below
  · exact same.symm
  · rcases second.least name first.named first.blank with same | above
    · exact same
    · exact absurd above (Std.OrientedCmp.not_lt_of_lt below)

theorem leastBlank_of_blankOption? {config : HostConfig} {name : String}
    (found : config.blankOption? = some name) : config.LeastBlank name where
  named := SortedMap.mem_keys_iff.mp (List.mem_of_find?_eq_some found)
  blank := List.find?_some found
  least other named blank := by
    obtain ⟨-, before, after, split, clear⟩ := List.find?_eq_some_iff_append.mp found
    have ascending : config.options.keys.Pairwise fun a b => compare a b = .lt :=
      List.pairwise_map.mpr config.options.sorted
    rw [← SortedMap.mem_keys_iff, split, List.mem_append, List.mem_cons] at named
    rw [split, List.pairwise_append, List.pairwise_cons] at ascending
    rcases named with early | same | late
    · have named : Text.isBlank other = false := by simpa using clear other early
      rw [blank] at named
      contradiction
    · exact .inl same
    · exact .inr (ascending.2.1.1 other late)

theorem blankOption?_eq_some_iff {config : HostConfig} {name : String} :
    config.blankOption? = some name ↔ config.LeastBlank name := by
  refine ⟨leastBlank_of_blankOption?, fun first => ?_⟩
  cases found : config.blankOption? with
  | none =>
      have clear := blankOption?_eq_none_iff.mp found name first.named
      rw [first.blank] at clear
      contradiction
  | some other => rw [(leastBlank_of_blankOption? found).unique first]

/-- What is wrong with a configuration.  The engine's part comes first. -/
inductive Fault (config : HostConfig) : ConfigError → Prop
  | engine {error : EngineConfigError} (refused : config.engine.validate = .error error) :
      Fault config (.engine error)
  | blank {name : String} (sound : config.engine.validate = .ok ())
      (first : config.LeastBlank name) : Fault config (.blankOption name)

theorem validate_eq_error_iff {config : HostConfig} {error : ConfigError} :
    config.validate = .error error ↔ config.Fault error := by
  constructor
  · intro refused
    rw [validate] at refused
    split at refused
    · next unsound =>
        cases refused
        exact .engine unsound
    · next sound =>
        split at refused
        · next found =>
            cases refused
            exact .blank sound (leastBlank_of_blankOption? found)
        · cases refused
  · rintro (unsound | ⟨sound, first⟩)
    · exact validate_of_engine_error unsound
    · rw [validate, sound, blankOption?_eq_some_iff.mpr first]

/-! ## Saving and loading -/

theorem render?_eq_some {config : HostConfig} (small : config.engine.traceCapacity ≤ 2 ^ 63 - 1) :
    config.render? = some (String.ofList config.fileChars) := by
  have limit : Toml.integerLimit.toNat = 2 ^ 63 := by decide
  exact if_pos (by omega)

theorem render?_eq_none {config : HostConfig} (large : 2 ^ 63 - 1 < config.engine.traceCapacity) :
    config.render? = none := by
  have limit : Toml.integerLimit.toNat = 2 ^ 63 := by decide
  exact if_neg (by omega)

theorem writeText_eq_ok_iff {text : String} {tree tree' : FileTree} {path : String} :
    writeText text tree path = (tree', .ok ()) ↔ tree.write? path text.toUTF8 = some tree' := by
  rw [writeText]
  cases tree.write? path text.toUTF8 <;> simp

theorem save_eq_ok_iff {config : HostConfig} {text : String} (rendered : config.render? = some text)
    {tree tree' : FileTree} {path : String} :
    config.save tree path = (tree', .ok ()) ↔
      Files.NamesFile path ∧ ∃ parent,
        tree.Makes (Files.above path) [] (tree.makeDirs parent) ∧
        Files.parent? path = some parent ∧ (tree.makeDirs parent).2 = true ∧
        (tree.makeDirs parent).1.write? path text.toUTF8 = some tree' := by
  rw [save, rendered]
  by_cases file : Files.NamesFile path
  · obtain ⟨parent, cut, makes⟩ := FileTree.exists_makes_parent file tree
    rcases result : tree.makeDirs parent with ⟨made, done⟩
    rw [result] at makes
    cases done <;> simp [cut, result, file, makes, writeText_eq_ok_iff]
  · have refused : ∀ made : FileTree, writeText text made path ≠ (tree', .ok ()) := by
      intro made saved
      exact file (FileTree.namesFile_of_write? (writeText_eq_ok_iff.mp saved))
    simp only [file, false_and, iff_false]
    split
    · exact refused tree
    · split
      · simp
      · exact refused _

theorem saves_iff_writable {config : HostConfig} {text : String}
    (rendered : config.render? = some text) {tree : FileTree} {path : String} :
    (∃ tree', config.save tree path = (tree', .ok ())) ↔ tree.Writable path := by
  simp only [save_eq_ok_iff rendered]
  constructor
  · rintro ⟨tree', file, parent, makes, -, done, written⟩
    exact (makes.writes_iff_writable file text.toUTF8).mp ⟨done, tree', written⟩
  · intro writable
    obtain ⟨parent, cut, makes⟩ := FileTree.exists_makes_parent writable.file tree
    obtain ⟨done, tree', written⟩ :=
      (makes.writes_iff_writable writable.file text.toUTF8).mpr writable
    exact ⟨tree', writable.file, parent, makes, cut, done, written⟩

theorem node?_of_save {config : HostConfig} {text : String} (rendered : config.render? = some text)
    {tree tree' : FileTree} {path : String} (saved : config.save tree path = (tree', .ok ()))
    {other : List String} (apart : other ≠ FileTree.target path)
    (off : other ∉ FileTree.passed path) : tree'.node? other = tree.node? other := by
  obtain ⟨-, parent, makes, -, done, written⟩ := (save_eq_ok_iff rendered).mp saved
  obtain ⟨-, -, rfl⟩ := FileTree.write?_eq_some_iff.mp written
  have below : FileTree.target path ≠ [] := by simp [FileTree.target]
  rw [FileTree.node?_set _ _ below, if_neg (Ne.symm apart), makes.nodes done]
  exact if_neg off

theorem fromUTF8?_eq_some_iff {bytes : ByteArray} {text : String} :
    String.fromUTF8? bytes = some text ↔ bytes = text.toUTF8 := by
  unfold String.fromUTF8?
  split
  · next valid =>
      rw [Option.some.injEq]
      constructor
      · rintro rfl
        rfl
      · rintro rfl
        rfl
  · next invalid =>
      simp only [reduceCtorEq, false_iff]
      rintro rfl
      exact invalid text.isValidUTF8

theorem load_of_save {config : HostConfig} {tree tree' : FileTree} {path : String}
    (small : config.engine.traceCapacity ≤ 2 ^ 63 - 1)
    (saved : config.save tree path = (tree', .ok ())) :
    load tree' path = config.validate.map fun _ => config := by
  have fits : (config.engine.traceCapacity : Int) < Toml.integerLimit := by
    have limit : Toml.integerLimit = 2 ^ 63 := by decide
    omega
  obtain ⟨-, parent, -, -, -, written⟩ := (save_eq_ok_iff (render?_eq_some small)).mp saved
  have read := FileTree.read?_of_write? written
  rw [load, read, Option.bind_some, fromUTF8?_eq_some_iff.mpr rfl]
  simp only [parse?_fileChars fits]
  cases config.validate <;> rfl

theorem parse?_eq_some_iff {text : String} {config : HostConfig} :
    parse? text = some config ↔
      ∃ entries, Toml.parse? text = some entries ∧ config.DescribedBy entries := by
  simp only [parse?, Option.bind_eq_some_iff, ofToml?_table_eq_some_iff]

theorem load_eq_ok_iff {tree : FileTree} {path : String} {config : HostConfig} :
    load tree path = .ok config ↔ config.validate = .ok () ∧ ∃ text entries,
      tree.read? path = some (String.toUTF8 text) ∧ Toml.parse? text = some entries ∧
        config.DescribedBy entries := by
  constructor
  · intro loaded
    unfold load at loaded
    split at loaded
    · cases loaded
    · next text given =>
        obtain ⟨bytes, read, decoded⟩ := Option.bind_eq_some_iff.mp given
        obtain rfl := fromUTF8?_eq_some_iff.mp decoded
        split at loaded
        · cases loaded
        · next parsed =>
            split at loaded
            · cases loaded
            · next valid =>
                cases loaded
                obtain ⟨entries, described⟩ := parse?_eq_some_iff.mp parsed
                exact ⟨valid, text, entries, read, described⟩
  · rintro ⟨valid, text, entries, read, described⟩
    have parsed := parse?_eq_some_iff.mpr ⟨entries, described⟩
    rw [load, read, Option.bind_some, fromUTF8?_eq_some_iff.mpr rfl]
    simp only [parsed, valid]

end HostConfig

namespace Sample

def escapedConfig : HostConfig where
  verbose := true
  engine := { recordTrace := true, traceCapacity := 9223372036854775807 }
  options := .ofList [("a.b", "two\nlines"), ("say \"hi\"", "\\"), ("bell", "\x07")]

def blankNamesConfig : HostConfig where
  options := .ofList [("mode", "strict"), (" ", "space"), ("\t", "tab")]

def boundlessConfig : HostConfig where
  engine := { traceCapacity := 9223372036854775808 }

def settingsTree : FileTree :=
  FileTree.set {} ["etc"] .directory

end Sample

end Sequencer
