import Sequencer.Files.Tree
import Sequencer.Host.Config
import Sequencer.Toml.Document
import Sequencer.Toml.Text

/-!
# Configuration files

A host configuration is stored as TOML.  Every setting has a default, so any part of a
file may be left out.  A table of settings may also be given as an array of them in their
own order, where items beyond the last are skipped; a date or a time counts as a table of
one entry.  `HostConfig.save` writes a file and `HostConfig.load` reads one back and
validates it.
-/

namespace Sequencer

namespace Toml

/-- The name of the one entry that a date or a time has as a table. -/
def datetimeName : String := "$__toml_private_datetime"

/-- What a value gives for each setting of a table, `none` for one left to its default. -/
def slots? (names : List String) : Toml → Option (List (Option Toml))
  | .table entries => some (names.map fun name => entries.lookup name)
  | .array items => some ((List.range names.length).map fun index => items[index]?)
  | .datetime value =>
      some (names.map fun name => if name = datetimeName then some (.string value.text) else none)
  | _ => none

variable {A : Type}

def orDefault (value : A) (decode : Toml → Option A) : Option Toml → Option A
  | none => some value
  | some toml => decode toml

def toBool? : Toml → Option Bool
  | .boolean value => some value
  | _ => none

def toText? : Toml → Option String
  | .string text => some text
  | _ => none

def toSize? : Toml → Option Nat
  | .integer value => if 0 ≤ value then some value.toNat else none
  | _ => none

def toTexts? : Toml → Option (SortedMap String String)
  | .table entries =>
      (entries.mapM fun entry => (toText? entry.2).map (entry.1, ·)).map SortedMap.ofList
  | .datetime value => some (SortedMap.ofList [(datetimeName, value.text)])
  | _ => none

end Toml

def EngineConfig.ofToml? (toml : Toml) : Option EngineConfig :=
  match toml.slots? ["record_trace", "trace_capacity"] with
  | some [record, capacity] => do
      return {
        recordTrace := ← Toml.orDefault false Toml.toBool? record
        traceCapacity := ← Toml.orDefault defaultCapacity Toml.toSize? capacity }
  | _ => none

namespace HostConfig

def ofToml? (toml : Toml) : Option HostConfig :=
  match toml.slots? ["verbose", "fail_fast", "engine", "options"] with
  | some [verbose, failFast, engine, options] => do
      return {
        verbose := ← Toml.orDefault false Toml.toBool? verbose
        failFast := ← Toml.orDefault false Toml.toBool? failFast
        engine := ← Toml.orDefault {} EngineConfig.ofToml? engine
        options := ← Toml.orDefault .empty Toml.toTexts? options }
  | _ => none

def parse? (text : String) : Option HostConfig :=
  (Toml.parse? text).bind fun entries => ofToml? (.table entries)

def settingChars (name : String) (value : List Char) : List Char :=
  Toml.keyChars name ++ " = ".toList ++ value ++ ['\n']

def boolChars (value : Bool) : List Char :=
  (if value then "true" else "false").toList

def fileChars (config : HostConfig) : List Char :=
  settingChars "verbose" (boolChars config.verbose) ++
  settingChars "fail_fast" (boolChars config.failFast) ++
  "\n[engine]\n".toList ++
  settingChars "record_trace" (boolChars config.engine.recordTrace) ++
  settingChars "trace_capacity" (toString config.engine.traceCapacity).toList ++
  "\n[options]\n".toList ++
  config.options.entries.flatMap fun entry => settingChars entry.1 (Toml.quotedChars entry.2)

/-- The text of a configuration file.  A capacity beyond the integers of the format has
none. -/
def render? (config : HostConfig) : Option String :=
  if config.engine.traceCapacity < Toml.integerLimit.toNat then
    some (String.ofList config.fileChars)
  else
    none

def load (tree : FileTree) (path : String) : Except ConfigError HostConfig :=
  match (tree.read? path).bind String.fromUTF8? with
  | none => .error (.io path)
  | some text =>
      match parse? text with
      | none => .error (.parse path)
      | some config =>
          match config.validate with
          | .error error => .error error
          | .ok () => .ok config

def writeText (text : String) (tree : FileTree) (path : String) :
    FileTree × Except ConfigError Unit :=
  match tree.write? path text.toUTF8 with
  | some tree => (tree, .ok ())
  | none => (tree, .error (.io path))

/-- Write a configuration to a path, making the directories above it.  A configuration
without a text changes nothing. -/
def save (config : HostConfig) (tree : FileTree) (path : String) :
    FileTree × Except ConfigError Unit :=
  match config.render? with
  | none => (tree, .error .serialize)
  | some text =>
      match Files.parent? path with
      | none => writeText text tree path
      | some parent =>
          match tree.makeDirs parent with
          | (tree, false) => (tree, .error (.io parent))
          | (tree, true) => writeText text tree path

end HostConfig

end Sequencer
