import Sequencer.Toml.Text

/-!
# Building TOML tables

A table can come to be in three ways: by its own header, because a longer header or key
passes through it, or by a dotted key.  What may be added to it later depends on which.
`Entries.assign` adds a value under a dotted key, `Entries.openTable` a table under a
header, and `Entries.openElement` an element of an array of tables.
-/

namespace Sequencer.Toml

inductive Origin where
  | header
  | passed
  | dotted
  deriving DecidableEq

inductive Node where
  | value (value : Toml)
  | table (origin : Origin) (entries : List (String × Node))
  /-- An array of tables, the newest element first. -/
  | tables (elements : List (List (String × Node)))

abbrev Entries := List (String × Node)

namespace Entries

def find? (entries : Entries) (name : String) : Option Node :=
  (List.find? (fun entry => entry.1 == name) entries).map Prod.snd

def set (entries : Entries) (name : String) (node : Node) : Entries :=
  if (find? entries name).isSome then
    entries.map fun entry => if entry.1 == name then (name, node) else entry
  else
    entries ++ [(name, node)]

/-- Change the table at a path, making the tables on the way that are missing.  A dotted
key cannot pass a table that has its own header; no path passes a value, and one that
meets an array of tables goes on in its last element. -/
def modifyAt (dotted : Bool) (change : Origin → Entries → Option Entries) :
    List String → Origin → Entries → Option Entries
  | [], origin, entries => change origin entries
  | name :: path, _, entries =>
      match find? entries name with
      | none =>
          let origin := if dotted then .dotted else .passed
          (modifyAt dotted change path origin []).map fun inner =>
            set entries name (.table origin inner)
      | some (.value _) => none
      | some (.table origin inner) =>
          if dotted && origin == .header then none
          else
            (modifyAt dotted change path origin inner).map fun inner =>
              set entries name (.table origin inner)
      | some (.tables []) => none
      | some (.tables (last :: older)) =>
          (modifyAt dotted change path .header last).map fun last =>
            set entries name (.tables (last :: older))

/-- Add a value.  The table that takes it must be the one at hand or a dotted one, and must
not have the name yet. -/
def assign (key : DottedKey) (value : Toml) (origin : Origin) (entries : Entries) :
    Option Entries :=
  modifyAt true
    (fun origin entries =>
      if !key.path.isEmpty && origin != .dotted then none
      else if (find? entries key.name).isSome then none
      else some (entries ++ [(key.name, .value value)]))
    key.path origin entries

/-- Open a table under its header: a new one, or one that was only passed so far. -/
def openTable (key : DottedKey) (entries : Entries) : Option Entries :=
  modifyAt false
    (fun _ entries =>
      match find? entries key.name with
      | none => some (entries ++ [(key.name, .table .header [])])
      | some (.table .passed inner) => some (set entries key.name (.table .header inner))
      | some _ => none)
    key.path .header entries

def openElement (key : DottedKey) (entries : Entries) : Option Entries :=
  modifyAt false
    (fun _ entries =>
      match find? entries key.name with
      | none => some (entries ++ [(key.name, .tables [[]])])
      | some (.tables elements) => some (set entries key.name (.tables ([] :: elements)))
      | some _ => none)
    key.path .header entries

end Entries

mutual

def Node.toToml : Node → Toml
  | .value value => value
  | .table _ entries => .table (entriesToToml entries)
  | .tables elements => .array (elementsToToml elements).reverse

def entriesToToml : List (String × Node) → List (String × Toml)
  | [] => []
  | (name, node) :: rest => (name, node.toToml) :: entriesToToml rest

def elementsToToml : List (List (String × Node)) → List Toml
  | [] => []
  | element :: rest => .table (entriesToToml element) :: elementsToToml rest

end

end Sequencer.Toml
