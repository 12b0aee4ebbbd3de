import Sequencer.Files.Path
import Std.Data.TreeMap

/-!
# File trees

The files and directories of a file system, as a value.  Places in the tree are lists of
names, from the top.  The top is the root and the working directory in one, so a path with a
slash in front leads where it does without, and two dots at the top stay there.  `read?`,
`write?`, `makeDir?` and `makeDirs` take paths as text and resolve them as a file system does:
every name on the way has to be a directory.  Only `makeDirs` makes those that are missing.
-/

namespace Sequencer

inductive FileNode where
  | directory
  | file (bytes : ByteArray)

structure FileTree where
  nodes : Std.TreeMap (List String) FileNode := ∅

namespace FileTree

def node? (tree : FileTree) (place : List String) : Option FileNode :=
  if place.isEmpty then some .directory else tree.nodes[place]?

def set (tree : FileTree) (place : List String) (node : FileNode) : FileTree :=
  ⟨tree.nodes.insert place node⟩

theorem node?_set (tree : FileTree) {place : List String} (node : FileNode)
    (below : place ≠ []) (other : List String) :
    (tree.set place node).node? other = if place = other then some node else tree.node? other := by
  simp only [node?, set, Std.TreeMap.getElem?_insert, Std.compare_eq_iff_eq]
  by_cases same : place = other
  · subst same
    simp [below]
  · simp [same]

def isDirectory (tree : FileTree) (place : List String) : Bool :=
  match tree.node? place with
  | some .directory => true
  | _ => false

def next (place : List String) (name : String) : List String :=
  if name = "" ∨ name = "." then place
  else if name = ".." then place.dropLast
  else place ++ [name]

def enter? (tree : FileTree) : List String → List String → Option (List String)
  | [], place => some place
  | name :: rest, place =>
      if tree.isDirectory (next place name) then enter? tree rest (next place name) else none

/-- The place a path ends at, if its last name is a name and leads out of a directory. -/
def place? (tree : FileTree) (path : String) : Option (List String) :=
  if !Files.isAcceptable path then none
  else
    let names := Files.names path
    match names.getLast? with
    | none => none
    | some last =>
        if last = "" ∨ last = "." ∨ last = ".." ∨ Files.maxName < last.utf8ByteSize then none
        else (tree.enter? names.dropLast []).map (· ++ [last])

def read? (tree : FileTree) (path : String) : Option ByteArray := do
  match tree.node? (← tree.place? path) with
  | some (.file bytes) => some bytes
  | _ => none

def write? (tree : FileTree) (path : String) (bytes : ByteArray) : Option FileTree := do
  let place ← tree.place? path
  if tree.isDirectory place then none else some (tree.set place (.file bytes))

/-- Make one directory, inside an existing one and where nothing stands yet.  Slashes at
the end of the path say nothing. -/
def makeDir? (tree : FileTree) (path : String) : Option FileTree := do
  if !Files.isAcceptable path then none
  let place ← tree.place? (Files.dropSlashes path)
  if (tree.node? place).isSome then none else some (tree.set place .directory)

def makeNames (tree : FileTree) : List String → List String → FileTree × Bool
  | [], _ => (tree, true)
  | name :: rest, place =>
      let place := next place name
      match tree.node? place with
      | some .directory => makeNames tree rest place
      | some (.file _) => (tree, false)
      | none =>
          if Files.maxName < name.utf8ByteSize then (tree, false)
          else makeNames (tree.set place .directory) rest place

/-- Make a directory and those above it, and say whether it is there in the end. -/
def makeDirs (tree : FileTree) (path : String) : FileTree × Bool :=
  if path.isEmpty then (tree, true)
  else if !Files.isAcceptable path then (tree, false)
  else tree.makeNames (Files.names path) []

end FileTree

end Sequencer
