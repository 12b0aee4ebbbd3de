import Sequencer.ChangeTracker
import Sequencer.Sequence
import Sequencer.Source.Program

/-!
# What a host provides to checks

A host adds four capabilities to those of the application it serves: the program, the file
under analysis, a change tracker and the host's options.  Capability values do not change,
so a tracker is handed out as a reference, and the trackers themselves are part of the
world.
-/

namespace Sequencer.Host

abbrev Options := SortedMap String String

structure TrackerRef where
  index : Nat
  deriving DecidableEq

inductive Shape (X : Type) where
  | program
  | sourceFile
  | changeTracker
  | options
  | app (shape : X)
  deriving DecidableEq

structure World (W : Type) where
  trackers : SortedMap Nat ChangeTracker := .empty
  nextTracker : Nat := 0
  app : W

namespace World

variable {W : Type}

def tracker (world : World W) (ref : TrackerRef) : ChangeTracker :=
  (world.trackers.get? ref.index).getD .empty

def setTracker (world : World W) (ref : TrackerRef) (tracker : ChangeTracker) : World W :=
  { world with trackers := world.trackers.insert ref.index tracker }

def newTracker (world : World W) : World W × TrackerRef :=
  ({ world with
      trackers := world.trackers.insert world.nextTracker .empty
      nextTracker := world.nextTracker + 1 },
    ⟨world.nextTracker⟩)

def record (world : World W) (ref : TrackerRef) (edit : TextEdit) :
    World W × Except CheckError Unit :=
  match (world.tracker ref).record edit with
  | .ok tracker => (world.setTracker ref tracker, .ok ())
  | .error error => (world, .error error)

def take (world : World W) (ref : TrackerRef) : World W × List TextEdit :=
  (world.setTracker ref .empty, (world.tracker ref).edits)

end World

def El (app : Signature) : Shape app.Shape → Type
  | .program => Program
  | .sourceFile => SourceFile
  | .changeTracker => TrackerRef
  | .options => Options
  | .app shape => app.El shape

def signature (app : Signature) : Signature where
  World := World app.World
  Shape := Shape app.Shape
  El := El app
  Proc := app.Proc

namespace Key

variable {app : Signature}

def program : Key (signature app) .program := ⟨1, "program"⟩

def sourceFile : Key (signature app) .sourceFile := ⟨2, "source_file"⟩

def changeTracker : Key (signature app) .changeTracker := ⟨3, "change_tracker"⟩

def options : Key (signature app) .options := ⟨4, "host_options"⟩

end Key

def keySupply : KeySupply := ⟨5⟩

end Sequencer.Host
