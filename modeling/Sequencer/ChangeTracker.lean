import Sequencer.Diagnostic

/-!
# Text edits and change trackers

A tracker collects edits.  Two edits of one file conflict when their spans overlap, and a
tracker never holds two that do.
-/

namespace Sequencer

structure TextEdit where
  file : String
  span : Span
  replacement : String
  deriving DecidableEq, Inhabited

namespace TextEdit

def conflicts (edit other : TextEdit) : Bool :=
  edit.file == other.file && edit.span.overlaps other.span

theorem conflicts_comm (edit other : TextEdit) : edit.conflicts other = other.conflicts edit := by
  simp only [conflicts, Span.overlaps_comm edit.span, BEq.comm (a := edit.file)]

end TextEdit

structure ChangeTracker where
  edits : List TextEdit
  apart : edits.Pairwise fun edit other => edit.conflicts other = false

namespace ChangeTracker

def empty : ChangeTracker := ⟨[], .nil⟩

instance : Inhabited ChangeTracker := ⟨empty⟩

def conflict? (tracker : ChangeTracker) (edit : TextEdit) : Option TextEdit :=
  tracker.edits.find? fun existing => existing.conflicts edit

def conflictReason (edit existing : TextEdit) : String :=
  s!"{edit.file} at {edit.span.text} overlaps an edit at {existing.span.text}"

def record (tracker : ChangeTracker) (edit : TextEdit) : Except CheckError ChangeTracker :=
  match found : tracker.conflict? edit with
  | some existing => .error (.edit (conflictReason edit existing))
  | none => .ok ⟨tracker.edits ++ [edit], by
      rw [List.pairwise_append]
      refine ⟨tracker.apart, List.pairwise_singleton _ _, ?_⟩
      intro existing member other singleton
      obtain rfl := List.mem_singleton.1 singleton
      simpa using List.find?_eq_none.1 found existing member⟩

def size (tracker : ChangeTracker) : Nat := tracker.edits.length

def isEmpty (tracker : ChangeTracker) : Bool := tracker.edits.isEmpty

end ChangeTracker

end Sequencer
