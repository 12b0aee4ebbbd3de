import Sequencer.Source.File

/-!
# Programs

The files of one analysis, one per path, in the order their paths first came.
-/

namespace Sequencer

structure Program where
  files : List SourceFile
  distinct : (files.map SourceFile.path).Nodup

namespace Program

def empty : Program := ⟨[], .nil⟩

instance : Inhabited Program := ⟨empty⟩

def replace (file : SourceFile) (files : List SourceFile) : List SourceFile :=
  files.map fun existing => if existing.path = file.path then file else existing

theorem paths_replace (file : SourceFile) (files : List SourceFile) :
    (replace file files).map SourceFile.path = files.map SourceFile.path := by
  induction files with
  | nil => rfl
  | cons existing rest ih =>
      simp only [replace, List.map_cons] at ih ⊢
      rw [ih]
      split <;> simp_all

/-- Add a file, or replace the one of its path where it stands. -/
def add (program : Program) (file : SourceFile) : Program :=
  if present : file.path ∈ program.files.map SourceFile.path then
    ⟨replace file program.files, paths_replace file program.files ▸ program.distinct⟩
  else
    ⟨program.files ++ [file], by
      rw [List.map_append, List.nodup_append]
      refine ⟨program.distinct, by simp, ?_⟩
      intro path member other singleton same
      simp only [List.map_cons, List.map_nil, List.mem_singleton] at singleton
      exact present (singleton ▸ same ▸ member)⟩

def ofFiles (files : List SourceFile) : Program :=
  files.foldl add empty

def file? (program : Program) (path : String) : Option SourceFile :=
  program.files.find? fun file => file.path == path

def size (program : Program) : Nat := program.files.length

def isEmpty (program : Program) : Bool := program.files.isEmpty

end Program

end Sequencer
