import Sequencer.Proofs.Sample
import Sequencer.Proofs.Sessions

/-!
# Conflicting edits in a report

A tracker refuses an edit that conflicts with one it holds, and every visit has a tracker of its
own.  A report puts the edits of all visits together, so what it cannot hold is a conflict within
one visit.  Visits to different files may still conflict, if one of them edits a file that it is
not visiting.
-/

namespace Sequencer

variable {app : Signature}

structure RequestedEdit where
  source : String
  edit : TextEdit

def Visit.requestedEdits (visit : Visit app) : List RequestedEdit :=
  if visit.succeeded then visit.recorded.map fun edit => ⟨visit.file.path, edit⟩ else []

theorem Visit.source_of_mem_requestedEdits {visit : Visit app} {request : RequestedEdit}
    (member : request ∈ visit.requestedEdits) : request.source = visit.file.path := by
  unfold requestedEdits at member
  split at member
  · obtain ⟨edit, -, rfl⟩ := List.mem_map.mp member
    rfl
  · cases member

theorem Visit.requestedEdits_apart (visit : Visit app) :
    visit.requestedEdits.Pairwise fun request other =>
      request.edit.conflicts other.edit = false := by
  unfold requestedEdits
  split
  · rw [List.pairwise_map]
    exact (visit.finish.tracker visit.tracker).apart
  · exact .nil

theorem map_edit_requestedEdits (visits : List (Visit app)) :
    (visits.flatMap Visit.requestedEdits).map RequestedEdit.edit =
      (visits.filter Visit.succeeded).flatMap Visit.recorded := by
  induction visits with
  | nil => rfl
  | cons visit visits ih =>
      cases success : visit.succeeded <;> simp [Visit.requestedEdits, Function.comp_def, success, ih]

theorem TextEdit.file_eq_of_conflicts {edit other : TextEdit}
    (conflict : edit.conflicts other = true) : edit.file = other.file := by
  rw [conflicts, Bool.and_eq_true, beq_iff_eq] at conflict
  exact conflict.1

/-- The edits were recorded on visits to different files, and not both to the file they edit. -/
def RequestedEdit.Crosses (request other : RequestedEdit) : Prop :=
  request.source ≠ other.source ∧
    (request.edit.file ≠ request.source ∨ other.edit.file ≠ other.source)

theorem RequestedEdit.crosses_of_conflicts {request other : RequestedEdit}
    (differ : request.source ≠ other.source)
    (conflict : request.edit.conflicts other.edit = true) : request.Crosses other := by
  have same : request.edit.file = other.edit.file := TextEdit.file_eq_of_conflicts conflict
  refine ⟨differ, ?_⟩
  by_contra! own
  exact differ (own.1.symm.trans (same.trans own.2))

theorem requestedEdits_cross {visits : List (Visit app)}
    (distinct : (visits.map (·.file.path)).Nodup) :
    (visits.flatMap Visit.requestedEdits).Pairwise fun request other =>
      request.edit.conflicts other.edit = true → request.Crosses other := by
  rw [List.pairwise_flatMap]
  constructor
  · intro visit _
    apply visit.requestedEdits_apart.imp
    intro request other apart conflict
    simp [apart] at conflict
  · have apart : visits.Pairwise fun visit other => visit.file.path ≠ other.file.path :=
      List.pairwise_map.mp distinct
    apply apart.imp
    intro visit other differ request member request' member' conflict
    apply RequestedEdit.crosses_of_conflicts _ conflict
    rw [Visit.source_of_mem_requestedEdits member, Visit.source_of_mem_requestedEdits member']
    exact differ

/-- Two conflicting edits of a report were recorded on visits to different files, and at least one
of the visits was not to the file it edits.  So where every visit edits its own file only, no two
edits of the report conflict. -/
theorem edits_conflict_across_files_only {session : Session app} {check : Check app} {fuel : Nat}
    {world left : Host.World app.World} {report : AnalysisReport}
    (analyzed : session.analyze fuel check world = .ok (report, left)) :
    ∃ visits rest, session.program.files = visits.map Visit.file ++ rest ∧
      session.Visits check world visits left ∧
      report.edits = (visits.flatMap Visit.requestedEdits).map RequestedEdit.edit ∧
      ((visits.flatMap Visit.requestedEdits).Pairwise fun request other =>
        request.edit.conflicts other.edit = true → request.Crosses other) ∧
      ((∀ request ∈ visits.flatMap Visit.requestedEdits, request.edit.file = request.source) →
        report.edits.Pairwise fun edit other => edit.conflicts other = false) := by
  obtain ⟨visits, rest, files, visited, -, rfl⟩ := Session.visits_of_analyzeFiles analyzed
  have distinct := Session.nodup_paths_visited files
  have edits : (AnalysisReport.addVisits {} visits).edits =
      (visits.flatMap Visit.requestedEdits).map RequestedEdit.edit := by
    rw [map_edit_requestedEdits]
    exact (Session.summarizes_addVisits files).edits
  refine ⟨visits, rest, files, visited, edits, requestedEdits_cross distinct, ?_⟩
  intro own
  rw [edits, List.pairwise_map]
  apply (requestedEdits_cross distinct).imp_of_mem
  intro request other member member' crosses
  by_contra conflict
  obtain ⟨-, foreign⟩ := crosses (Bool.not_eq_false _ ▸ conflict)
  exact foreign.elim (absurd (own request member)) (absurd (own other member'))

namespace Sample

def session : Session signature where
  config := {}
  program := ⟨[⟨"a", "xx"⟩, ⟨"b", "yy"⟩], by decide⟩
  procedures := ⟨nofun⟩

def editing (path : String) : Check signature :=
  (Host.recordEdit ⟨path, ⟨0, 1⟩, "z"⟩).andThen fun _ => .succeed []

end Sample

theorem edits_conflict_across_files_only_twice : ∃ report left,
    Sample.session.analyze 9 (Sample.editing "a") { app := [] } = .ok (report, left) ∧
    report.edits = [⟨"a", ⟨0, 1⟩, "z"⟩, ⟨"a", ⟨0, 1⟩, "z"⟩] ∧
    ∃ requests : List RequestedEdit, report.edits = requests.map RequestedEdit.edit ∧
      requests.Pairwise fun request other =>
        request.edit.conflicts other.edit = true → request.Crosses other := by
  have analyzed : Sample.session.analyze 9 (Sample.editing "a") { app := [] } = .ok (_, _) := rfl
  obtain ⟨visits, _, -, -, edits, cross, -⟩ := edits_conflict_across_files_only analyzed
  exact ⟨_, _, analyzed, rfl, _, edits, cross⟩

/-- An edit of one file that is made on the visits to two stands twice in the report. -/
theorem foreign_edits_conflict : ∃ report left,
    Sample.session.analyze 9 (Sample.editing "a") { app := [] } = .ok (report, left) ∧
    ¬ report.edits.Pairwise fun edit other => edit.conflicts other = false := by
  have analyzed : Sample.session.analyze 9 (Sample.editing "a") { app := [] } = .ok (_, _) := rfl
  exact ⟨_, _, analyzed, by decide⟩

end Sequencer
