import Sequencer.Proofs.Determinism
import Sequencer.Proofs.RunInvariant
import Sequencer.Proofs.Sample

/-!
# Defects

A defect is raised by a request the context cannot answer and by an abort token that no
handle issued.  Nothing in a run takes one back: the first of them is the exit of the run.
-/

namespace Sequencer

variable {S : Signature} {E A : Type}

def Moment.defect? : Moment S → Option Defect
  | .unresolved _ capability => some (.unresolvedCapability capability.name capability.id)
  | .detached _ => some .detachedAbort
  | _ => none

def defects (history : History S) : List Defect :=
  history.filterMap Moment.defect?

@[simp] theorem defects_nil : defects ([] : History S) = [] := rfl

@[simp] theorem defects_cons (moment : Moment S) (history : History S) :
    defects (moment :: history) = moment.defect?.toList ++ defects history := by
  cases h : moment.defect? <;> simp [defects, h]

@[simp] theorem defects_append (before after : History S) :
    defects (before ++ after) = defects before ++ defects after :=
  List.filterMap_append

@[simp] theorem defects_moments (discarded : Discarded E) (depth : Nat) :
    defects (discarded.moments depth : History S) = [] := by
  cases discarded <;> rfl

def Interrupt.defect? : Interrupt E → Option Defect
  | .failed _ => none
  | .defect cause => some cause

def Settled.defect? : Settled E A → Option Defect
  | .ok _ => none
  | .error interrupt => interrupt.defect?

theorem Settled.defect?_absorb (settled : Settled E A) (result : Settled E Unit) :
    (settled.absorb result).1.defect? = settled.defect?.or result.defect? := by
  rcases settled with (_ | _) | _ <;> rcases result with (_ | _) | _ <;> rfl

@[simp] theorem Settled.defect?_ofExit {F : Type} (settled : Settled F A) :
    (Settled.ofExit (settled.exit .ok .err) : Settled E (Outcome F A)).defect? =
      settled.defect? := by
  rcases settled with (_ | _) | _ <;> rfl

def firstDefect (S : Signature) : RunInvariant S where
  Within _ _ history out := out.settled.defect? = (defects history).head?
  Nested _ _ _ history out := out.settled.defect? = (defects history).head?
  Driven _ _ _ history out := out.settled.defect? = (defects history).head?
  Drained settled _ _ history out :=
    out.settled.defect? = settled.defect?.or (defects history).head?
  value _ _ _ := rfl
  acted h := h
  followed first second := by
    rw [defects_append, List.head?_append, ← first]
    exact second
  interrupted _ h := h
  recovered first second := by
    rw [defects_append, List.head?_append, ← first]
    exact second
  registered _ h := by
    rw [defects_append, List.head?_append, ← h]
    exact (Option.or_none).symm
  resolved _ _ _ := rfl
  unresolved _ _ _ := rfl
  failed _ _ _ := rfl
  detached _ _ := rfl
  nested h := h
  attempted h := by
    rw [defects_append, List.head?_append, ← h, Settled.defect?_ofExit]
    exact (Option.or_none).symm
  bracketed h := by
    simpa [Moment.defect?] using h
  driven body drain := by
    rw [body] at drain
    simpa [Moment.defect?] using drain
  drained _ := by
    exact (Option.or_none).symm
  finalized _ result drain := by
    rw [Settled.defect?_absorb, result] at drain
    simpa [Moment.defect?, Option.or_assoc] using drain

/-- A run ends with the defect raised first, and with an outcome if none is raised. -/
theorem first_defect_wins {interpreter : Interpreter S} {sequence : Sequence S E A}
    {context : Context S} {world left : S.World} {report : RunReport E A}
    (completes : interpreter.Completes sequence context world report left) :
    (∃! history, interpreter.Records sequence context world history report left) ∧
    ∀ history, interpreter.Records sequence context world history report left →
      (∀ defect, report.exit = .error defect ↔ (defects history).head? = some defect) ∧
      ((∃ outcome, report.exit = .ok outcome) ↔ defects history = []) := by
  refine ⟨completes.existsUnique_records, ?_⟩
  rintro history ⟨out, run, rfl, rfl⟩
  have first : out.settled.defect? = (defects history).head? := (firstDefect S).of_runs run
  rw [← List.head?_eq_none_iff, ← first]
  obtain ⟨settled, frame, state⟩ := out
  rcases settled with (error | cause) | value <;>
    simp [Interpreter.report, Evaluated.driven, Settled.exit, Settled.defect?, Interrupt.defect?]

def swallowedDefect : Sequence Sample.signature String Nat :=
  .ensuring
    (.routine (.bind ((Sequence.service (Sample.key 1 "reader")).orElse fun _ => .succeed 0)
      fun _ => .done 7))
    ((Sequence.service (Sample.key 2 "writer")).map fun _ => ())

theorem first_defect_wins_swallowed : ∃ report left,
    Sample.interpreter.Completes swallowedDefect .empty [] report left ∧
    report.exit = .error (.unresolvedCapability "reader" 1) ∧
    ∃ history, Sample.interpreter.Records swallowedDefect .empty [] history report left ∧
      (defects history).head? = some (.unresolvedCapability "reader" 1) := by
  have completes : Sample.interpreter.Completes swallowedDefect .empty [] _ _ := ⟨6, rfl⟩
  obtain ⟨⟨history, records, _⟩, exits⟩ := first_defect_wins completes
  exact ⟨_, _, completes, rfl, history, records, ((exits history records).1 _).mp rfl⟩

end Sequencer
