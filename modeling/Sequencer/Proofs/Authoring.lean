import Sequencer.Proofs.Equivalence
import Sequencer.Proofs.Latch

/-!
# Routines and combinators

A script is a routine that makes one call after another, passes every abort on and returns a
value.  Each of its calls has a combinator that does the same, and making one call after another
is what `andThen` does.  The routine hands interrupts on by its latch, the combinators by
unwinding; a run does not show which of them was written.
-/

namespace Sequencer

variable {S : Signature} {E A B : Type} {procedures : Procedures S}

/-! ## Calls -/

def Call.sequence : {B : Type} → Call S E B → Sequence S E B
  | _, .perform (.request key) => .service key
  | _, .perform (.fail error) => .fail error
  | _, .perform (.nested layer body) => body.provideLayer layer
  | _, .perform (.finalize finalizer) => .ensuring (.succeed ()) finalizer
  | _, .bind inner => inner
  | _, .attempt inner => inner.either

def Call.task : {B : Type} → Call S E B → Task S E B
  | _, .perform step => .handle step
  | _, .bind inner => .evaluate inner
  | _, .attempt inner => .attempt inner

section

variable {frame : Frame S E} {state : RunState S} {history : History S}

theorem Runs.call_iff (call : Call S E B) (next : Option B → Routine S E A)
    {out : Evaluated S E A} :
    Runs procedures (.play (.call call next)) frame state history out ↔
      (∃ before after value frame' state', history = before ++ after ∧
        Runs procedures call.task frame state before ⟨.ok value, frame', state'⟩ ∧
        Runs procedures (.play (next (some value))) frame' state' after out) ∨
      ∃ interrupt frame' state',
        out = ⟨.error interrupt, frame',
          { state' with world := (next none).aftermath frame' state'.world }⟩ ∧
        Runs procedures call.task frame state history ⟨.error interrupt, frame', state'⟩ := by
  cases call with
  | perform step =>
      constructor
      · intro run
        cases run with
        | performValue run rest => exact .inl ⟨_, _, _, _, _, rfl, run, rest⟩
        | performInterrupt run => exact .inr ⟨_, _, _, rfl, run⟩
      · rintro (⟨_, _, _, _, _, rfl, run, rest⟩ | ⟨_, _, _, rfl, run⟩)
        · exact .performValue run rest
        · exact .performInterrupt run
  | bind inner =>
      constructor
      · intro run
        cases run with
        | bindValue run rest => exact .inl ⟨_, _, _, _, _, rfl, run, rest⟩
        | bindInterrupt run => exact .inr ⟨_, _, _, rfl, run⟩
      · rintro (⟨_, _, _, _, _, rfl, run, rest⟩ | ⟨_, _, _, rfl, run⟩)
        · exact .bindValue run rest
        · exact .bindInterrupt run
  | attempt inner =>
      constructor
      · intro run
        cases run with
        | attemptValue run rest => exact .inl ⟨_, _, _, _, _, rfl, run, rest⟩
        | attemptInterrupt run => exact .inr ⟨_, _, _, rfl, run⟩
      · rintro (⟨_, _, _, _, _, rfl, run, rest⟩ | ⟨_, _, _, rfl, run⟩)
        · exact .attemptValue run rest
        · exact .attemptInterrupt run

theorem Runs.finalize_iff {finalizer : Sequence S E Unit} {out : Evaluated S E Unit} :
    Runs procedures (.evaluate (.ensuring (.succeed ()) finalizer)) frame state history out ↔
      Runs procedures (.handle (.finalize finalizer)) frame state history out := by
  rw [Runs.ensuring_iff]
  constructor
  · rintro ⟨_, _, _, _, rfl, rfl, first⟩
    obtain ⟨rfl, ⟨⟩⟩ := Runs.succeed_iff.mp first
    exact .finalize
  · intro run
    obtain ⟨rfl, rfl⟩ := run.inverted
    exact ⟨[], _, _, _, rfl, rfl, .succeed⟩

theorem Runs.either_iff {F : Type} {inner : Sequence S F B} {out : Evaluated S E (Outcome F B)} :
    Runs procedures (.evaluate inner.either) frame state history out ↔
      Runs procedures (.attempt inner) frame state history out := by
  rw [Sequence.either, Runs.routine_iff]
  refine (Runs.call_iff (.attempt inner) _).trans ?_
  constructor
  · rintro (⟨_, _, _, _, _, rfl, run, rest⟩ | ⟨_, _, _, rfl, run⟩)
    · obtain ⟨rfl, rfl⟩ := Runs.done_iff.mp rest
      rw [List.append_nil]
      exact run
    · exact run
  · intro run
    obtain ⟨settled, frame', state'⟩ := out
    cases settled with
    | ok outcome => exact .inl ⟨history, [], _, _, _, (List.append_nil _).symm, run, .done⟩
    | error interrupt => exact .inr ⟨_, _, _, rfl, run⟩

theorem Call.runs_iff (call : Call S E B) {out : Evaluated S E B} :
    Runs procedures (.evaluate call.sequence) frame state history out ↔
      Runs procedures call.task frame state history out := by
  cases call with
  | perform step =>
      cases step with
      | request key => exact Runs.perform_iff
      | fail error => exact Runs.perform_iff
      | nested layer body => exact Runs.perform_iff
      | finalize finalizer => exact Runs.finalize_iff
  | bind inner => exact Iff.rfl
  | attempt inner => exact Runs.either_iff

end

/-! ## Scripts -/

inductive Script (S : Signature) (E A : Type) : Type 1 where
  | done (value : A)
  | effect {B : Type} (act : S.World → S.World × B) (next : B → Script S E A)
  | call {B : Type} (call : Call S E B) (next : B → Script S E A)

def Routine.propagate (next : B → Routine S E A) : Option B → Routine S E A
  | some value => next value
  | none => .abort

namespace Script

def routine : Script S E A → Routine S E A
  | .done value => .done value
  | .effect act next => .effect act fun answer => (next answer).routine
  | .call asked next => .call asked (.propagate fun value => (next value).routine)

def sequence : Script S E A → Sequence S E A
  | .done value => .succeed value
  | .effect act next => .effect act fun answer => (next answer).sequence
  | .call asked next => asked.sequence.andThen fun value => (next value).sequence

theorem plays_iff_evaluates (script : Script S E A) {frame : Frame S E} {state : RunState S}
    {history : History S} {out : Evaluated S E A} :
    Runs procedures (.play script.routine) frame state history out ↔
      Runs procedures (.evaluate script.sequence) frame state history out := by
  induction script generalizing frame state history with
  | done value => rw [routine, sequence, Runs.done_iff, Runs.succeed_iff]
  | effect act next ih =>
      constructor
      · intro run
        cases run with
        | act after => exact .effect ((ih _).mp after)
      · intro run
        cases run with
        | effect after => exact .act ((ih _).mpr after)
  | call asked next ih =>
      rw [routine, sequence, Runs.call_iff, Runs.andThen_iff]
      simp only [Call.runs_iff, Routine.propagate, Routine.aftermath, ih]

theorem equivalent (script : Script S E A) :
    (Sequence.routine script.routine).Equivalent procedures script.sequence := by
  intro frame state out
  simp only [Runs.routine_iff, plays_iff_evaluates]

end Script

/-- A script run as a routine and its translation to combinators give the same report, trace and
statistics included, and leave the same world. -/
theorem authoring_surfaces_agree (interpreter : Interpreter S) (script : Script S E A)
    (context : Context S) (world : S.World) (report : RunReport E A) (left : S.World) :
    interpreter.Completes (.routine script.routine) context world report left ↔
      interpreter.Completes script.sequence context world report left :=
  script.equivalent.completes_iff

end Sequencer
