import Sequencer.Proofs.Determinism

/-!
# Equivalent sequences

Two sequences are equivalent when evaluating the one comes to the same as evaluating the other,
whatever frame and state the evaluation starts from.  Runs cannot tell them apart.
-/

namespace Sequencer

variable {S : Signature} {E A B : Type} {procedures : Procedures S}

def Sequence.Equivalent (procedures : Procedures S) (sequence sequence' : Sequence S E A) : Prop :=
  ∀ (frame : Frame S E) (state : RunState S) (out : Evaluated S E A),
    (∃ history, Runs procedures (.evaluate sequence) frame state history out) ↔
      ∃ history, Runs procedures (.evaluate sequence') frame state history out

namespace Sequence.Equivalent

variable {sequence sequence' : Sequence S E A}

theorem symm (same : sequence.Equivalent procedures sequence') :
    sequence'.Equivalent procedures sequence :=
  fun frame state out => (same frame state out).symm

theorem driven (same : sequence.Equivalent procedures sequence') {frame : Frame S E}
    {state : RunState S} {history : History S} {out : Evaluated S E A}
    (run : Runs procedures (.drive sequence) frame state history out) :
    ∃ history', Runs procedures (.drive sequence') frame state history' out := by
  cases run with
  | drive evaluated drained =>
      obtain ⟨_, evaluated'⟩ := (same _ _ _).mp ⟨_, evaluated⟩
      exact ⟨_, .drive evaluated' drained⟩

theorem completes_iff {interpreter : Interpreter S}
    (same : sequence.Equivalent interpreter.procedures sequence') {context : Context S}
    {world left : S.World} {report : RunReport E A} :
    interpreter.Completes sequence context world report left ↔
      interpreter.Completes sequence' context world report left := by
  simp only [Interpreter.completes_iff_records]
  constructor
  · rintro ⟨history, out, run, reported, gone⟩
    obtain ⟨history', run'⟩ := same.driven run
    exact ⟨history', out, run', reported, gone⟩
  · rintro ⟨history, out, run, reported, gone⟩
    obtain ⟨history', run'⟩ := same.symm.driven run
    exact ⟨history', out, run', reported, gone⟩

end Sequence.Equivalent

/-! ## What the rules say of a construct, as an equivalence -/

namespace Runs

variable {frame : Frame S E} {state : RunState S} {history : History S} {out : Evaluated S E A}

theorem succeed_iff {value : A} :
    Runs procedures (.evaluate (.succeed value)) frame state history out ↔
      history = [] ∧ out = ⟨.ok value, frame, state⟩ := by
  constructor
  · intro run
    cases run
    exact ⟨rfl, rfl⟩
  · rintro ⟨rfl, rfl⟩
    exact .succeed

theorem perform_iff {step : Step S E A} :
    Runs procedures (.evaluate (.perform step)) frame state history out ↔
      Runs procedures (.handle step) frame state history out := by
  constructor
  · intro run
    cases run with
    | perform handled => exact handled
  · exact .perform

theorem routine_iff {body : Routine S E A} :
    Runs procedures (.evaluate (.routine body)) frame state history out ↔
      Runs procedures (.play body) frame state history out := by
  constructor
  · intro run
    cases run with
    | routine played => exact played
  · exact .routine

theorem andThen_iff {first : Sequence S E B} {next : B → Sequence S E A} :
    Runs procedures (.evaluate (.andThen first next)) frame state history out ↔
      (∃ before after value frame' state', history = before ++ after ∧
        Runs procedures (.evaluate first) frame state before ⟨.ok value, frame', state'⟩ ∧
        Runs procedures (.evaluate (next value)) frame' state' after out) ∨
      ∃ interrupt frame' state', out = ⟨.error interrupt, frame', state'⟩ ∧
        Runs procedures (.evaluate first) frame state history
          ⟨.error interrupt, frame', state'⟩ := by
  constructor
  · intro run
    cases run with
    | andThenValue run rest => exact .inl ⟨_, _, _, _, _, rfl, run, rest⟩
    | andThenInterrupt run => exact .inr ⟨_, _, _, rfl, run⟩
  · rintro (⟨_, _, _, _, _, rfl, run, rest⟩ | ⟨_, _, _, rfl, run⟩)
    · exact .andThenValue run rest
    · exact .andThenInterrupt run

theorem ensuring_iff {inner : Sequence S E A} {finalizer : Sequence S E Unit} :
    Runs procedures (.evaluate (.ensuring inner finalizer)) frame state history out ↔
      ∃ before settled frame' state', history = before ++ [.registered frame'.depth finalizer] ∧
        out = ⟨settled, frame'.register finalizer, state'.registered frame'.depth⟩ ∧
        Runs procedures (.evaluate inner) frame state before ⟨settled, frame', state'⟩ := by
  constructor
  · intro run
    cases run with
    | ensuring first => exact ⟨_, _, _, _, rfl, rfl, first⟩
  · rintro ⟨_, _, _, _, rfl, rfl, first⟩
    exact .ensuring first

theorem done_iff {value : A} :
    Runs procedures (.play (.done value)) frame state history out ↔
      history = [] ∧ out = ⟨.ok value, frame, state⟩ := by
  constructor
  · intro run
    cases run
    exact ⟨rfl, rfl⟩
  · rintro ⟨rfl, rfl⟩
    exact .done

end Runs

end Sequencer
