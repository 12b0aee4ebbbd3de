import Sequencer.Proofs.Authoring
import Sequencer.Proofs.DepthShift
import Mathlib.Data.List.Forall2

/-!
# Equations between sequences

`andThen` and `succeed` behave as a monad, `orElse` chains like it on the side of failures, and
building a sequence late is building it at once.  These are equations up to `Equivalent`: frames,
journals and worlds come out the same, not only results.  What is equivalent may be exchanged
under every combinator.
-/

namespace Sequencer

variable {S : Signature} {E F A B C : Type} {procedures : Procedures S}

namespace Runs

variable {frame : Frame S E} {state : RunState S} {history : History S} {out : Evaluated S E A}

theorem effect_iff {act : S.World → S.World × B} {next : B → Sequence S E A} :
    Runs procedures (.evaluate (.effect act next)) frame state history out ↔
      Runs procedures (.evaluate (next (act state.world).2)) frame
        { state with world := (act state.world).1 } history out := by
  constructor
  · intro run
    cases run with
    | effect after => exact after
  · intro after
    exact .effect after

end Runs

namespace Sequence

def Evaluates (procedures : Procedures S) (sequence : Sequence S E A) (frame : Frame S E)
    (state : RunState S) (out : Evaluated S E A) : Prop :=
  ∃ n, (Machine.level procedures n).eval sequence frame state = .ok out

def Refines (procedures : Procedures S) (sequence sequence' : Sequence S E A) : Prop :=
  ∀ {frame : Frame S E} {state : RunState S} {history : History S} {out : Evaluated S E A},
    Runs procedures (.evaluate sequence) frame state history out →
      ∃ history', Runs procedures (.evaluate sequence') frame state history' out

namespace Equivalent

variable {sequence sequence' : Sequence S E A}

theorem refines (same : sequence.Equivalent procedures sequence') :
    sequence.Refines procedures sequence' :=
  fun run => (same _ _ _).mp ⟨_, run⟩

theorem of_refines (forth : sequence.Refines procedures sequence')
    (back : sequence'.Refines procedures sequence) : sequence.Equivalent procedures sequence' := by
  intro frame state out
  constructor
  · rintro ⟨history, run⟩
    exact forth run
  · rintro ⟨history, run⟩
    exact back run

theorem of_runs_iff (same : ∀ {frame : Frame S E} {state : RunState S} {history : History S}
    {out : Evaluated S E A}, Runs procedures (.evaluate sequence) frame state history out ↔
      Runs procedures (.evaluate sequence') frame state history out) :
    sequence.Equivalent procedures sequence' :=
  of_refines (fun run => ⟨_, same.mp run⟩) (fun run => ⟨_, same.mpr run⟩)

theorem refl (sequence : Sequence S E A) : sequence.Equivalent procedures sequence :=
  of_runs_iff Iff.rfl

theorem trans {sequence'' : Sequence S E A} (first : sequence.Equivalent procedures sequence')
    (second : sequence'.Equivalent procedures sequence'') :
    sequence.Equivalent procedures sequence'' :=
  fun frame state out => (first frame state out).trans (second frame state out)

instance : Trans (Equivalent (E := E) (A := A) procedures) (Equivalent procedures)
    (Equivalent procedures) :=
  ⟨trans⟩

theorem iff_eval : sequence.Equivalent procedures sequence' ↔
    ∀ (frame : Frame S E) (state : RunState S) (out : Evaluated S E A),
      (∃ n, (Machine.level procedures n).eval sequence frame state = .ok out) ↔
        ∃ n, (Machine.level procedures n).eval sequence' frame state = .ok out := by
  simp only [Equivalent, eval_iff_runs]

theorem evaluates_iff (same : sequence.Equivalent procedures sequence') {frame : Frame S E}
    {state : RunState S} {out : Evaluated S E A} :
    sequence.Evaluates procedures frame state out ↔
      sequence'.Evaluates procedures frame state out :=
  iff_eval.mp same frame state out

end Equivalent

/-! ## Equations -/

theorem succeed_andThen (value : A) (next : A → Sequence S E B) :
    ((Sequence.succeed value).andThen next).Equivalent procedures (next value) := by
  apply Equivalent.of_runs_iff
  intro frame state history out
  constructor
  · intro run
    cases run with
    | andThenValue first second =>
        cases first
        exact second
    | andThenInterrupt first => cases first
  · intro run
    exact .andThenValue .succeed run

theorem andThen_succeed (sequence : Sequence S E A) :
    (sequence.andThen .succeed).Equivalent procedures sequence := by
  apply Equivalent.of_runs_iff
  intro frame state history out
  constructor
  · intro run
    cases run with
    | andThenValue first second =>
        cases second
        rwa [List.append_nil]
    | andThenInterrupt first => exact first
  · intro run
    obtain ⟨settled, frame', state'⟩ := out
    cases settled with
    | ok value =>
        have whole : Runs procedures (.evaluate (sequence.andThen .succeed)) frame state
            (history ++ []) ⟨.ok value, frame', state'⟩ := .andThenValue run .succeed
        rwa [List.append_nil] at whole
    | error interrupt => exact .andThenInterrupt run

theorem andThen_assoc (sequence : Sequence S E A) (next : A → Sequence S E B)
    (last : B → Sequence S E C) :
    ((sequence.andThen next).andThen last).Equivalent procedures
      (sequence.andThen fun value => (next value).andThen last) := by
  apply Equivalent.of_runs_iff
  intro frame state history out
  constructor
  · intro run
    cases run with
    | andThenValue both third =>
        cases both with
        | andThenValue first second =>
            rw [List.append_assoc]
            exact .andThenValue first (.andThenValue second third)
    | andThenInterrupt both =>
        cases both with
        | andThenValue first second => exact .andThenValue first (.andThenInterrupt second)
        | andThenInterrupt first => exact .andThenInterrupt first
  · intro run
    cases run with
    | andThenValue first rest =>
        cases rest with
        | andThenValue second third =>
            rw [← List.append_assoc]
            exact .andThenValue (.andThenValue first second) third
        | andThenInterrupt second => exact .andThenInterrupt (.andThenValue first second)
    | andThenInterrupt first => exact .andThenInterrupt (.andThenInterrupt first)

theorem map_equivalent (sequence : Sequence S E A) (f : A → B) :
    (sequence.map f).Equivalent procedures (sequence.andThen fun value => .succeed (f value)) :=
  .refl _

theorem suspend_equivalent (sequence : Sequence S E A) :
    (suspend fun _ => sequence).Equivalent procedures sequence :=
  .of_runs_iff Runs.effect_iff

theorem succeed_orElse (value : A) (recover : E → Sequence S E A) :
    ((Sequence.succeed value).orElse recover).Equivalent procedures (.succeed value) := by
  apply Equivalent.of_runs_iff
  intro frame state history out
  constructor
  · intro run
    cases run with
    | foldValue first second =>
        cases first
        exact second
    | foldFailure first second => cases first
    | foldDefect first => cases first
  · intro run
    exact .foldValue .succeed run

theorem orElse_assoc (sequence : Sequence S E A) (recover again : E → Sequence S E A) :
    ((sequence.orElse recover).orElse again).Equivalent procedures
      (sequence.orElse fun error => (recover error).orElse again) := by
  apply Equivalent.of_runs_iff
  intro frame state history out
  constructor
  · intro run
    cases run with
    | foldValue both third =>
        cases both with
        | foldValue first second =>
            rw [List.append_assoc]
            cases second
            exact .foldValue first third
        | foldFailure first second =>
            rw [List.append_assoc, List.cons_append]
            exact .foldFailure first (.foldValue second third)
    | foldFailure both third =>
        cases both with
        | foldValue first second => cases second
        | foldFailure first second =>
            rw [List.append_assoc, List.cons_append]
            exact .foldFailure first (.foldFailure second third)
    | foldDefect both =>
        cases both with
        | foldValue first second => cases second
        | foldFailure first second => exact .foldFailure first (.foldDefect second)
        | foldDefect first => exact .foldDefect first
  · intro run
    cases run with
    | foldValue first second =>
        have inner : Runs procedures (.evaluate (sequence.orElse recover)) frame state (_ ++ []) _ :=
          .foldValue first .succeed
        rw [List.append_nil] at inner
        exact .foldValue inner second
    | foldFailure first rest =>
        cases rest with
        | foldValue second third =>
            rw [← List.cons_append, ← List.append_assoc]
            exact .foldValue (.foldFailure first second) third
        | foldFailure second third =>
            rw [← List.cons_append, ← List.append_assoc]
            exact .foldFailure (.foldFailure first second) third
        | foldDefect second => exact .foldDefect (.foldFailure first second)
    | foldDefect first => exact .foldDefect (.foldDefect first)

/-! ## Congruence -/

namespace Equivalent

variable {sequence sequence' : Sequence S E A}

theorem wrapped {wrap : Sequence S E A → Sequence S F B}
    (same : sequence.Equivalent procedures sequence')
    (refines : ∀ {sequence sequence' : Sequence S E A},
      sequence.Equivalent procedures sequence' →
        (wrap sequence).Refines procedures (wrap sequence')) :
    (wrap sequence).Equivalent procedures (wrap sequence') :=
  of_refines (refines same) (refines same.symm)

theorem nests (same : sequence.Equivalent procedures sequence') {frame : Frame S E}
    {state : RunState S} {history : History S} {out : Evaluated S E A}
    (run : Runs procedures (.nest sequence) frame state history out) :
    ∃ history', Runs procedures (.nest sequence') frame state history' out := by
  cases run with
  | nest driven =>
      obtain ⟨_, driven'⟩ := same.driven driven
      exact ⟨_, .nest driven'⟩

theorem attempts (same : sequence.Equivalent procedures sequence') {frame : Frame S F}
    {state : RunState S} {history : History S} {out : Evaluated S F (Outcome E A)}
    (run : Runs procedures (.attempt sequence) frame state history out) :
    ∃ history', Runs procedures (.attempt sequence') frame state history' out := by
  obtain ⟨_, _, nested, rfl, rfl⟩ := run.inverted
  obtain ⟨_, nested'⟩ := same.nests nested
  exact ⟨_, .attempt nested'⟩

theorem andThen {next next' : A → Sequence S E B} (same : sequence.Equivalent procedures sequence')
    (sameNext : ∀ value, (next value).Equivalent procedures (next' value)) :
    (sequence.andThen next).Equivalent procedures (sequence'.andThen next') := by
  have refines : ∀ {sequence sequence' : Sequence S E A} {next next' : A → Sequence S E B},
      sequence.Equivalent procedures sequence' →
      (∀ value, (next value).Equivalent procedures (next' value)) →
      (sequence.andThen next).Refines procedures (sequence'.andThen next') := by
    intro sequence sequence' next next' same sameNext frame state history out run
    cases run with
    | andThenValue first second =>
        obtain ⟨_, first'⟩ := same.refines first
        obtain ⟨_, second'⟩ := (sameNext _).refines second
        exact ⟨_, .andThenValue first' second'⟩
    | andThenInterrupt first =>
        obtain ⟨_, first'⟩ := same.refines first
        exact ⟨_, .andThenInterrupt first'⟩
  exact of_refines (refines same sameNext) (refines same.symm fun value => (sameNext value).symm)

theorem andThen_right (sequence : Sequence S E A) {next next' : A → Sequence S E B}
    (sameNext : ∀ value, (next value).Equivalent procedures (next' value)) :
    (sequence.andThen next).Equivalent procedures (sequence.andThen next') :=
  (refl sequence).andThen sameNext

theorem map (same : sequence.Equivalent procedures sequence') (f : A → B) :
    (sequence.map f).Equivalent procedures (sequence'.map f) :=
  same.andThen fun _ => refl _

theorem map_andThen (sequence : Sequence S E A) (f : A → B) (next : B → Sequence S E C) :
    ((sequence.map f).andThen next).Equivalent procedures
      (sequence.andThen fun value => next (f value)) :=
  (andThen_assoc sequence _ next).trans
    (andThen_right sequence fun value => succeed_andThen (f value) next)

theorem map_map (sequence : Sequence S E A) (f : A → B) (g : B → C) :
    ((sequence.map f).map g).Equivalent procedures (sequence.map fun value => g (f value)) :=
  map_andThen sequence f _

theorem orElse {recover recover' : E → Sequence S E A}
    (same : sequence.Equivalent procedures sequence')
    (sameRecover : ∀ error, (recover error).Equivalent procedures (recover' error)) :
    (sequence.orElse recover).Equivalent procedures (sequence'.orElse recover') := by
  have refines : ∀ {sequence sequence' : Sequence S E A} {recover recover' : E → Sequence S E A},
      sequence.Equivalent procedures sequence' →
      (∀ error, (recover error).Equivalent procedures (recover' error)) →
      (sequence.orElse recover).Refines procedures (sequence'.orElse recover') := by
    intro sequence sequence' recover recover' same sameRecover frame state history out run
    cases run with
    | foldValue first second =>
        obtain ⟨_, first'⟩ := same.refines first
        exact ⟨_, .foldValue first' second⟩
    | foldFailure first second =>
        obtain ⟨_, first'⟩ := same.refines first
        obtain ⟨_, second'⟩ := (sameRecover _).refines second
        exact ⟨_, .foldFailure first' second'⟩
    | foldDefect first =>
        obtain ⟨_, first'⟩ := same.refines first
        exact ⟨_, .foldDefect first'⟩
  exact of_refines (refines same sameRecover)
    (refines same.symm fun error => (sameRecover error).symm)

/-- `either` and `mapErr` are both of this form. -/
theorem attempt (same : sequence.Equivalent procedures sequence')
    (next : Option (Outcome E A) → Routine S F B) :
    (Sequence.routine (.attempt sequence next)).Equivalent procedures
      (.routine (.attempt sequence' next)) := by
  apply same.wrapped
  intro sequence sequence' same frame state history out run
  cases run with
  | routine played =>
      cases played with
      | attemptValue first second =>
          obtain ⟨_, first'⟩ := same.attempts first
          exact ⟨_, .routine (.attemptValue first' second)⟩
      | attemptInterrupt first =>
          obtain ⟨_, first'⟩ := same.attempts first
          exact ⟨_, .routine (.attemptInterrupt first')⟩

theorem provideLayer (same : sequence.Equivalent procedures sequence') (layer : Layer S) :
    (sequence.provideLayer layer).Equivalent procedures (sequence'.provideLayer layer) := by
  apply same.wrapped
  intro sequence sequence' same frame state history out run
  obtain ⟨inner, nested, rfl⟩ := Runs.provideLayer_iff.mp run
  obtain ⟨history', nested'⟩ := same.nests nested
  exact ⟨history', Runs.provideLayer_iff.mpr ⟨inner, nested', rfl⟩⟩

theorem ensuring (same : sequence.Equivalent procedures sequence') (finalizer : Sequence S E Unit) :
    (sequence.ensuring finalizer).Equivalent procedures (sequence'.ensuring finalizer) := by
  apply same.wrapped
  intro sequence sequence' same frame state history out run
  cases run with
  | ensuring first =>
      obtain ⟨_, first'⟩ := same.refines first
      exact ⟨_, .ensuring first'⟩

theorem collect {members members' : List (Sequence S E A)}
    (same : List.Forall₂ (Equivalent procedures) members members') (values : List A) :
    (Sequence.routine (.collect members values)).Equivalent procedures
      (.routine (.collect members' values)) := by
  have refines : ∀ {members members' : List (Sequence S E A)},
      List.Forall₂ (Equivalent procedures) members members' → ∀ (values : List A)
        {frame : Frame S E} {state : RunState S} {history : History S}
        {out : Evaluated S E (List A)},
      Runs procedures (.play (.collect members values)) frame state history out →
        ∃ history', Runs procedures (.play (.collect members' values)) frame state history' out := by
    intro members members' same
    induction same with
    | nil =>
        intro values frame state history out run
        exact ⟨_, run⟩
    | @cons member _ _ _ head _ ih =>
        intro values frame state history out run
        obtain ⟨_, _, _, _, _, rfl, first, second⟩ | ⟨_, _, _, rfl, first⟩ :=
          (Runs.call_iff (.bind member) _).mp run
        · obtain ⟨_, first'⟩ := head.refines first
          obtain ⟨_, second'⟩ := ih _ second
          exact ⟨_, .bindValue first' second'⟩
        · obtain ⟨_, first'⟩ := head.refines first
          exact ⟨_, .bindInterrupt first'⟩
  intro frame state out
  simp only [Runs.routine_iff]
  constructor
  · rintro ⟨history, run⟩
    exact refines same values run
  · rintro ⟨history, run⟩
    exact refines (same.flip.imp fun _ _ => symm) values run

theorem all {members members' : List (Sequence S E A)}
    (same : List.Forall₂ (Equivalent procedures) members members') :
    (Sequence.all members).Equivalent procedures (Sequence.all members') := by
  cases same with
  | nil => exact refl _
  | cons head tail => exact collect (.cons head tail) []

end Equivalent

end Sequence

end Sequencer
