import Sequencer.Proofs.Laws
import Sequencer.Proofs.Sample

/-!
# Finalizers in exchange for others

A finalizer runs later, and in a frame of its own.  Where it is registered, all that shows of it is
that there is one, so frames that differ in their finalizers only let everything happen in the same
way until they are drained.  Exchanging finalizers for equivalent ones, anywhere in a program and
in the procedures it calls, is therefore not noticed by any run of it.
-/

namespace Sequencer

variable {S : Signature} {E A B : Type}

/-! ## Programs that differ in finalizers -/

mutual

def Step.Swapped {S : Signature}
    (swap : {E : Type} → Sequence S E Unit → Sequence S E Unit → Prop) :
    {E A : Type} → Step S E A → Step S E A → Prop
  | _, _, .request key, other => other = .request key
  | _, _, .fail error, other => other = .fail error
  | _, _, .nested layer body, other =>
      ∃ body', other = .nested layer body' ∧ body.Swapped swap body'
  | _, _, .finalize finalizer, other =>
      ∃ finalizer', other = .finalize finalizer' ∧
        (swap finalizer finalizer' ∨ finalizer.Swapped swap finalizer')

def Sequence.Swapped {S : Signature}
    (swap : {E : Type} → Sequence S E Unit → Sequence S E Unit → Prop) :
    {E A : Type} → Sequence S E A → Sequence S E A → Prop
  | _, _, .succeed value, other => other = .succeed value
  | _, _, .perform step, other => ∃ step', other = .perform step' ∧ step.Swapped swap step'
  | _, _, .effect act next, other =>
      ∃ next', other = .effect act next' ∧ ∀ answer, (next answer).Swapped swap (next' answer)
  | _, _, .call proc, other => other = .call proc
  | _, _, .andThen inner next, other =>
      ∃ inner' next', other = .andThen inner' next' ∧ inner.Swapped swap inner' ∧
        ∀ value, (next value).Swapped swap (next' value)
  | _, _, .fold inner next recover, other =>
      ∃ inner' next' recover', other = .fold inner' next' recover' ∧ inner.Swapped swap inner' ∧
        (∀ value, (next value).Swapped swap (next' value)) ∧
        ∀ error, (recover error).Swapped swap (recover' error)
  | _, _, .ensuring inner finalizer, other =>
      ∃ inner' finalizer', other = .ensuring inner' finalizer' ∧ inner.Swapped swap inner' ∧
        (swap finalizer finalizer' ∨ finalizer.Swapped swap finalizer')
  | _, _, .routine body, other => ∃ body', other = .routine body' ∧ body.Swapped swap body'

def Routine.Swapped {S : Signature}
    (swap : {E : Type} → Sequence S E Unit → Sequence S E Unit → Prop) :
    {E A : Type} → Routine S E A → Routine S E A → Prop
  | _, _, .done value, other => other = .done value
  | _, _, .abort, other => other = .abort
  | _, _, .effect act next, other =>
      ∃ next', other = .effect act next' ∧ ∀ answer, (next answer).Swapped swap (next' answer)
  | _, _, .perform step next, other =>
      ∃ step' next', other = .perform step' next' ∧ step.Swapped swap step' ∧
        ∀ answer, (next answer).Swapped swap (next' answer)
  | _, _, .bind inner next, other =>
      ∃ inner' next', other = .bind inner' next' ∧ inner.Swapped swap inner' ∧
        ∀ answer, (next answer).Swapped swap (next' answer)
  | _, _, .attempt inner next, other =>
      ∃ inner' next', other = .attempt inner' next' ∧ inner.Swapped swap inner' ∧
        ∀ answer, (next answer).Swapped swap (next' answer)
  | _, _, .depth next, other =>
      ∃ next', other = .depth next' ∧ ∀ answer, (next answer).Swapped swap (next' answer)
  | _, _, .context next, other =>
      ∃ next', other = .context next' ∧ ∀ answer, (next answer).Swapped swap (next' answer)

end

section

variable (swap : {E : Type} → Sequence S E Unit → Sequence S E Unit → Prop)

def Procedures.Swapped (procedures procedures' : Procedures S) : Prop :=
  ∀ {E A : Type} (proc : S.Proc E A), (procedures.body proc).Swapped swap (procedures'.body proc)

def Sequence.Replaces (finalizer finalizer' : Sequence S E Unit) : Prop :=
  swap finalizer finalizer' ∨ finalizer.Swapped swap finalizer'

def Task.Swapped : Task S E A → Task S E A → Prop
  | .evaluate sequence, other => ∃ sequence', other = .evaluate sequence' ∧
      sequence.Swapped swap sequence'
  | .handle step, other => ∃ step', other = .handle step' ∧ step.Swapped swap step'
  | .play routine, other => ∃ routine', other = .play routine' ∧ routine.Swapped swap routine'
  | .attempt inner, other => ∃ inner', other = .attempt inner' ∧ inner.Swapped swap inner'
  | .nest sequence, other => ∃ sequence', other = .nest sequence' ∧
      sequence.Swapped swap sequence'
  | .drive sequence, other => ∃ sequence', other = .drive sequence' ∧
      sequence.Swapped swap sequence'
  | .drain settled, other => other = .drain settled

end

section

variable {swap : {E : Type} → Sequence S E Unit → Sequence S E Unit → Prop}

mutual

theorem Step.Swapped.refl : {E A : Type} → (step : Step S E A) → step.Swapped swap step
  | _, _, .request _ => rfl
  | _, _, .fail _ => rfl
  | _, _, .nested _ body => ⟨body, rfl, Sequence.Swapped.refl body⟩
  | _, _, .finalize finalizer => ⟨finalizer, rfl, .inr (Sequence.Swapped.refl finalizer)⟩

theorem Sequence.Swapped.refl : {E A : Type} → (sequence : Sequence S E A) →
    sequence.Swapped swap sequence
  | _, _, .succeed _ => rfl
  | _, _, .perform step => ⟨step, rfl, Step.Swapped.refl step⟩
  | _, _, .effect _ next => ⟨next, rfl, fun answer => Sequence.Swapped.refl (next answer)⟩
  | _, _, .call _ => rfl
  | _, _, .andThen inner next =>
      ⟨inner, next, rfl, Sequence.Swapped.refl inner, fun value => Sequence.Swapped.refl (next value)⟩
  | _, _, .fold inner next recover =>
      ⟨inner, next, recover, rfl, Sequence.Swapped.refl inner,
        fun value => Sequence.Swapped.refl (next value),
        fun error => Sequence.Swapped.refl (recover error)⟩
  | _, _, .ensuring inner finalizer =>
      ⟨inner, finalizer, rfl, Sequence.Swapped.refl inner, .inr (Sequence.Swapped.refl finalizer)⟩
  | _, _, .routine body => ⟨body, rfl, Routine.Swapped.refl body⟩

theorem Routine.Swapped.refl : {E A : Type} → (routine : Routine S E A) →
    routine.Swapped swap routine
  | _, _, .done _ => rfl
  | _, _, .abort => rfl
  | _, _, .effect _ next => ⟨next, rfl, fun answer => Routine.Swapped.refl (next answer)⟩
  | _, _, .perform step next =>
      ⟨step, next, rfl, Step.Swapped.refl step, fun answer => Routine.Swapped.refl (next answer)⟩
  | _, _, .bind inner next =>
      ⟨inner, next, rfl, Sequence.Swapped.refl inner,
        fun answer => Routine.Swapped.refl (next answer)⟩
  | _, _, .attempt inner next =>
      ⟨inner, next, rfl, Sequence.Swapped.refl inner,
        fun answer => Routine.Swapped.refl (next answer)⟩
  | _, _, .depth next => ⟨next, rfl, fun answer => Routine.Swapped.refl (next answer)⟩
  | _, _, .context next => ⟨next, rfl, fun answer => Routine.Swapped.refl (next answer)⟩

end

mutual

theorem Step.Swapped.symm : {E A : Type} → {step step' : Step S E A} →
    step.Swapped swap step' → step'.Swapped (fun finalizer other => swap other finalizer) step
  | _, _, .request _, _, swapped => by
      obtain rfl := swapped
      exact rfl
  | _, _, .fail _, _, swapped => by
      obtain rfl := swapped
      exact rfl
  | _, _, .nested _ body, _, swapped => by
      obtain ⟨_, rfl, inside⟩ := swapped
      exact ⟨body, rfl, inside.symm⟩
  | _, _, .finalize finalizer, _, swapped => by
      obtain ⟨_, rfl, replaced⟩ := swapped
      exact ⟨finalizer, rfl, replaced.imp id fun inside => inside.symm⟩

theorem Sequence.Swapped.symm : {E A : Type} → {sequence sequence' : Sequence S E A} →
    sequence.Swapped swap sequence' →
      sequence'.Swapped (fun finalizer other => swap other finalizer) sequence
  | _, _, .succeed _, _, swapped => by
      obtain rfl := swapped
      exact rfl
  | _, _, .perform step, _, swapped => by
      obtain ⟨_, rfl, inside⟩ := swapped
      exact ⟨step, rfl, inside.symm⟩
  | _, _, .effect _ next, _, swapped => by
      obtain ⟨_, rfl, after⟩ := swapped
      exact ⟨next, rfl, fun answer => (after answer).symm⟩
  | _, _, .call _, _, swapped => by
      obtain rfl := swapped
      exact rfl
  | _, _, .andThen inner next, _, swapped => by
      obtain ⟨_, _, rfl, first, after⟩ := swapped
      exact ⟨inner, next, rfl, first.symm, fun value => (after value).symm⟩
  | _, _, .fold inner next recover, _, swapped => by
      obtain ⟨_, _, _, rfl, first, after, recovery⟩ := swapped
      exact ⟨inner, next, recover, rfl, first.symm, fun value => (after value).symm,
        fun error => (recovery error).symm⟩
  | _, _, .ensuring inner finalizer, _, swapped => by
      obtain ⟨_, _, rfl, first, replaced⟩ := swapped
      exact ⟨inner, finalizer, rfl, first.symm, replaced.imp id fun inside => inside.symm⟩
  | _, _, .routine body, _, swapped => by
      obtain ⟨_, rfl, inside⟩ := swapped
      exact ⟨body, rfl, inside.symm⟩

theorem Routine.Swapped.symm : {E A : Type} → {routine routine' : Routine S E A} →
    routine.Swapped swap routine' →
      routine'.Swapped (fun finalizer other => swap other finalizer) routine
  | _, _, .done _, _, swapped => by
      obtain rfl := swapped
      exact rfl
  | _, _, .abort, _, swapped => by
      obtain rfl := swapped
      exact rfl
  | _, _, .effect _ next, _, swapped => by
      obtain ⟨_, rfl, after⟩ := swapped
      exact ⟨next, rfl, fun answer => (after answer).symm⟩
  | _, _, .perform step next, _, swapped => by
      obtain ⟨_, _, rfl, first, after⟩ := swapped
      exact ⟨step, next, rfl, first.symm, fun answer => (after answer).symm⟩
  | _, _, .bind inner next, _, swapped => by
      obtain ⟨_, _, rfl, first, after⟩ := swapped
      exact ⟨inner, next, rfl, first.symm, fun answer => (after answer).symm⟩
  | _, _, .attempt inner next, _, swapped => by
      obtain ⟨_, _, rfl, first, after⟩ := swapped
      exact ⟨inner, next, rfl, first.symm, fun answer => (after answer).symm⟩
  | _, _, .depth next, _, swapped => by
      obtain ⟨_, rfl, after⟩ := swapped
      exact ⟨next, rfl, fun answer => (after answer).symm⟩
  | _, _, .context next, _, swapped => by
      obtain ⟨_, rfl, after⟩ := swapped
      exact ⟨next, rfl, fun answer => (after answer).symm⟩

end

/-! ## Runs of such programs -/

def Frame.refit (frame : Frame S E) (finalizers : List (Sequence S E Unit)) : Frame S E :=
  { frame with finalizers }

def Evaluated.refit (out : Evaluated S E A) (finalizers : List (Sequence S E Unit)) :
    Evaluated S E A :=
  { out with frame := out.frame.refit finalizers }

theorem Routine.Swapped.aftermath_eq {routine routine' : Routine S E A}
    (swapped : routine.Swapped swap routine') (frame : Frame S E)
    (finalizers : List (Sequence S E Unit)) (world : S.World) :
    routine'.aftermath (frame.refit finalizers) world = routine.aftermath frame world := by
  induction routine using Routine.induction generalizing routine' world with
  | done value =>
      obtain rfl := swapped
      rfl
  | abort =>
      obtain rfl := swapped
      rfl
  | effect act next ih =>
      obtain ⟨_, rfl, after⟩ := swapped
      exact ih _ (after _) _
  | perform step next ih =>
      obtain ⟨_, _, rfl, -, after⟩ := swapped
      exact ih none (after none) world
  | bind inner next ih =>
      obtain ⟨_, _, rfl, -, after⟩ := swapped
      exact ih none (after none) world
  | attempt inner next ih =>
      obtain ⟨_, _, rfl, -, after⟩ := swapped
      exact ih none (after none) world
  | depth next ih =>
      obtain ⟨_, rfl, after⟩ := swapped
      exact ih _ (after _) world
  | context next ih =>
      obtain ⟨_, rfl, after⟩ := swapped
      exact ih _ (after _) world

/-- The other program makes the same run.  Only the finalizers that wait in its frame are others,
and they replace the ones of this program. -/
theorem Runs.swapped {procedures procedures' : Procedures S}
    (bodies : procedures.Swapped swap procedures')
    (alike : ∀ {E : Type} {finalizer finalizer' : Sequence S E Unit},
      swap finalizer finalizer' → finalizer.Equivalent procedures' finalizer')
    {task task' : Task S E A} {frame : Frame S E} {state : RunState S} {history : History S}
    {out : Evaluated S E A} (run : Runs procedures task frame state history out)
    (same : task.Swapped swap task') {finalizers : List (Sequence S E Unit)}
    (waiting : List.Forall₂ (Sequence.Replaces swap) frame.finalizers finalizers) :
    ∃ history' left, List.Forall₂ (Sequence.Replaces swap) out.frame.finalizers left ∧
      Runs procedures' task' (frame.refit finalizers) state history' (out.refit left) := by
  induction run with
  | succeed =>
      obtain ⟨_, rfl, rfl⟩ := same
      exact ⟨_, finalizers, waiting, .succeed⟩
  | perform handled ih =>
      obtain ⟨_, rfl, _, rfl, inside⟩ := same
      obtain ⟨_, left, waiting', run'⟩ := ih ⟨_, rfl, inside⟩ waiting
      exact ⟨_, left, waiting', .perform run'⟩
  | effect after ih =>
      obtain ⟨_, rfl, _, rfl, later⟩ := same
      obtain ⟨_, left, waiting', run'⟩ := ih ⟨_, rfl, later _⟩ waiting
      exact ⟨_, left, waiting', .effect run'⟩
  | call body ih =>
      obtain ⟨_, rfl, rfl⟩ := same
      obtain ⟨_, left, waiting', run'⟩ := ih ⟨_, rfl, bodies _⟩ waiting
      exact ⟨_, left, waiting', .call run'⟩
  | andThenValue first second ihFirst ihSecond =>
      obtain ⟨_, rfl, _, _, rfl, inside, later⟩ := same
      obtain ⟨_, _, waiting', run'⟩ := ihFirst ⟨_, rfl, inside⟩ waiting
      obtain ⟨_, left, waiting'', run''⟩ := ihSecond ⟨_, rfl, later _⟩ waiting'
      exact ⟨_, left, waiting'', .andThenValue run' run''⟩
  | andThenInterrupt first ih =>
      obtain ⟨_, rfl, _, _, rfl, inside, later⟩ := same
      obtain ⟨_, left, waiting', run'⟩ := ih ⟨_, rfl, inside⟩ waiting
      exact ⟨_, left, waiting', .andThenInterrupt run'⟩
  | foldValue first second ihFirst ihSecond =>
      obtain ⟨_, rfl, _, _, _, rfl, inside, later, -⟩ := same
      obtain ⟨_, _, waiting', run'⟩ := ihFirst ⟨_, rfl, inside⟩ waiting
      obtain ⟨_, left, waiting'', run''⟩ := ihSecond ⟨_, rfl, later _⟩ waiting'
      exact ⟨_, left, waiting'', .foldValue run' run''⟩
  | foldFailure first second ihFirst ihSecond =>
      obtain ⟨_, rfl, _, _, _, rfl, inside, -, later⟩ := same
      obtain ⟨_, _, waiting', run'⟩ := ihFirst ⟨_, rfl, inside⟩ waiting
      obtain ⟨_, left, waiting'', run''⟩ := ihSecond ⟨_, rfl, later _⟩ waiting'
      exact ⟨_, left, waiting'', .foldFailure run' run''⟩
  | foldDefect first ih =>
      obtain ⟨_, rfl, _, _, _, rfl, inside, -, -⟩ := same
      obtain ⟨_, left, waiting', run'⟩ := ih ⟨_, rfl, inside⟩ waiting
      exact ⟨_, left, waiting', .foldDefect run'⟩
  | ensuring first ih =>
      obtain ⟨_, rfl, _, finalizer', rfl, inside, replaces⟩ := same
      obtain ⟨_, left, waiting', run'⟩ := ih ⟨_, rfl, inside⟩ waiting
      exact ⟨_, finalizer' :: left, .cons replaces waiting', .ensuring run'⟩
  | routine played ih =>
      obtain ⟨_, rfl, _, rfl, inside⟩ := same
      obtain ⟨_, left, waiting', run'⟩ := ih ⟨_, rfl, inside⟩ waiting
      exact ⟨_, left, waiting', .routine run'⟩
  | requestFound found =>
      obtain ⟨_, rfl, rfl⟩ := same
      exact ⟨_, finalizers, waiting, .requestFound found⟩
  | requestMissing missing =>
      obtain ⟨_, rfl, rfl⟩ := same
      exact ⟨_, finalizers, waiting, .requestMissing missing⟩
  | fail =>
      obtain ⟨_, rfl, rfl⟩ := same
      exact ⟨_, finalizers, waiting, .fail⟩
  | @nested _ _ _ _ frame _ _ out inner ih =>
      obtain ⟨_, rfl, _, rfl, inside⟩ := same
      obtain ⟨_, left, -, run'⟩ := ih ⟨_, rfl, inside⟩ .nil
      exact ⟨_, finalizers, waiting,
        @Runs.nested _ _ _ _ _ _ (frame.refit finalizers) _ _ (out.refit left) run'⟩
  | finalize =>
      obtain ⟨_, rfl, finalizer', rfl, replaces⟩ := same
      exact ⟨_, finalizer' :: finalizers, .cons replaces waiting, .finalize⟩
  | done =>
      obtain ⟨_, rfl, rfl⟩ := same
      exact ⟨_, finalizers, waiting, .done⟩
  | abort =>
      obtain ⟨_, rfl, rfl⟩ := same
      exact ⟨_, finalizers, waiting, .abort⟩
  | act after ih =>
      obtain ⟨_, rfl, _, rfl, later⟩ := same
      obtain ⟨_, left, waiting', run'⟩ := ih ⟨_, rfl, later _⟩ waiting
      exact ⟨_, left, waiting', .act run'⟩
  | performValue first second ihFirst ihSecond =>
      obtain ⟨_, rfl, _, _, rfl, inside, later⟩ := same
      obtain ⟨_, _, waiting', run'⟩ := ihFirst ⟨_, rfl, inside⟩ waiting
      obtain ⟨_, left, waiting'', run''⟩ := ihSecond ⟨_, rfl, later _⟩ waiting'
      exact ⟨_, left, waiting'', .performValue run' run''⟩
  | performInterrupt first ih =>
      obtain ⟨_, rfl, _, _, rfl, inside, later⟩ := same
      obtain ⟨_, left, waiting', run'⟩ := ih ⟨_, rfl, inside⟩ waiting
      rw [← (later none).aftermath_eq _ left]
      exact ⟨_, left, waiting', .performInterrupt run'⟩
  | bindValue first second ihFirst ihSecond =>
      obtain ⟨_, rfl, _, _, rfl, inside, later⟩ := same
      obtain ⟨_, _, waiting', run'⟩ := ihFirst ⟨_, rfl, inside⟩ waiting
      obtain ⟨_, left, waiting'', run''⟩ := ihSecond ⟨_, rfl, later _⟩ waiting'
      exact ⟨_, left, waiting'', .bindValue run' run''⟩
  | bindInterrupt first ih =>
      obtain ⟨_, rfl, _, _, rfl, inside, later⟩ := same
      obtain ⟨_, left, waiting', run'⟩ := ih ⟨_, rfl, inside⟩ waiting
      rw [← (later none).aftermath_eq _ left]
      exact ⟨_, left, waiting', .bindInterrupt run'⟩
  | attemptValue first second ihFirst ihSecond =>
      obtain ⟨_, rfl, _, _, rfl, inside, later⟩ := same
      obtain ⟨_, _, waiting', run'⟩ := ihFirst ⟨_, rfl, inside⟩ waiting
      obtain ⟨_, left, waiting'', run''⟩ := ihSecond ⟨_, rfl, later _⟩ waiting'
      exact ⟨_, left, waiting'', .attemptValue run' run''⟩
  | attemptInterrupt first ih =>
      obtain ⟨_, rfl, _, _, rfl, inside, later⟩ := same
      obtain ⟨_, left, waiting', run'⟩ := ih ⟨_, rfl, inside⟩ waiting
      rw [← (later none).aftermath_eq _ left]
      exact ⟨_, left, waiting', .attemptInterrupt run'⟩
  | depth after ih =>
      obtain ⟨_, rfl, _, rfl, later⟩ := same
      obtain ⟨_, left, waiting', run'⟩ := ih ⟨_, rfl, later _⟩ waiting
      exact ⟨_, left, waiting', .depth run'⟩
  | context after ih =>
      obtain ⟨_, rfl, _, rfl, later⟩ := same
      obtain ⟨_, left, waiting', run'⟩ := ih ⟨_, rfl, later _⟩ waiting
      exact ⟨_, left, waiting', .context run'⟩
  | @attempt _ _ _ _ frame _ _ out nested ih =>
      obtain ⟨_, rfl, inside⟩ := same
      obtain ⟨_, left, -, run'⟩ := ih ⟨_, rfl, inside⟩ .nil
      exact ⟨_, finalizers, waiting,
        @Runs.attempt _ _ _ _ _ _ (frame.refit finalizers) _ _ (out.refit left) run'⟩
  | nest driven ih =>
      obtain ⟨_, rfl, inside⟩ := same
      obtain ⟨_, left, waiting', run'⟩ := ih ⟨_, rfl, inside⟩ waiting
      exact ⟨_, left, waiting', .nest run'⟩
  | drive evaluated drained ihEvaluated ihDrained =>
      obtain ⟨_, rfl, inside⟩ := same
      cases waiting
      obtain ⟨_, _, waiting', run'⟩ := ihEvaluated ⟨_, rfl, inside⟩ .nil
      obtain ⟨_, left, waiting'', run''⟩ := ihDrained rfl waiting'
      exact ⟨_, left, waiting'', .drive run' run''⟩
  | drained none =>
      obtain rfl := same
      obtain rfl : finalizers = [] := by
        rw [none] at waiting
        cases waiting
        rfl
      exact ⟨_, [], waiting, .drained rfl⟩
  | @finalizer _ _ _ frame state _ _ _ _ result _ newest driven drained ihDriven ihDrained =>
      obtain rfl := same
      rw [newest] at waiting
      cases waiting with
      | @cons _ finalizer' _ older' replaces older =>
          -- A swapped finalizer is first run as it is by the other program, whose procedures differ.
          have driven' : ∃ before' left, Runs procedures' (.drive finalizer')
              { context := frame.context, depth := frame.depth + 1 }
              (state.finalizerRan frame.depth) before' (result.refit left) := by
            rcases replaces with swapped | inside
            · obtain ⟨_, left, -, run'⟩ := ihDriven ⟨_, rfl, .refl _⟩ .nil
              obtain ⟨_, run''⟩ := (alike swapped).driven run'
              exact ⟨_, left, run''⟩
            · obtain ⟨_, left, -, run'⟩ := ihDriven ⟨_, rfl, inside⟩ .nil
              exact ⟨_, left, run'⟩
          obtain ⟨_, _, driven'⟩ := driven'
          obtain ⟨_, left, waiting', drained'⟩ := ihDrained rfl older
          exact ⟨_, left, waiting', @Runs.finalizer _ _ _ _ _ (frame.refit (finalizer' :: older')) _
            _ _ _ _ (result.refit _) _ rfl driven' drained'⟩

theorem Interpreter.Completes.swapped {interpreter : Interpreter S} {procedures' : Procedures S}
    (bodies : interpreter.procedures.Swapped swap procedures')
    (alike : ∀ {E : Type} {finalizer finalizer' : Sequence S E Unit},
      swap finalizer finalizer' → finalizer.Equivalent procedures' finalizer')
    {sequence sequence' : Sequence S E A} (same : sequence.Swapped swap sequence')
    {context : Context S} {world left : S.World} {report : RunReport E A}
    (completes : interpreter.Completes sequence context world report left) :
    Interpreter.Completes { interpreter with procedures := procedures' } sequence' context world
      report left := by
  rw [Interpreter.completes_iff_records] at completes ⊢
  obtain ⟨history, out, run, rfl, rfl⟩ := completes
  obtain ⟨history', finalizers, -, run'⟩ := run.swapped bodies alike ⟨_, rfl, same⟩ .nil
  exact ⟨history', out.refit finalizers, run', rfl, rfl⟩

end

/-- Finalizers that may stand for each other, whichever of the two families of procedures they
call. -/
def Sequence.Exchangeable (procedures procedures' : Procedures S)
    (finalizer finalizer' : Sequence S E Unit) : Prop :=
  finalizer.Equivalent procedures finalizer' ∧ finalizer.Equivalent procedures' finalizer'

theorem Interpreter.completes_iff_of_swapped {interpreter : Interpreter S}
    {procedures' : Procedures S}
    (bodies : interpreter.procedures.Swapped
      (Sequence.Exchangeable interpreter.procedures procedures') procedures')
    {sequence sequence' : Sequence S E A}
    (same : sequence.Swapped (Sequence.Exchangeable interpreter.procedures procedures') sequence')
    {context : Context S} {world left : S.World} {report : RunReport E A} :
    interpreter.Completes sequence context world report left ↔
      Interpreter.Completes { interpreter with procedures := procedures' } sequence' context world
        report left := by
  constructor
  · intro completes
    exact completes.swapped bodies (fun exchangeable => exchangeable.2) same
  · intro completes
    exact completes.swapped (fun proc => (bodies proc).symm)
      (fun exchangeable => exchangeable.1.symm) same.symm

/-- Sequences form a monad, failures are recovered from in either grouping, and a sequence may be
built late: all up to equivalence, which says that the engine comes to the same settled result,
frame, journal and world.  Equivalence is kept by every combinator.  Equivalent finalizers are
left apart by the frames they wait in, but the report of a run and the world it leaves do not
depend on which one was registered, however deep in the program or in its procedures. -/
theorem equational_laws {F C : Type} (interpreter : Interpreter S) (procedures' : Procedures S) :
    (∀ sequence sequence' : Sequence S E A,
      sequence.Equivalent interpreter.procedures sequence' ↔
        ∀ (frame : Frame S E) (state : RunState S) (out : Evaluated S E A),
          (∃ n, (Machine.level interpreter.procedures n).eval sequence frame state = .ok out) ↔
            ∃ n, (Machine.level interpreter.procedures n).eval sequence' frame state = .ok out) ∧
    -- The equations.
    (∀ (value : A) (next : A → Sequence S E B),
      ((Sequence.succeed value).andThen next).Equivalent interpreter.procedures (next value)) ∧
    (∀ sequence : Sequence S E A,
      (sequence.andThen .succeed).Equivalent interpreter.procedures sequence) ∧
    (∀ (sequence : Sequence S E A) (next : A → Sequence S E B) (last : B → Sequence S E C),
      ((sequence.andThen next).andThen last).Equivalent interpreter.procedures
        (sequence.andThen fun value => (next value).andThen last)) ∧
    (∀ (sequence : Sequence S E A) (f : A → B),
      (sequence.map f).Equivalent interpreter.procedures
        (sequence.andThen fun value => .succeed (f value))) ∧
    (∀ sequence : Sequence S E A,
      (Sequence.suspend fun _ => sequence).Equivalent interpreter.procedures sequence) ∧
    (∀ (value : A) (recover : E → Sequence S E A),
      ((Sequence.succeed value).orElse recover).Equivalent interpreter.procedures
        (.succeed value)) ∧
    (∀ (sequence : Sequence S E A) (recover again : E → Sequence S E A),
      ((sequence.orElse recover).orElse again).Equivalent interpreter.procedures
        (sequence.orElse fun error => (recover error).orElse again)) ∧
    -- Exchanging parts of a sequence.
    (∀ sequence sequence' : Sequence S E A, sequence.Equivalent interpreter.procedures sequence' →
      (∀ next next' : A → Sequence S E B,
        (∀ value, (next value).Equivalent interpreter.procedures (next' value)) →
          (sequence.andThen next).Equivalent interpreter.procedures (sequence'.andThen next')) ∧
      (∀ f : A → B,
        (sequence.map f).Equivalent interpreter.procedures (sequence'.map f)) ∧
      (∀ recover recover' : E → Sequence S E A,
        (∀ error, (recover error).Equivalent interpreter.procedures (recover' error)) →
          (sequence.orElse recover).Equivalent interpreter.procedures
            (sequence'.orElse recover')) ∧
      (sequence.either : Sequence S F (Outcome E A)).Equivalent interpreter.procedures
        sequence'.either ∧
      (∀ f : E → F,
        (sequence.mapErr f).Equivalent interpreter.procedures (sequence'.mapErr f)) ∧
      sequence.nested.Equivalent interpreter.procedures sequence'.nested ∧
      (∀ layer, (sequence.provideLayer layer).Equivalent interpreter.procedures
        (sequence'.provideLayer layer)) ∧
      ∀ finalizer, (sequence.ensuring finalizer).Equivalent interpreter.procedures
        (sequence'.ensuring finalizer)) ∧
    (∀ members members' : List (Sequence S E A),
      List.Forall₂ (Sequence.Equivalent interpreter.procedures) members members' →
        (Sequence.all members).Equivalent interpreter.procedures (Sequence.all members')) ∧
    -- Exchanging finalizers.
    ∀ sequence sequence' : Sequence S E A,
      interpreter.procedures.Swapped (Sequence.Exchangeable interpreter.procedures procedures')
        procedures' →
      sequence.Swapped (Sequence.Exchangeable interpreter.procedures procedures') sequence' →
      ∀ (context : Context S) (world left : S.World) (report : RunReport E A),
        interpreter.Completes sequence context world report left ↔
          Interpreter.Completes { interpreter with procedures := procedures' } sequence' context
            world report left := by
  refine ⟨fun _ _ => Sequence.Equivalent.iff_eval, Sequence.succeed_andThen,
    Sequence.andThen_succeed, Sequence.andThen_assoc, Sequence.map_equivalent,
    Sequence.suspend_equivalent, Sequence.succeed_orElse, Sequence.orElse_assoc, ?_,
    fun _ _ => Sequence.Equivalent.all, ?_⟩
  · intro sequence sequence' same
    exact ⟨fun _ _ => same.andThen, same.map, fun _ _ => same.orElse, same.attempt _,
      fun _ => same.attempt _, same.provideLayer _, same.provideLayer, same.ensuring⟩
  · intro sequence sequence' bodies swapped context world left report
    exact Interpreter.completes_iff_of_swapped bodies swapped

def guarded (cleanup : Sequence Sample.signature String Unit) :
    Sequence Sample.signature String Nat :=
  ((Sequence.fail "lost").ensuring cleanup).nested.orElse fun _ => .succeed 7

theorem equational_laws_cleanup :
    let early := ((Sample.note "close").andThen fun _ => Sample.note "remove").andThen fun _ =>
      Sequence.fail "stuck"
    let late := (Sample.note "close").andThen fun _ => (Sample.note "remove").andThen fun _ =>
      Sequence.fail "stuck"
    ∃ report : RunReport String Nat, report.exit = .ok (.ok 7) ∧ report.suppressed = #["stuck"] ∧
      Sample.interpreter.Completes (guarded early) .empty [] report ["close", "remove"] ∧
      Sample.interpreter.Completes (guarded late) .empty [] report ["close", "remove"] := by
  intro early late
  have same : early.Equivalent Sample.interpreter.procedures late := Sequence.andThen_assoc _ _ _
  have swapped : (guarded early).Swapped (Sequence.Exchangeable Sample.interpreter.procedures
      Sample.interpreter.procedures) (guarded late) := by
    refine ⟨_, _, _, rfl, ⟨_, rfl, _, rfl, ?_⟩, fun _ => .refl _, fun _ => .refl _⟩
    exact ⟨_, _, rfl, .refl _, .inl ⟨same, same⟩⟩
  obtain ⟨-, -, -, -, -, -, -, -, -, -, exchange⟩ := equational_laws (E := String) (A := Nat)
    (B := Nat) (F := String) (C := Nat) Sample.interpreter Sample.interpreter.procedures
  have completes : Sample.interpreter.Completes (guarded early) .empty [] _
    ["close", "remove"] := ⟨15, rfl⟩
  exact ⟨_, rfl, rfl, completes, (exchange _ _ nofun swapped _ _ _ _).mp completes⟩

end Sequencer
