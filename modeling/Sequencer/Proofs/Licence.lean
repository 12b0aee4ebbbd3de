import Sequencer.Proofs.BigStep

/-!
# Licences

What a class of sequences may do beside failing, asking for capabilities and opening frames:
whether its routines make attempts, look at their depth or look at their context, which layers
its frames join and which procedures they call.  A sequence keeps a licence when every part of it
does, whatever the answers that lead there.
-/

namespace Sequencer

structure Licence (S : Signature) : Type 1 where
  attempts : Prop := True
  depth : Prop := True
  context : Prop := True
  layers : Layer S → Prop := fun _ => True
  calls : {E A : Type} → S.Proc E A → Prop

mutual

def Step.Keeps {S : Signature} (licence : Licence S) : {E A : Type} → Step S E A → Prop
  | _, _, .request _ => True
  | _, _, .fail _ => True
  | _, _, .nested layer body => licence.layers layer ∧ body.Keeps licence
  | _, _, .finalize finalizer => finalizer.Keeps licence

def Sequence.Keeps {S : Signature} (licence : Licence S) : {E A : Type} → Sequence S E A → Prop
  | _, _, .succeed _ => True
  | _, _, .perform step => step.Keeps licence
  | _, _, .effect _ next => ∀ answer, (next answer).Keeps licence
  | _, _, .call proc => licence.calls proc
  | _, _, .andThen inner next => inner.Keeps licence ∧ ∀ value, (next value).Keeps licence
  | _, _, .fold inner next recover =>
      inner.Keeps licence ∧ (∀ value, (next value).Keeps licence) ∧
        ∀ error, (recover error).Keeps licence
  | _, _, .ensuring inner finalizer => inner.Keeps licence ∧ finalizer.Keeps licence
  | _, _, .routine body => body.Keeps licence

def Routine.Keeps {S : Signature} (licence : Licence S) : {E A : Type} → Routine S E A → Prop
  | _, _, .done _ => True
  | _, _, .abort => True
  | _, _, .effect _ next => ∀ answer, (next answer).Keeps licence
  | _, _, .perform step next => step.Keeps licence ∧ ∀ answer, (next answer).Keeps licence
  | _, _, .bind inner next => inner.Keeps licence ∧ ∀ answer, (next answer).Keeps licence
  | _, _, .attempt inner next =>
      licence.attempts ∧ inner.Keeps licence ∧ ∀ answer, (next answer).Keeps licence
  | _, _, .depth next => licence.depth ∧ ∀ answer, (next answer).Keeps licence
  | _, _, .context next => licence.context ∧ ∀ answer, (next answer).Keeps licence

end

variable {S : Signature} {E A : Type}

def Licence.Covers (licence : Licence S) (procedures : Procedures S) : Prop :=
  ∀ {E A : Type} (proc : S.Proc E A), licence.calls proc → (procedures.body proc).Keeps licence

def Frame.Keeps (licence : Licence S) (frame : Frame S E) : Prop :=
  ∀ finalizer ∈ frame.finalizers, finalizer.Keeps licence

def Task.Keeps (licence : Licence S) : Task S E A → Prop
  | .evaluate sequence => sequence.Keeps licence
  | .handle step => step.Keeps licence
  | .play routine => routine.Keeps licence
  | .attempt inner => licence.attempts ∧ inner.Keeps licence
  | .nest sequence => sequence.Keeps licence
  | .drive sequence => sequence.Keeps licence
  | .drain _ => True

def Moment.isAttempt : Moment S → Bool
  | .attempted _ _ => true
  | _ => false

def AttemptFree (history : History S) : Prop :=
  ∀ moment ∈ history, moment.isAttempt = false

namespace AttemptFree

theorem nil : AttemptFree ([] : History S) :=
  nofun

theorem cons {moment : Moment S} {history : History S} (plain : moment.isAttempt = false)
    (free : AttemptFree history) : AttemptFree (moment :: history) :=
  List.forall_mem_cons.mpr ⟨plain, free⟩

theorem append {before after : History S} (first : AttemptFree before)
    (second : AttemptFree after) : AttemptFree (before ++ after) :=
  List.forall_mem_append.mpr ⟨first, second⟩

theorem moments (discarded : Discarded E) (depth : Nat) :
    AttemptFree (discarded.moments depth : History S) := by
  cases discarded with
  | nothing => exact nil
  | failure error => exact nil.cons rfl
  | defect => exact nil.cons rfl

end AttemptFree

theorem Frame.Keeps.register {licence : Licence S} {frame : Frame S E}
    (keeps : frame.Keeps licence) {finalizer : Sequence S E Unit}
    (keeps' : finalizer.Keeps licence) : (frame.register finalizer).Keeps licence :=
  List.forall_mem_cons.mpr ⟨keeps', keeps⟩

theorem Frame.Keeps.followed {licence : Licence S} {middle last : Frame S E}
    {before after : History S} (first : middle.Keeps licence ∧ AttemptFree before)
    (second : middle.Keeps licence → last.Keeps licence ∧ AttemptFree after) :
    last.Keeps licence ∧ AttemptFree (before ++ after) := by
  obtain ⟨pending, free⟩ := first
  obtain ⟨pending', free'⟩ := second pending
  exact ⟨pending', free.append free'⟩

/-- A run keeps the licence of what it runs: the finalizers it registers keep it, and no
attempt is made that the licence does not allow. -/
theorem Runs.keeps {licence : Licence S} {procedures : Procedures S}
    (covers : licence.Covers procedures) (strict : ¬ licence.attempts) {task : Task S E A}
    {frame : Frame S E} {state : RunState S} {history : History S} {out : Evaluated S E A}
    (run : Runs procedures task frame state history out) (keeps : task.Keeps licence)
    (pending : frame.Keeps licence) : out.frame.Keeps licence ∧ AttemptFree history := by
  induction run with
  | succeed => exact ⟨pending, .nil⟩
  | perform handled ih => exact ih keeps pending
  | effect after ih => exact ih (keeps _) pending
  | call body ih => exact ih (covers _ keeps) pending
  | andThenValue first second ihFirst ihSecond =>
      exact Frame.Keeps.followed (ihFirst keeps.1 pending) (ihSecond (keeps.2 _))
  | andThenInterrupt first ih => exact ih keeps.1 pending
  | foldValue first second ihFirst ihSecond =>
      exact Frame.Keeps.followed (ihFirst keeps.1 pending) (ihSecond (keeps.2.1 _))
  | foldFailure first second ihFirst ihSecond =>
      refine Frame.Keeps.followed (ihFirst keeps.1 pending) fun pending' => ?_
      obtain ⟨pending'', free⟩ := ihSecond (keeps.2.2 _) pending'
      exact ⟨pending'', free.cons rfl⟩
  | foldDefect first ih => exact ih keeps.1 pending
  | ensuring first ih =>
      obtain ⟨pending', free⟩ := ih keeps.1 pending
      exact ⟨pending'.register keeps.2, free.append (AttemptFree.nil.cons rfl)⟩
  | routine played ih => exact ih keeps pending
  | requestFound found => exact ⟨pending, AttemptFree.nil.cons rfl⟩
  | requestMissing missing => exact ⟨pending, AttemptFree.nil.cons rfl⟩
  | fail => exact ⟨pending, AttemptFree.nil.cons rfl⟩
  | nested inner ih => exact ⟨pending, (ih keeps.2 nofun).2⟩
  | finalize => exact ⟨pending.register keeps, AttemptFree.nil.cons rfl⟩
  | done => exact ⟨pending, .nil⟩
  | abort => exact ⟨pending, AttemptFree.nil.cons rfl⟩
  | act after ih => exact ih (keeps _) pending
  | performValue first second ihFirst ihSecond =>
      exact Frame.Keeps.followed (ihFirst keeps.1 pending) (ihSecond (keeps.2 _))
  | performInterrupt first ih => exact ih keeps.1 pending
  | bindValue first second ihFirst ihSecond =>
      exact Frame.Keeps.followed (ihFirst keeps.1 pending) (ihSecond (keeps.2 _))
  | bindInterrupt first ih => exact ih keeps.1 pending
  | attemptValue first second ihFirst ihSecond => exact absurd keeps.1 strict
  | attemptInterrupt first ih => exact absurd keeps.1 strict
  | depth after ih => exact ih (keeps.2 _) pending
  | context after ih => exact ih (keeps.2 _) pending
  | attempt nested ih => exact absurd keeps.1 strict
  | nest driven ih =>
      obtain ⟨pending', free⟩ := ih keeps pending
      exact ⟨pending', (free.append (AttemptFree.nil.cons rfl)).cons rfl⟩
  | drive evaluated drained ihEvaluated ihDrained =>
      obtain ⟨pending', free⟩ := ihEvaluated keeps nofun
      obtain ⟨pending'', free'⟩ := ihDrained trivial pending'
      exact ⟨pending'', ((free.append (free'.cons rfl)).append (AttemptFree.nil.cons rfl)).cons rfl⟩
  | drained none => exact ⟨pending, .nil⟩
  | finalizer newest driven drained ihDriven ihDrained =>
      rw [Frame.Keeps, newest, List.forall_mem_cons] at pending
      obtain ⟨_, free⟩ := ihDriven pending.1 nofun
      obtain ⟨pending', free'⟩ := ihDrained trivial pending.2
      exact ⟨pending', ((free.append (.moments _ _)).append free').cons rfl⟩

end Sequencer
