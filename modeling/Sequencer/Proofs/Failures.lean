import Sequencer.Proofs.Counters
import Sequencer.Proofs.Determinism
import Sequencer.Proofs.Licence
import Sequencer.Proofs.RunInvariant
import Sequencer.Proofs.Sample
import Mathlib.Algebra.Order.Group.Multiset
import Mathlib.Tactic.Abel

/-!
# The accounts of failures

No failure is lost in a run and none is counted twice.  A failure that is raised is handed to
a recovery, handed back by an attempt, discarded while a frame settles, or is the exit.
-/

namespace Sequencer

variable {S : Signature} {E A : Type}

namespace Moment

def raised? : Moment S → Option Failure
  | .failed _ failure => some failure
  | _ => none

def recovered? : Moment S → Option Failure
  | .recovered _ failure => some failure
  | _ => none

def handed? : Moment S → Option Failure
  | .attempted _ handed => handed
  | _ => none

def suppressed? : Moment S → Option Failure
  | .suppressed _ failure => some failure
  | _ => none

def isOutlived : Moment S → Bool
  | .outlived _ => true
  | _ => false

end Moment

def tally (pick : Moment S → Option Failure) (history : History S) : Multiset Failure :=
  history.filterMap pick

def held (failure : Option Failure) : Multiset Failure :=
  failure.toList

@[simp] theorem held_none : held none = 0 := rfl

@[simp] theorem held_some (failure : Failure) : held (some failure) = {failure} := rfl

section Tally

variable (pick : Moment S → Option Failure)

@[simp] theorem tally_nil : tally pick [] = 0 := rfl

@[simp] theorem tally_cons (moment : Moment S) (history : History S) :
    tally pick (moment :: history) = held (pick moment) + tally pick history := by
  cases h : pick moment with
  | none => simp [tally, h]
  | some failure => simp [tally, h, ← Multiset.cons_coe]

@[simp] theorem tally_append (before after : History S) :
    tally pick (before ++ after) = tally pick before + tally pick after := by
  simp [tally]

end Tally

/-- Every failure at hand before, or raised in the history, is in one place afterwards. -/
def Accounted (before : Option Failure) (history : History S) (after : Option Failure) : Prop :=
  tally Moment.raised? history + held before =
    tally Moment.recovered? history + tally Moment.handed? history +
      tally Moment.suppressed? history + held after

namespace Accounted

variable {before middle after : Option Failure} {history later : History S}

theorem refl (failure : Option Failure) : Accounted failure ([] : History S) failure := by
  simp [Accounted]

theorem trans (first : Accounted before history middle) (second : Accounted middle later after) :
    Accounted before (history ++ later) after := by
  unfold Accounted at *
  simp only [tally_append]
  calc
    _ = (tally Moment.raised? history + held before) + tally Moment.raised? later := by abel
    _ = (tally Moment.recovered? history + tally Moment.handed? history +
          tally Moment.suppressed? history) + (tally Moment.raised? later + held middle) := by
        rw [first]
        abel
    _ = _ := by
        rw [second]
        abel

theorem silent {moment : Moment S} (failure : Option Failure)
    (quiet : moment.raised? = none ∧ moment.recovered? = none ∧ moment.handed? = none ∧
      moment.suppressed? = none) : Accounted failure [moment] failure := by
  simp [Accounted, quiet]

theorem failed (depth : Nat) (failure : Failure) :
    Accounted none [(.failed depth failure : Moment S)] (some failure) := by
  simp [Accounted, Moment.raised?, Moment.recovered?, Moment.handed?, Moment.suppressed?]

theorem recovered (depth : Nat) (failure : Failure) :
    Accounted (some failure) [(.recovered depth failure : Moment S)] none := by
  simp [Accounted, Moment.raised?, Moment.recovered?, Moment.handed?, Moment.suppressed?]

theorem handed (depth : Nat) (failure : Option Failure) :
    Accounted failure [(.attempted depth failure : Moment S)] none := by
  simp [Accounted, Moment.raised?, Moment.recovered?, Moment.handed?, Moment.suppressed?]

end Accounted

theorem Settled.held_absorb (settled : Settled E A) (result : Settled E Unit) (depth : Nat) :
    held settled.failure? + held result.failure? =
      tally Moment.suppressed? ((settled.absorb result).2.moments depth : History S) +
        held (settled.absorb result).1.failure? := by
  rcases settled with (_ | _) | _ <;> rcases result with (_ | _) | _ <;>
    simp [Settled.absorb, Settled.failure?, Interrupt.failure?, Discarded.moments,
      Moment.suppressed?, add_comm]

theorem tally_moments (discarded : Discarded E) (depth : Nat) :
    tally Moment.raised? (discarded.moments depth : History S) = 0 ∧
      tally Moment.recovered? (discarded.moments depth : History S) = 0 ∧
      tally Moment.handed? (discarded.moments depth : History S) = 0 := by
  cases discarded <;> exact ⟨rfl, rfl, rfl⟩

theorem Accounted.absorb (settled : Settled E A) {result : Settled E Unit} {history : History S}
    (depth : Nat) (h : Accounted none history result.failure?) :
    Accounted settled.failure? (history ++ (settled.absorb result).2.moments depth)
      (settled.absorb result).1.failure? := by
  obtain ⟨raised, recovered, handed⟩ :=
    tally_moments (S := S) (settled.absorb result).2 depth
  have merged := settled.held_absorb (S := S) result depth
  unfold Accounted at *
  simp only [tally_append, raised, recovered, handed, held_none, add_zero] at h ⊢
  calc
    _ = (tally Moment.recovered? history + tally Moment.handed? history +
          tally Moment.suppressed? history) + (held settled.failure? + held result.failure?) := by
        rw [h]
        abel
    _ = _ := by
        rw [merged]
        abel

@[simp] theorem Settled.failure?_ofExit {B : Type} (exit : Except Defect B) :
    (Settled.ofExit exit : Settled E B).failure? = none := by
  cases exit <;> rfl

def failureAccounts (S : Signature) : RunInvariant S where
  Within _ _ history out := Accounted none history out.settled.failure?
  Nested _ _ _ history out := Accounted none history out.settled.failure?
  Driven _ _ _ history out := Accounted none history out.settled.failure?
  Drained settled _ _ history out := Accounted settled.failure? history out.settled.failure?
  value _ _ _ := .refl none
  acted h := h
  followed first second := first.trans second
  interrupted _ h := h
  recovered first second := first.trans ((Accounted.recovered _ _).trans second)
  registered _ h := h.trans (.silent _ ⟨rfl, rfl, rfl, rfl⟩)
  resolved _ _ _ := .silent none ⟨rfl, rfl, rfl, rfl⟩
  unresolved _ _ _ := .silent none ⟨rfl, rfl, rfl, rfl⟩
  failed _ _ _ := .failed _ _
  detached _ _ := .silent none ⟨rfl, rfl, rfl, rfl⟩
  nested h := h
  attempted h := by
    rw [Settled.failure?_ofExit]
    exact h.trans (.handed _ _)
  bracketed h := ((Accounted.silent none ⟨rfl, rfl, rfl, rfl⟩).trans h).trans
    (.silent _ ⟨rfl, rfl, rfl, rfl⟩)
  driven body drain :=
    (((Accounted.silent none ⟨rfl, rfl, rfl, rfl⟩).trans body).trans
      ((Accounted.silent _ ⟨rfl, rfl, rfl, rfl⟩).trans drain)).trans
      (.silent _ ⟨rfl, rfl, rfl, rfl⟩)
  drained _ := .refl _
  finalized _ result drain :=
    ((Accounted.silent _ ⟨rfl, rfl, rfl, rfl⟩).trans (.absorb _ _ result)).trans drain

theorem Runs.raised_of_failure {procedures : Procedures S} {sequence : Sequence S E A}
    {frame : Frame S E} {state : RunState S} {history : History S} {out : Evaluated S E A}
    {failure : Failure}
    (run : Runs procedures (.drive sequence) frame state history out)
    (failed : out.settled.failure? = some failure) :
    failure ∈ history.filterMap Moment.raised? := by
  have balanced : Accounted none history out.settled.failure? := (failureAccounts S).of_runs run
  rw [Accounted, failed, held_none, add_zero, held_some] at balanced
  have member : failure ∈ tally Moment.raised? history := by
    rw [balanced]
    simp
  simpa [tally] using member

/-! ## What is suppressed -/

def Frame.discarded (frame : Frame S E) : List Failure :=
  frame.suppressed.toList.map Failure.mk

/-- The frame lists what the history suppresses, in order, as long as nothing is attempted;
the journal counts that and the defects discarded behind an earlier one. -/
structure Suppresses (frame : Frame S E) (state : RunState S) (history : History S)
    (frame' : Frame S E) (state' : RunState S) : Prop where
  order : AttemptFree history →
    frame'.discarded = frame.discarded ++ history.filterMap Moment.suppressed?
  count : state'.journal.stats.suppressed = state.journal.stats.suppressed +
    (history.filterMap Moment.suppressed?).length + history.countP Moment.isOutlived

namespace Suppresses

variable {frame frame' frame'' : Frame S E} {state state' state'' : RunState S}
  {before after : History S}

theorem refl (frame : Frame S E) (state : RunState S) : Suppresses frame state [] frame state :=
  ⟨fun _ => (List.append_nil _).symm, rfl⟩

theorem trans (first : Suppresses frame state before frame' state')
    (second : Suppresses frame' state' after frame'' state'') :
    Suppresses frame state (before ++ after) frame'' state'' where
  order free := by
    obtain ⟨free, free'⟩ := List.forall_mem_append.mp free
    rw [second.order free', first.order free, List.filterMap_append, List.append_assoc]
  count := by
    rw [second.count, first.count, List.filterMap_append, List.length_append, List.countP_append]
    omega

theorem silent {moment : Moment S} (frame : Frame S E)
    (quiet : moment.suppressed? = none ∧ moment.isOutlived = false)
    (same : state'.journal.stats.suppressed = state.journal.stats.suppressed)
    (same' : frame'.suppressed = frame.suppressed) :
    Suppresses frame state [moment] frame' state' where
  order _ := by simp [Frame.discarded, same', quiet]
  count := by simp [quiet, same]

theorem adopt {context : Context S} {depth : Nat} {inner : Frame S E} (frame : Frame S E)
    (h : Suppresses { context, depth } state before inner state') :
    Suppresses frame state before
      { frame with suppressed := frame.suppressed ++ inner.suppressed } state' where
  order free := by
    have listed := h.order free
    simp only [Frame.discarded, Array.toList_append, List.map_append] at listed ⊢
    rw [listed]
    rfl
  count := h.count

theorem discard (discarded : Discarded E) (depth : Nat) (state : RunState S)
    (listed : frame'.suppressed = (Machine.discard discarded depth frame.suppressed state).1) :
    Suppresses frame state (discarded.moments depth) frame'
      (Machine.discard discarded depth frame.suppressed state).2 := by
  constructor
  · intro _
    rw [Frame.discarded, listed]
    cases discarded <;>
      simp [Frame.discarded, Machine.discard, Discarded.moments, Moment.suppressed?]
  · cases discarded <;>
      simp [Machine.discard, Discarded.moments, Moment.suppressed?, Moment.isOutlived]

end Suppresses

def suppressionLog (S : Signature) : RunInvariant S where
  Within frame state history out := Suppresses frame state history out.frame out.state
  Nested _ frame state history out := Suppresses frame state history out.frame out.state
  Driven _ frame state history out := Suppresses frame state history out.frame out.state
  Drained _ frame state history out := Suppresses frame state history out.frame out.state
  value frame state _ := .refl frame state
  acted h := ⟨h.order, h.count⟩
  followed first second := first.trans second
  interrupted _ h := ⟨h.order, h.count⟩
  recovered first second := first.trans ((Suppresses.silent _ ⟨rfl, rfl⟩ rfl rfl).trans second)
  registered _ h := h.trans (.silent _ ⟨rfl, rfl⟩ (by simp) rfl)
  resolved frame _ _ := .silent frame ⟨rfl, rfl⟩ (by simp) rfl
  unresolved frame _ _ := .silent frame ⟨rfl, rfl⟩ (by simp) rfl
  failed frame _ _ := .silent frame ⟨rfl, rfl⟩ (by simp) rfl
  detached frame _ := .silent frame ⟨rfl, rfl⟩ rfl rfl
  nested h := h.adopt _
  -- What an attempt suppresses is counted, but it is not listed by the frame that makes it.
  attempted h :=
    ⟨fun free => absurd (free _ (List.mem_append_right _ (List.mem_singleton_self _))) nofun,
      by simpa [List.filterMap_cons, Moment.suppressed?, Moment.isOutlived] using h.count⟩
  bracketed h := ((Suppresses.silent _ ⟨rfl, rfl⟩ (by simp) rfl).trans h).trans
    (.silent _ ⟨rfl, rfl⟩ (by simp) rfl)
  driven body drain :=
    (((Suppresses.silent _ ⟨rfl, rfl⟩ (by simp) rfl).trans body).trans
      ((Suppresses.silent _ ⟨rfl, rfl⟩ rfl rfl).trans drain)).trans
      (.silent _ ⟨rfl, rfl⟩ rfl rfl)
  drained _ := .refl _ _
  finalized _ result drain :=
    (((Suppresses.silent _ ⟨rfl, rfl⟩ (by simp) rfl).trans (result.adopt _)).trans
      (.discard _ _ _ rfl)).trans drain

/-! ## Runs without attempts -/

/-- No attempt is written in the sequence, nor in any procedure it may come to call. -/
def Sequence.AttemptFree (procedures : Procedures S) (sequence : Sequence S E A) : Prop :=
  ∃ licence : Licence S,
    ¬ licence.attempts ∧ licence.Covers procedures ∧ sequence.Keeps licence

def RunReport.failure? (report : RunReport E A) : Option Failure :=
  match report.exit with
  | .ok (.err error) => some ⟨error⟩
  | _ => none

theorem RunReport.failure?_report (driven : Driven S E A) :
    (Interpreter.report driven).failure? = driven.settled.failure? := by
  obtain ⟨settled, suppressed, state⟩ := driven
  rcases settled with (error | cause) | value <;> rfl

theorem AttemptFree.tally_handed {history : History S} (free : AttemptFree history) :
    tally Moment.handed? history = 0 := by
  have none : history.filterMap Moment.handed? = [] := by
    refine List.filterMap_eq_nil_iff.mpr fun moment member => ?_
    have plain := free moment member
    cases moment with
    | attempted => cases plain
    | _ => rfl
  rw [tally, none]
  rfl

theorem Interpreter.Records.conserved {interpreter : Interpreter S} {sequence : Sequence S E A}
    {context : Context S} {world left : S.World} {history : History S} {report : RunReport E A}
    (records : interpreter.Records sequence context world history report left)
    (free : AttemptFree history) :
    tally Moment.raised? history = tally Moment.recovered? history +
        (report.suppressed.toList.map Failure.mk : Multiset Failure) + held report.failure? ∧
      report.suppressed.toList.map Failure.mk = history.filterMap Moment.suppressed? ∧
      report.stats.suppressed = report.suppressed.size + history.countP Moment.isOutlived := by
  obtain ⟨out, run, rfl, rfl⟩ := records
  have balanced : Accounted none history out.settled.failure? := (failureAccounts S).of_runs run
  have logged : Suppresses _ _ history out.frame out.state := (suppressionLog S).of_runs run
  have listed : out.frame.discarded = history.filterMap Moment.suppressed? := logged.order free
  refine ⟨?_, listed, ?_⟩
  · have suppressed : tally Moment.suppressed? history = (out.frame.discarded : Multiset Failure) :=
      congrArg _ listed.symm
    rw [Accounted, free.tally_handed, suppressed, held_none, add_zero, add_zero] at balanced
    rw [RunReport.failure?_report]
    exact balanced
  · have size : out.frame.suppressed.size = (history.filterMap Moment.suppressed?).length := by
      simpa [Frame.discarded] using congrArg List.length listed
    simpa [Interpreter.report, Evaluated.driven, size] using logged.count

/-- In a run that makes no attempts every failure raised is recovered from, listed in the
report as suppressed, or the exit; what is suppressed is listed in the order it was discarded. -/
theorem failures_conserved {interpreter : Interpreter S} {sequence : Sequence S E A}
    {context : Context S} {world left : S.World} {report : RunReport E A}
    (free : sequence.AttemptFree interpreter.procedures)
    (completes : interpreter.Completes sequence context world report left) :
    (∃! history, interpreter.Records sequence context world history report left) ∧
    ∀ history, interpreter.Records sequence context world history report left →
      tally Moment.raised? history = tally Moment.recovered? history +
        (report.suppressed.toList.map Failure.mk : Multiset Failure) + held report.failure? ∧
      report.suppressed.toList.map Failure.mk = history.filterMap Moment.suppressed? ∧
      report.stats.suppressed = report.suppressed.size + history.countP Moment.isOutlived := by
  refine ⟨completes.existsUnique_records, fun history records => ?_⟩
  apply records.conserved
  obtain ⟨licence, strict, covers, keeps⟩ := free
  obtain ⟨out, run, rfl, rfl⟩ := records
  exact (run.keeps covers strict keeps nofun).2

def threeFailures : Sequence Sample.signature String Nat :=
  (((Sequence.fail "first" : Sequence Sample.signature String Nat).orElse fun _ =>
    Sequence.fail "second").ensuring (Sequence.fail "third")).nested

theorem threeFailures_attemptFree :
    threeFailures.AttemptFree Sample.interpreter.procedures := by
  refine ⟨{ attempts := False, calls := fun _ => True }, id, nofun, ?_⟩
  simp [threeFailures, Sequence.nested, Sequence.provideLayer, Sequence.orElse, Sequence.fail,
    Sequence.Keeps, Step.Keeps]

theorem failures_conserved_three : ∃ report,
    Sample.interpreter.Completes threeFailures .empty [] report [] ∧
    report.exit = .ok (.err "second") ∧ report.suppressed = #["third"] ∧
    ∃ history, Sample.interpreter.Records threeFailures .empty [] history report [] ∧
      tally Moment.raised? history = tally Moment.recovered? history +
        ([⟨"third"⟩] : List Failure) + {⟨"second"⟩} := by
  have completes : Sample.interpreter.Completes threeFailures .empty [] _ [] := ⟨9, rfl⟩
  obtain ⟨⟨history, records, _⟩, conserved⟩ :=
    failures_conserved threeFailures_attemptFree completes
  exact ⟨_, completes, rfl, rfl, history, records, (conserved history records).1⟩

end Sequencer
