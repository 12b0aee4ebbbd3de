import Sequencer.Proofs.Finalizers
import Sequencer.Proofs.Laws
import Sequencer.Host.Services

/-!
# Members run one after another

`all` runs a loop that puts values on a pile and turns the pile over at the end.  It does what a
chain of `andThen` does, so a list of members may be cut anywhere and run in two parts.  Members
share the enclosing frame: what one leaves there is what the next finds.
-/

namespace Sequencer

variable {S : Signature} {E A B : Type} {procedures : Procedures S}

/-! ## Loop and chain -/

def Script.collect : List (Sequence S E A) → List A → Script S E (List A)
  | [], values => .done values.reverse
  | member :: rest, values => .call (.bind member) fun value => collect rest (value :: values)

theorem Script.routine_collect (members : List (Sequence S E A)) (values : List A) :
    (Script.collect members values).routine = .collect members values := by
  induction members generalizing values with
  | nil => rfl
  | cons member rest ih =>
      simp only [Script.collect, Script.routine, Routine.call, Routine.collect]
      congr 1
      funext answer
      cases answer with
      | none => rfl
      | some value => exact ih (value :: values)

namespace Sequence

def chain (members : List (Sequence S E A)) (values : List A) : Sequence S E (List A) :=
  (Script.collect members values).sequence

theorem all_equivalent_chain (members : List (Sequence S E A)) :
    (all members).Equivalent procedures (chain members []) := by
  cases members with
  | nil => exact .refl _
  | cons member rest =>
      rw [all, ← Script.routine_collect]
      · exact Script.equivalent _
      · nofun

theorem chain_pile (members : List (Sequence S E A)) (values : List A) :
    (chain members values).Equivalent procedures
      ((chain members []).map (values.reverse ++ ·)) := by
  -- Under one more value on the pile the hypothesis is used twice: with the old values below it, and
  -- with none.
  induction members generalizing values with
  | nil =>
      calc
        succeed values.reverse
        _ = succeed (values.reverse ++ []) := by rw [List.append_nil]
        Equivalent procedures _ (map (succeed []) (values.reverse ++ ·)) :=
          (succeed_andThen [] fun found => succeed (values.reverse ++ found)).symm
  | cons member rest ih =>
      calc
        Equivalent procedures (member.andThen fun value => chain rest (value :: values))
            (member.andThen fun value => (chain rest []).map ((value :: values).reverse ++ ·)) :=
          Equivalent.andThen_right member fun value => ih (value :: values)
        _ = member.andThen fun value =>
            (chain rest []).map fun found => values.reverse ++ ([value] ++ found) := by
          simp only [List.reverse_cons, List.append_assoc]
        Equivalent procedures _ (member.andThen fun value =>
            ((chain rest []).map ([value] ++ ·)).map (values.reverse ++ ·)) :=
          Equivalent.andThen_right member fun value => (Equivalent.map_map _ _ _).symm
        Equivalent procedures _ (member.andThen fun value =>
            (chain rest [value]).map (values.reverse ++ ·)) :=
          Equivalent.andThen_right member fun value => ((ih [value]).map _).symm
        Equivalent procedures _ ((member.andThen fun value => chain rest [value]).map
            (values.reverse ++ ·)) :=
          (andThen_assoc _ _ _).symm

/-! ## Cutting the list -/

theorem all_cons (member : Sequence S E A) (rest : List (Sequence S E A)) :
    (all (member :: rest)).Equivalent procedures
      (member.andThen fun value => (all rest).map (value :: ·)) := by
  calc
    Equivalent procedures (all (member :: rest)) (chain (member :: rest) []) :=
      all_equivalent_chain _
    Equivalent procedures _ (member.andThen fun value => (chain rest []).map ([value] ++ ·)) :=
      Equivalent.andThen_right member fun value => chain_pile rest [value]
    Equivalent procedures _ (member.andThen fun value => (all rest).map (value :: ·)) :=
      Equivalent.andThen_right member fun value => (all_equivalent_chain rest).symm.map _

theorem all_append (members more : List (Sequence S E A)) :
    (all (members ++ more)).Equivalent procedures
      ((all members).andThen fun values => (all more).map (values ++ ·)) := by
  induction members with
  | nil =>
      calc
        Equivalent procedures (all more) ((all more).map ([] ++ ·)) := (andThen_succeed _).symm
        Equivalent procedures _ ((all []).andThen fun values => (all more).map (values ++ ·)) :=
          (succeed_andThen [] fun values => (all more).map (values ++ ·)).symm
  | cons member rest ih =>
      calc
        Equivalent procedures (all (member :: (rest ++ more)))
            (member.andThen fun value => (all (rest ++ more)).map (value :: ·)) :=
          all_cons _ _
        Equivalent procedures _ (member.andThen fun value =>
            ((all rest).andThen fun values => (all more).map (values ++ ·)).map (value :: ·)) :=
          Equivalent.andThen_right member fun value => ih.map _
        Equivalent procedures _ (member.andThen fun value =>
            (all rest).andThen fun values => (all more).map (value :: values ++ ·)) :=
          Equivalent.andThen_right member fun value => (andThen_assoc _ _ _).trans
            (Equivalent.andThen_right _ fun values => Equivalent.map_map _ _ _)
        Equivalent procedures _ (member.andThen fun value =>
            ((all rest).map (value :: ·)).andThen fun values => (all more).map (values ++ ·)) :=
          Equivalent.andThen_right member fun value => (Equivalent.map_andThen (all rest)
            (value :: ·) fun values => (all more).map (values ++ ·)).symm
        Equivalent procedures _ ((member.andThen fun value => (all rest).map (value :: ·)).andThen
            fun values => (all more).map (values ++ ·)) :=
          (andThen_assoc _ _ _).symm
        Equivalent procedures _ ((all (member :: rest)).andThen
            fun values => (all more).map (values ++ ·)) :=
          (all_cons member rest).symm.andThen fun _ => .refl _

theorem all_singleton (member : Sequence S E A) :
    (all [member]).Equivalent procedures (member.map ([·])) :=
  (all_cons member []).trans
    (Equivalent.andThen_right member fun value => succeed_andThen [] fun found => .succeed
      (value :: found))

end Sequence

section

open Sequence

theorem Host.combine_append {app : Signature} {procedures : Procedures (Host.signature app)}
    (checks more : List (Sequence (Host.signature app) E (List Diagnostic))) :
    (Host.combine (checks ++ more)).Equivalent procedures
      ((Host.combine checks).andThen fun found => (Host.combine more).map (found ++ ·)) := by
  calc
    Equivalent procedures ((all (checks ++ more)).map List.flatten)
        (((all checks).andThen fun batches => (all more).map (batches ++ ·)).map List.flatten) :=
      (all_append checks more).map _
    Equivalent procedures _ ((all checks).andThen fun batches =>
        ((all more).map (batches ++ ·)).map List.flatten) :=
      andThen_assoc _ _ _
    Equivalent procedures _ ((all checks).andThen fun batches =>
        (all more).map fun others => (batches ++ others).flatten) :=
      Equivalent.andThen_right _ fun batches => Equivalent.map_map _ _ _
    _ = ((all checks).andThen fun batches =>
        (all more).map fun others => batches.flatten ++ others.flatten) := by
      simp only [List.flatten_append]
    Equivalent procedures _ ((all checks).andThen fun batches =>
        (Host.combine more).map (batches.flatten ++ ·)) :=
      Equivalent.andThen_right _ fun batches => (Equivalent.map_map _ _ _).symm
    Equivalent procedures _ ((Host.combine checks).andThen fun found =>
        (Host.combine more).map (found ++ ·)) :=
      (Equivalent.map_andThen (all checks) List.flatten fun found =>
        (Host.combine more).map (found ++ ·)).symm

end

/-! ## Member after member -/

namespace Sequence

variable {frame : Frame S E} {state : RunState S}

theorem evaluates_andThen_iff {first : Sequence S E B} {next : B → Sequence S E A}
    {out : Evaluated S E A} :
    (first.andThen next).Evaluates procedures frame state out ↔
      (∃ value frame' state', first.Evaluates procedures frame state ⟨.ok value, frame', state'⟩ ∧
        (next value).Evaluates procedures frame' state' out) ∨
      ∃ interrupt frame' state', out = ⟨.error interrupt, frame', state'⟩ ∧
        first.Evaluates procedures frame state ⟨.error interrupt, frame', state'⟩ := by
  simp only [Evaluates, eval_iff_runs, Runs.andThen_iff]
  constructor
  · rintro ⟨_, ⟨_, _, value, frame', state', rfl, run, rest⟩ |
      ⟨interrupt, frame', state', rfl, run⟩⟩
    · exact .inl ⟨value, frame', state', ⟨_, run⟩, _, rest⟩
    · exact .inr ⟨interrupt, frame', state', rfl, _, run⟩
  · rintro (⟨value, frame', state', ⟨_, run⟩, _, rest⟩ |
      ⟨interrupt, frame', state', rfl, _, run⟩)
    · exact ⟨_, .inl ⟨_, _, value, frame', state', rfl, run, rest⟩⟩
    · exact ⟨_, .inr ⟨interrupt, frame', state', rfl, run⟩⟩

theorem evaluates_succeed_iff {value : A} {out : Evaluated S E A} :
    (succeed value).Evaluates procedures frame state out ↔ out = ⟨.ok value, frame, state⟩ := by
  simp only [Evaluates, eval_iff_runs, Runs.succeed_iff, exists_eq_left]

theorem Evaluates.finalizers_suffix {sequence : Sequence S E A} {out : Evaluated S E A}
    (evaluates : sequence.Evaluates procedures frame state out) :
    frame.finalizers <:+ out.frame.finalizers := by
  obtain ⟨_, run⟩ := eval_iff_runs.mp evaluates
  obtain ⟨registered, grown⟩ := (finalizerDiscipline S).of_runs run
  exact ⟨registered.reverse, grown.finalizers.symm⟩

theorem evaluates_map_iff {sequence : Sequence S E A} {f : A → B} {out : Evaluated S E B} :
    (sequence.map f).Evaluates procedures frame state out ↔
      ∃ inner, sequence.Evaluates procedures frame state inner ∧
        out = ⟨inner.settled.map f, inner.frame, inner.state⟩ := by
  rw [map, evaluates_andThen_iff]
  simp only [evaluates_succeed_iff]
  constructor
  · rintro (⟨value, frame', state', evaluates, rfl⟩ | ⟨interrupt, frame', state', rfl, evaluates⟩)
    · exact ⟨_, evaluates, rfl⟩
    · exact ⟨_, evaluates, rfl⟩
  · rintro ⟨⟨interrupt | value, frame', state'⟩, evaluates, rfl⟩
    · exact .inr ⟨interrupt, frame', state', rfl, evaluates⟩
    · exact .inl ⟨value, frame', state', evaluates, rfl⟩

/-- The members give these values, each in the frame and state that the one before it left. -/
inductive Collected (procedures : Procedures S) : List (Sequence S E A) → Frame S E → RunState S →
    List A → Frame S E → RunState S → Prop
  | none (frame : Frame S E) (state : RunState S) :
      Collected procedures [] frame state [] frame state
  | next {member : Sequence S E A} {rest : List (Sequence S E A)} {value : A} {values : List A}
      {frame frame' left : Frame S E} {state state' state'' : RunState S}
      (first : member.Evaluates procedures frame state ⟨.ok value, frame', state'⟩)
      (others : Collected procedures rest frame' state' values left state'') :
      Collected procedures (member :: rest) frame state (value :: values) left state''

theorem evaluates_all_cons_iff {member : Sequence S E A} {rest : List (Sequence S E A)}
    {out : Evaluated S E (List A)} :
    (all (member :: rest)).Evaluates procedures frame state out ↔
      (∃ value frame' state' inner,
        member.Evaluates procedures frame state ⟨.ok value, frame', state'⟩ ∧
        (all rest).Evaluates procedures frame' state' inner ∧
        out = ⟨inner.settled.map (value :: ·), inner.frame, inner.state⟩) ∨
      ∃ interrupt frame' state', out = ⟨.error interrupt, frame', state'⟩ ∧
        member.Evaluates procedures frame state ⟨.error interrupt, frame', state'⟩ := by
  rw [(all_cons member rest).evaluates_iff, evaluates_andThen_iff]
  simp only [evaluates_map_iff, exists_and_left]

namespace Collected

variable {members : List (Sequence S E A)} {values : List A} {left : Frame S E}
  {state' : RunState S}

theorem finalizers_suffix
    (collected : Collected procedures members frame state values left state') :
    frame.finalizers <:+ left.finalizers := by
  induction collected with
  | none => exact List.suffix_refl _
  | next first _ ih => exact first.finalizers_suffix.trans ih

theorem evaluates_all (collected : Collected procedures members frame state values left state') :
    (all members).Evaluates procedures frame state ⟨.ok values, left, state'⟩ := by
  induction collected with
  | none => exact evaluates_succeed_iff.mpr rfl
  | next first _ ih => exact evaluates_all_cons_iff.mpr (.inl ⟨_, _, _, _, first, ih, rfl⟩)

theorem evaluates_all_interrupted {member : Sequence S E A} {interrupt : Interrupt E}
    {last : Frame S E} {state'' : RunState S}
    (collected : Collected procedures members frame state values left state')
    (interrupted : member.Evaluates procedures left state' ⟨.error interrupt, last, state''⟩)
    (later : List (Sequence S E A)) :
    (all (members ++ member :: later)).Evaluates procedures frame state
      ⟨.error interrupt, last, state''⟩ := by
  have stops : (all (member :: later)).Evaluates procedures left state'
      ⟨.error interrupt, last, state''⟩ :=
    evaluates_all_cons_iff.mpr (.inr ⟨_, _, _, rfl, interrupted⟩)
  rw [(all_append members (member :: later)).evaluates_iff, evaluates_andThen_iff]
  exact .inl ⟨values, left, state', collected.evaluates_all, evaluates_map_iff.mpr ⟨_, stops, rfl⟩⟩

end Collected

theorem evaluates_all_iff {members : List (Sequence S E A)} {out : Evaluated S E (List A)} :
    (all members).Evaluates procedures frame state out ↔
      (∃ values left state', Collected procedures members frame state values left state' ∧
        out = ⟨.ok values, left, state'⟩) ∨
      ∃ earlier member later values frame' state' interrupt left state'',
        members = earlier ++ member :: later ∧
        Collected procedures earlier frame state values frame' state' ∧
        member.Evaluates procedures frame' state' ⟨.error interrupt, left, state''⟩ ∧
        out = ⟨.error interrupt, left, state''⟩ := by
  constructor
  · intro evaluates
    induction members generalizing frame state out with
    | nil => exact .inl ⟨[], frame, state, .none frame state, evaluates_succeed_iff.mp evaluates⟩
    | cons member rest ih =>
        obtain ⟨value, frame', state', inner, first, others, rfl⟩ |
          ⟨interrupt, frame', state', rfl, interrupted⟩ := evaluates_all_cons_iff.mp evaluates
        -- The first member is one of those collected, wherever the others stop.
        · obtain ⟨values, left, state'', collected, rfl⟩ | ⟨earlier, stopping, later, values,
            frame'', state'', interrupt, left, last, rfl, collected, interrupted, rfl⟩ := ih others
          · exact .inl ⟨value :: values, left, state'', .next first collected, rfl⟩
          · exact .inr ⟨member :: earlier, stopping, later, value :: values, frame'', state'',
              interrupt, left, last, rfl, .next first collected, interrupted, rfl⟩
        · exact .inr ⟨[], member, rest, [], frame, state, interrupt, frame', state', rfl,
            .none frame state, interrupted, rfl⟩
  · rintro (⟨values, left, state', collected, rfl⟩ |
      ⟨_, _, later, _, _, _, _, _, _, rfl, collected, interrupted, rfl⟩)
    · exact collected.evaluates_all
    · exact collected.evaluates_all_interrupted interrupted later

end Sequence

open Sequence (all Collected)

/-- A list of members may be cut anywhere.  So the values come in the order of the members; the
first member that is interrupted decides, whatever members stand after it, and what the frame holds
to be finalized stays there.  Checks of a host are put together by the same rule. -/
theorem all_splits_anywhere (procedures : Procedures S) :
    (∀ members more : List (Sequence S E A), (all (members ++ more)).Equivalent procedures
      ((all members).andThen fun values => (all more).map (values ++ ·))) ∧
    (∀ member : Sequence S E A, (all [member]).Equivalent procedures (member.map ([·]))) ∧
    (all [] : Sequence S E (List A)).Equivalent procedures (.succeed []) ∧
    (∀ (members : List (Sequence S E A)) (frame : Frame S E) (state : RunState S)
      (out : Evaluated S E (List A)), (all members).Evaluates procedures frame state out ↔
        (∃ values left state', Collected procedures members frame state values left state' ∧
          out = ⟨.ok values, left, state'⟩) ∨
        ∃ earlier member later values frame' state' interrupt left state'',
          members = earlier ++ member :: later ∧
          Collected procedures earlier frame state values frame' state' ∧
          member.Evaluates procedures frame' state' ⟨.error interrupt, left, state''⟩ ∧
          out = ⟨.error interrupt, left, state''⟩) ∧
    (∀ (earlier : List (Sequence S E A)) (member : Sequence S E A) (frame frame' left : Frame S E)
      (state state' state'' : RunState S) (values : List A) (interrupt : Interrupt E),
      Collected procedures earlier frame state values frame' state' →
      member.Evaluates procedures frame' state' ⟨.error interrupt, left, state''⟩ →
        (∀ later, (all (earlier ++ member :: later)).Evaluates procedures frame state
          ⟨.error interrupt, left, state''⟩) ∧
        frame.finalizers <:+ frame'.finalizers ∧ frame'.finalizers <:+ left.finalizers) ∧
    ∀ (app : Signature) (procedures : Procedures (Host.signature app))
      (checks more : List (Sequence (Host.signature app) E (List Diagnostic))),
      (Host.combine (checks ++ more)).Equivalent procedures
        ((Host.combine checks).andThen fun found => (Host.combine more).map (found ++ ·)) := by
  refine ⟨Sequence.all_append, Sequence.all_singleton, .refl _,
    fun _ _ _ _ => Sequence.evaluates_all_iff, ?_, fun _ _ => Host.combine_append⟩
  intro earlier member frame frame' left state state' state'' values interrupt collected interrupted
  exact ⟨collected.evaluates_all_interrupted interrupted, collected.finalizers_suffix,
    interrupted.finalizers_suffix⟩

def sweptValue : Sequence Sample.signature String Nat :=
  (Sequence.succeed 1).ensuring (Sample.note "swept")

theorem all_splits_anywhere_failing :
    ∃ frame state left state', Collected Sample.interpreter.procedures [sweptValue] Sample.frame
        Sample.state [1] frame state ∧
      (Sequence.fail "lost" : Sequence Sample.signature String Nat).Evaluates
        Sample.interpreter.procedures frame state ⟨.error (.failed "lost"), left, state'⟩ ∧
      (all [sweptValue, .fail "lost", (Sample.note "late").map fun _ => 3]).Evaluates
        Sample.interpreter.procedures Sample.frame Sample.state
        ⟨.error (.failed "lost"), left, state'⟩ ∧
      state'.world = [] ∧ left.finalizers = [Sample.note "swept"] := by
  obtain ⟨-, -, -, -, stops, -⟩ :=
    all_splits_anywhere (E := String) (A := Nat) Sample.interpreter.procedures
  have swept : sweptValue.Evaluates Sample.interpreter.procedures Sample.frame Sample.state
      ⟨.ok 1, Sample.frame.register (Sample.note "swept"), Sample.state.registered 0⟩ := ⟨6, rfl⟩
  have lost : (Sequence.fail "lost" : Sequence Sample.signature String Nat).Evaluates
      Sample.interpreter.procedures (Sample.frame.register (Sample.note "swept"))
      (Sample.state.registered 0) ⟨.error (.failed "lost"), _, _⟩ := ⟨6, rfl⟩
  have collected := Collected.next swept (.none _ _)
  obtain ⟨stopped, -, -⟩ := stops _ _ _ _ _ _ _ _ _ _ collected lost
  exact ⟨_, _, _, _, collected, lost, stopped _, rfl, rfl⟩

end Sequencer
