import Sequencer.Proofs.BigStep
import Sequencer.Proofs.Stack
import Mathlib.Order.Filter.AtTopBot.Basic

/-!
# The engine and the direct semantics

What the engine answers, with any number of levels and steps, is what the rules of `Runs`
allow; and what the rules allow is what it answers from some number of levels on.
-/

namespace Sequencer

variable {S : Signature} {E F A B : Type} {procedures : Procedures S} {level : Level S}

/-! ## From the engine to the rules -/

structure Level.Sound (procedures : Procedures S) (level : Level S) : Prop where
  eval : ∀ {E A : Type} {sequence : Sequence S E A} {frame : Frame S E} {state : RunState S}
    {out : Evaluated S E A}, level.eval sequence frame state = .ok out →
      ∃ history, Runs procedures (.evaluate sequence) frame state history out
  drive : ∀ {E A : Type} {sequence : Sequence S E A} {context : Context S} {depth : Nat}
    {state : RunState S} {driven : Driven S E A},
      level.drive sequence context depth state = .ok driven →
      ∃ history out, Runs procedures (.drive sequence) { context, depth } state history out ∧
        out.driven = driven

namespace Level.Sound

theorem nested (sound : level.Sound procedures) {body : Sequence S E A} {context : Context S}
    {depth : Nat} {state : RunState S} {driven : Driven S E A}
    (h : level.nested body context depth state = .ok driven) :
    ∃ history out, Runs procedures (.nest body) { context, depth } state history out ∧
      out.driven = driven := by
  unfold Level.nested at h
  split at h
  · cases h
  · rename_i inner hdrive
    obtain ⟨history, out, run, rfl⟩ := sound.drive hdrive
    cases h
    exact ⟨_, _, .nest run, rfl⟩

theorem handle (sound : level.Sound procedures) {step : Step S E A} {frame : Frame S E}
    {state : RunState S} {out : Evaluated S E A} (h : level.handle step frame state = .ok out) :
    ∃ history, Runs procedures (.handle step) frame state history out := by
  cases step with
  | request key =>
      simp only [Level.handle] at h
      split at h
      · rename_i value found
        cases h
        exact ⟨_, .requestFound found⟩
      · rename_i missing
        cases h
        exact ⟨_, .requestMissing missing⟩
      · cases h
  | fail error =>
      cases h
      exact ⟨_, .fail⟩
  | nested layer body =>
      simp only [Level.handle] at h
      split at h
      · cases h
      · rename_i driven hnested
        obtain ⟨history, out, run, rfl⟩ := sound.nested hnested
        cases h
        exact ⟨_, .nested run⟩
  | finalize finalizer =>
      cases h
      exact ⟨_, .finalize⟩

theorem attempt (sound : level.Sound procedures) {inner : Sequence S F A} {frame : Frame S E}
    {state state' : RunState S} {exit : Except Defect (Outcome F A)}
    (h : level.attempt inner frame state = .ok (exit, state')) :
    ∃ history, Runs procedures (.attempt inner) frame state history
      ⟨.ofExit exit, frame, state'⟩ := by
  unfold Level.attempt at h
  split at h
  · cases h
  · rename_i driven hnested
    obtain ⟨history, out, run, rfl⟩ := sound.nested hnested
    cases h
    exact ⟨_, .attempt run⟩

theorem play (sound : level.Sound procedures) {routine : Routine S E A} {frame : Frame S E}
    {state : RunState S} {out : Evaluated S E A}
    (h : routine.run level none frame state = .ok out) :
    ∃ history, Runs procedures (.play routine) frame state history out := by
  induction routine using Routine.induction generalizing frame state with
  | done value =>
      cases h
      exact ⟨_, .done⟩
  | abort =>
      cases h
      exact ⟨_, .abort⟩
  | effect act next ih =>
      obtain ⟨history, run⟩ := ih _ h
      exact ⟨history, .act run⟩
  | perform step next ih =>
      simp only [Routine.run] at h
      split at h
      · cases h
      · rename_i hhandle
        obtain ⟨before, first⟩ := sound.handle hhandle
        obtain ⟨after, second⟩ := ih _ h
        exact ⟨_, .performValue first second⟩
      · rename_i hhandle
        obtain ⟨history, first⟩ := sound.handle hhandle
        rw [Routine.run_latched] at h
        cases h
        exact ⟨_, .performInterrupt first⟩
  | bind inner next ih =>
      simp only [Routine.run] at h
      split at h
      · cases h
      · rename_i heval
        obtain ⟨before, first⟩ := sound.eval heval
        obtain ⟨after, second⟩ := ih _ h
        exact ⟨_, .bindValue first second⟩
      · rename_i heval
        obtain ⟨history, first⟩ := sound.eval heval
        rw [Routine.run_latched] at h
        cases h
        exact ⟨_, .bindInterrupt first⟩
  | attempt inner next ih =>
      simp only [Routine.run] at h
      split at h
      · cases h
      · rename_i hattempt
        obtain ⟨before, first⟩ := sound.attempt hattempt
        obtain ⟨after, second⟩ := ih _ h
        exact ⟨_, .attemptValue first second⟩
      · rename_i hattempt
        obtain ⟨history, first⟩ := sound.attempt hattempt
        rw [Routine.run_latched] at h
        cases h
        exact ⟨_, .attemptInterrupt first⟩
  | depth next ih =>
      obtain ⟨history, run⟩ := ih _ h
      exact ⟨history, .depth run⟩
  | context next ih =>
      obtain ⟨history, run⟩ := ih _ h
      exact ⟨history, .context run⟩

theorem drain (sound : level.Sound procedures) {frame : Frame S E} {settled : Settled E A}
    {state : RunState S} {driven : Driven S E A}
    (h : Machine.drain level frame.context frame.depth frame.finalizers settled
      frame.suppressed state = .ok driven) :
    ∃ history out, Runs procedures (.drain settled) frame state history out ∧
      out.driven = driven := by
  obtain ⟨context, depth, finalizers, suppressed⟩ := frame
  induction finalizers generalizing settled suppressed state with
  | nil =>
      cases h
      exact ⟨_, _, .drained rfl, rfl⟩
  | cons finalizer older ih =>
      simp only [Machine.drain] at h
      split at h
      · cases h
      · rename_i result hdrive
        obtain ⟨before, result, driven, rfl⟩ := sound.drive hdrive
        obtain ⟨after, out, drained, rfl⟩ := ih _ h
        exact ⟨_, out, .finalizer rfl driven drained, rfl⟩

theorem evaluate (sound : level.Sound procedures) {fuel : Nat} {sequence : Sequence S E A}
    {frame : Frame S E} {state : RunState S} {out : Evaluated S E A}
    (h : Machine.eval procedures level fuel sequence frame state = .ok out) :
    ∃ history, Runs procedures (.evaluate sequence) frame state history out := by
  -- The parts of a sequence come to rest in fewer steps than the whole, whatever their types,
  -- so the induction is on the number of steps, and a part is cut off the stack it runs on.
  induction fuel using Nat.strong_induction_on generalizing A sequence frame state with
  | _ fuel ih =>
      cases fuel with
      | zero => cases h
      | succ fuel =>
          have part : ∀ {B : Type} {inner : Sequence S E B} {stack : Machine.Stack S E A B},
              Machine.loop procedures level fuel ⟨.running inner, stack, frame, state⟩ = .ok out →
              ∃ history mid, Runs procedures (.evaluate inner) frame state history mid ∧
                ∃ m < fuel,
                  Machine.loop procedures level (m + 1) (.resume mid stack) = .ok out := by
            intro B inner stack hloop
            obtain ⟨mid, n, hn, m, hm, first, second⟩ :=
              Machine.loop_append_split ⟨.running inner, .done, frame, state⟩ hloop
            obtain ⟨history, run⟩ := ih n (by omega) first
            exact ⟨history, mid, run, m, hm, second⟩
          cases sequence with
          | succeed value =>
              cases Machine.eq_of_loop_resume_done ⟨_, _, _⟩ h
              exact ⟨_, .succeed⟩
          | perform step =>
              obtain ⟨history, run⟩ := sound.handle (Machine.eq_ok_of_loop_ofEvaluated rfl h)
              exact ⟨_, .perform run⟩
          | effect act next =>
              obtain ⟨history, run⟩ := ih fuel (by omega) h
              exact ⟨_, .effect run⟩
          | call proc =>
              obtain ⟨history, run⟩ := ih fuel (by omega) h
              exact ⟨_, .call run⟩
          | andThen inner next =>
              obtain ⟨before, ⟨settled, frame', state'⟩, run, m, hm, rest⟩ := part h
              cases settled with
              | ok value =>
                  obtain ⟨after, run'⟩ := ih m (by omega) rest
                  exact ⟨_, .andThenValue run run'⟩
              | error interrupt =>
                  cases Machine.eq_of_loop_resume_done ⟨_, _, _⟩ rest
                  exact ⟨_, .andThenInterrupt run⟩
          | fold inner next recover =>
              obtain ⟨before, ⟨settled, frame', state'⟩, run, m, hm, rest⟩ := part h
              rcases settled with (error | defect) | value
              · obtain ⟨after, run'⟩ := ih m (by omega) rest
                exact ⟨_, .foldFailure run run'⟩
              · cases Machine.eq_of_loop_resume_done ⟨_, _, _⟩ rest
                exact ⟨_, .foldDefect run⟩
              · obtain ⟨after, run'⟩ := ih m (by omega) rest
                exact ⟨_, .foldValue run run'⟩
          | ensuring inner finalizer =>
              obtain ⟨history, ⟨settled, frame', state'⟩, run, m, hm, rest⟩ := part h
              cases Machine.eq_of_loop_resume_done
                ⟨settled, frame'.register finalizer, state'.registered frame'.depth⟩ rest
              exact ⟨_, .ensuring run⟩
          | routine body =>
              obtain ⟨history, run⟩ := sound.play (Machine.eq_ok_of_loop_ofEvaluated rfl h)
              exact ⟨_, .routine run⟩

theorem ofLevel (procedures : Procedures S) (n : Nat) :
    (Machine.level procedures n).Sound procedures := by
  induction n with
  | zero => exact ⟨nofun, nofun⟩
  | succ n ih =>
      refine ⟨fun h => ih.evaluate h, fun h => ?_⟩
      simp only [Machine.level, Machine.drive] at h
      split at h
      · cases h
      · rename_i heval
        obtain ⟨before, evaluated⟩ := ih.evaluate heval
        obtain ⟨after, out, drained, rfl⟩ := ih.drain h
        exact ⟨_, out, .drive evaluated drained, rfl⟩

end Level.Sound

/-! ## From the rules to the engine -/

open Filter

/-- The engine gives this answer from some number of levels on.  A sequence is answered on top
of any stack, after a number of steps that the number of levels does not change. -/
def Task.Answered (procedures : Procedures S) {E A : Type} (task : Task S E A)
    (frame : Frame S E) (state : RunState S) (out : Evaluated S E A) : Prop :=
  match task with
  | .evaluate sequence => ∃ k, ∀ᶠ n in atTop, ∀ {R : Type} (stack : Machine.Stack S E R _),
      Machine.Leads procedures (Machine.level procedures n) k
        ⟨.running sequence, stack, frame, state⟩ (.resume out stack)
  | .handle step => ∀ᶠ n in atTop,
      (Machine.level procedures n).handle step frame state = .ok out
  | .play routine => ∀ᶠ n in atTop,
      routine.run (Machine.level procedures n) none frame state = .ok out
  | .attempt inner => ∃ exit, out = ⟨.ofExit exit, frame, out.state⟩ ∧ ∀ᶠ n in atTop,
      (Machine.level procedures n).attempt inner frame state = .ok (exit, out.state)
  | .nest sequence => ∀ᶠ n in atTop,
      (Machine.level procedures n).nested sequence frame.context frame.depth state =
        .ok out.driven
  | .drive sequence => ∀ᶠ n in atTop,
      (Machine.level procedures n).drive sequence frame.context frame.depth state =
        .ok out.driven
  | .drain settled => ∀ᶠ n in atTop,
      Machine.drain (Machine.level procedures n) frame.context frame.depth frame.finalizers
        settled frame.suppressed state = .ok out.driven

theorem eventually_of_succ {p : Nat → Prop} (h : ∀ᶠ n in atTop, p (n + 1)) :
    ∀ᶠ n in atTop, p n := by
  rw [← map_add_atTop_eq_nat 1]
  exact h

namespace Task.Answered

variable {sequence : Sequence S E A} {inner : Sequence S E B} {frame : Frame S E}
  {state : RunState S} {mid : Evaluated S E B} {out : Evaluated S E A}

theorem part (push : ∀ {R : Type}, Machine.Stack S E R A → Machine.Stack S E R B)
    (pushed : ∀ (level : Level S) {R : Type} (stack : Machine.Stack S E R A),
      Machine.step procedures level ⟨.running sequence, stack, frame, state⟩ =
        .more ⟨.running inner, push stack, frame, state⟩)
    (first : (Task.evaluate inner).Answered procedures frame state mid)
    (rest : ∃ k, ∀ᶠ n in atTop, ∀ {R : Type} (stack : Machine.Stack S E R A),
      Machine.Leads procedures (Machine.level procedures n) k (.resume mid (push stack))
        (.resume out stack)) :
    (Task.evaluate sequence).Answered procedures frame state out := by
  obtain ⟨k, hk⟩ := first
  obtain ⟨l, hl⟩ := rest
  refine ⟨1 + (k + l), ?_⟩
  filter_upwards [hk, hl] with n hfirst hrest R stack
  exact (Machine.Leads.step (pushed _ stack)).trans ((hfirst (push stack)).trans (hrest stack))

theorem turned {start : ∀ {R : Type}, Machine.Stack S E R A → Machine.Config S E R}
    (step : ∀ (level : Level S) {R : Type} (stack : Machine.Stack S E R A),
      Machine.step procedures level (start stack) = .more ⟨.running sequence, stack, frame, state⟩)
    (rest : (Task.evaluate sequence).Answered procedures frame state out) :
    ∃ k, ∀ᶠ n in atTop, ∀ {R : Type} (stack : Machine.Stack S E R A),
      Machine.Leads procedures (Machine.level procedures n) k (start stack)
        (.resume out stack) := by
  obtain ⟨k, hk⟩ := rest
  refine ⟨1 + k, ?_⟩
  filter_upwards [hk] with n hrest R stack
  exact (Machine.Leads.step (step _ stack)).trans (hrest stack)

theorem loop (h : (Task.evaluate sequence).Answered procedures frame state out) :
    ∀ᶠ n in atTop, Machine.eval procedures (Machine.level procedures n) (n + 1) sequence frame
      state = .ok out := by
  obtain ⟨k, hk⟩ := h
  filter_upwards [hk, eventually_ge_atTop k] with n hn hle
  have hsteps := hn .done (n - k + 1)
  rw [show n - k + 1 + k = n + 1 by omega] at hsteps
  exact hsteps

theorem eval (h : (Task.evaluate sequence).Answered procedures frame state out) :
    ∀ᶠ n in atTop, (Machine.level procedures n).eval sequence frame state = .ok out :=
  eventually_of_succ h.loop

end Task.Answered

theorem Runs.answered {task : Task S E A} {frame : Frame S E} {state : RunState S}
    {history : History S} {out : Evaluated S E A}
    (run : Runs procedures task frame state history out) :
    task.Answered procedures frame state out := by
  induction run with
  | succeed => exact ⟨1, .of_forall fun _ _ _ => .step rfl⟩
  | perform handled ih =>
      refine ⟨1, ?_⟩
      filter_upwards [ih] with n hn R stack
      exact .step (by simp only [Machine.step, Machine.stepRunning, hn]; rfl)
  | effect after ih => exact ih.turned fun _ _ _ => rfl
  | call body ih => exact ih.turned fun _ _ _ => rfl
  | @andThenValue E A B inner next _ _ _ _ _ _ _ _ first second ihFirst ihSecond =>
      exact .part (.andThen next) (fun _ _ _ => rfl) ihFirst (ihSecond.turned fun _ _ _ => rfl)
  | @andThenInterrupt E A B inner next _ _ _ _ _ _ first ih =>
      exact .part (.andThen next) (fun _ _ _ => rfl) ih
        ⟨1, .of_forall fun _ _ _ => .step rfl⟩
  | @foldValue E A B inner next recover _ _ _ _ _ _ _ _ first second ihFirst ihSecond =>
      exact .part (.fold next recover) (fun _ _ _ => rfl) ihFirst (ihSecond.turned fun _ _ _ => rfl)
  | @foldFailure E A B inner next recover _ _ _ _ _ _ _ _ first second ihFirst ihSecond =>
      exact .part (.fold next recover) (fun _ _ _ => rfl) ihFirst (ihSecond.turned fun _ _ _ => rfl)
  | @foldDefect E A B inner next recover _ _ _ _ _ _ first ih =>
      exact .part (.fold next recover) (fun _ _ _ => rfl) ih
        ⟨1, .of_forall fun _ _ _ => .step rfl⟩
  | @ensuring E A inner finalizer _ _ _ _ _ _ first ih =>
      exact .part (.ensure finalizer) (fun _ _ _ => rfl) ih
        ⟨1, .of_forall fun _ _ _ => .step rfl⟩
  | routine played ih =>
      refine ⟨1, ?_⟩
      filter_upwards [ih] with n hn R stack
      exact .step (by simp only [Machine.step, Machine.stepRunning, hn]; rfl)
  | requestFound found => exact .of_forall fun n => by simp only [Level.handle, found]
  | requestMissing missing => exact .of_forall fun n => by simp only [Level.handle, missing]
  | fail => exact .of_forall fun _ => rfl
  | nested inner ih =>
      filter_upwards [ih] with n hn
      simp only [Level.handle, hn]
      rfl
  | finalize => exact .of_forall fun _ => rfl
  | done => exact .of_forall fun _ => rfl
  | abort => exact .of_forall fun _ => rfl
  | act after ih => exact ih
  | performValue first second ihFirst ihSecond =>
      filter_upwards [ihFirst, ihSecond] with n hfirst hsecond
      simp only [Routine.run, hfirst, hsecond]
  | performInterrupt first ih =>
      filter_upwards [ih] with n hn
      simp only [Routine.run, hn, Routine.run_latched]
  | bindValue first second ihFirst ihSecond =>
      filter_upwards [ihFirst.eval, ihSecond] with n hfirst hsecond
      simp only [Routine.run, hfirst, hsecond]
  | bindInterrupt first ih =>
      filter_upwards [ih.eval] with n hn
      simp only [Routine.run, hn, Routine.run_latched]
  | attemptValue first second ihFirst ihSecond =>
      -- An attempt settles with a value exactly when its exit is an outcome.
      obtain ⟨exit, hout, hexit⟩ := ihFirst
      cases exit with
      | ok outcome =>
          cases hout
          filter_upwards [hexit, ihSecond] with n hfirst hsecond
          simp only [Routine.run, hfirst, hsecond]
      | error defect => cases hout
  | attemptInterrupt first ih =>
      obtain ⟨exit, hout, hexit⟩ := ih
      cases exit with
      | ok outcome => cases hout
      | error defect =>
          cases hout
          filter_upwards [hexit] with n hn
          simp only [Routine.run, hn, Routine.run_latched]
  | depth after ih => exact ih
  | context after ih => exact ih
  | attempt nested ih =>
      refine ⟨_, rfl, ?_⟩
      filter_upwards [ih] with n hn
      simp only [Level.attempt, hn]
      rfl
  | nest driven ih =>
      filter_upwards [ih] with n hn
      simp only [Level.nested, hn]
      rfl
  | drive evaluated drained ihEvaluated ihDrained =>
      refine eventually_of_succ ?_
      filter_upwards [ihEvaluated.loop, ihDrained] with n heval hdrain
      simp only [Machine.level, Machine.drive, heval, hdrain]
  | drained none => exact .of_forall fun n => by rw [none]; rfl
  | finalizer newest driven drained ihDriven ihDrained =>
      filter_upwards [ihDriven, ihDrained] with n hdriven hdrained
      rw [newest]
      simp only [Machine.drain, hdriven]
      exact hdrained

/-! ## Both ways -/

theorem eval_iff_runs {sequence : Sequence S E A} {frame : Frame S E} {state : RunState S}
    {out : Evaluated S E A} :
    (∃ n, (Machine.level procedures n).eval sequence frame state = .ok out) ↔
      ∃ history, Runs procedures (.evaluate sequence) frame state history out := by
  constructor
  · rintro ⟨n, h⟩
    exact (Level.Sound.ofLevel procedures n).eval h
  · rintro ⟨history, run⟩
    exact run.answered.eval.exists

theorem drive_iff_runs {sequence : Sequence S E A} {context : Context S} {depth : Nat}
    {state : RunState S} {driven : Driven S E A} :
    (∃ n, (Machine.level procedures n).drive sequence context depth state = .ok driven) ↔
      ∃ history out, Runs procedures (.drive sequence) { context, depth } state history out ∧
        out.driven = driven := by
  constructor
  · rintro ⟨n, h⟩
    exact (Level.Sound.ofLevel procedures n).drive h
  · rintro ⟨history, out, run, rfl⟩
    exact run.answered.exists

theorem Interpreter.completes_iff_records {interpreter : Interpreter S}
    {sequence : Sequence S E A} {context : Context S} {world left : S.World}
    {report : RunReport E A} :
    interpreter.Completes sequence context world report left ↔
      ∃ history, interpreter.Records sequence context world history report left := by
  constructor
  · rintro ⟨fuel, h⟩
    unfold Interpreter.run at h
    split at h
    · cases h
    · rename_i driven hdrive
      obtain ⟨history, out, run, rfl⟩ := drive_iff_runs.mp ⟨fuel, hdrive⟩
      cases h
      exact ⟨history, out, run, rfl, rfl⟩
  · rintro ⟨history, out, run, rfl, rfl⟩
    obtain ⟨n, hdrive⟩ := drive_iff_runs.mpr ⟨history, out, run, rfl⟩
    refine ⟨n, ?_⟩
    simp only [Interpreter.run, hdrive]
    rfl

/-- The machine with its stack and the direct semantics agree on every sequence, frame and
state.  And whatever is on the stack, the machine first does what it does on an empty stack,
then resumes or unwinds the stack with the result. -/
theorem machine_refines_direct_semantics (procedures : Procedures S) (sequence : Sequence S E A)
    (frame : Frame S E) (state : RunState S) :
    (∀ out, (∃ n, (Machine.level procedures n).eval sequence frame state = .ok out) ↔
      ∃ history, Runs procedures (.evaluate sequence) frame state history out) ∧
    ∀ (level : Level S) {R : Type} (stack : Machine.Stack S E R A) (out : Evaluated S E R),
      Machine.Halts procedures level ⟨.running sequence, stack, frame, state⟩ out ↔
        ∃ mid, Machine.Halts procedures level ⟨.running sequence, .done, frame, state⟩ mid ∧
          Machine.Halts procedures level (.resume mid stack) out :=
  ⟨fun _ => eval_iff_runs, fun _ _ _ _ =>
    Machine.halts_append_iff ⟨.running sequence, .done, frame, state⟩⟩

end Sequencer
