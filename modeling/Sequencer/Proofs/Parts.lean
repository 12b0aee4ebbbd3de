import Sequencer.Proofs.Authoring
import Sequencer.Proofs.Failures
import Sequencer.Proofs.Replay
import Mathlib.Logic.Relation

/-!
# Parts of a run

Running a piece of work starts other pieces, in its own frame or in frames below it.  The parts
of a run are the pieces that come to be started; the worlds they start from are those that the run
passes.  A run that never ends has parts too.

What a run does to the world, its parts do one act at a time.  So a property of worlds that every
act keeps holds all along.  Some parts may be closed, and then no part inside them is looked at;
those have to keep the property as a whole.
-/

namespace Sequencer

variable {S : Signature} {E A : Type}

inductive Work (S : Signature) : Type 1 where
  | task {E A : Type} (task : Task S E A) (frame : Frame S E) (state : RunState S) : Work S
  | trail {E A : Type} (routine : Routine S E A) (frame : Frame S E) (world : S.World) : Work S

namespace Work

def world : Work S → S.World
  | .task _ _ state => state.world
  | .trail _ _ world => world

/-- What the work itself does to the world, before it starts another part. -/
def act? : Work S → Option (S.World → S.World)
  | .task (.evaluate (.effect act _)) _ _ => some fun world => (act world).1
  | .task (.play (.effect act _)) _ _ => some fun world => (act world).1
  | .trail (.effect act _) _ _ => some fun world => (act world).1
  | _ => none

def raised? : Work S → Option Failure
  | .task (.handle (.fail error)) _ _ => some ⟨error⟩
  | _ => none

end Work

/-! ## Starting a part

What has to be over before a part starts is given as a run. -/

section

variable (procedures : Procedures S)

def Sequence.Starts (sequence : Sequence S E A) (frame : Frame S E) (state : RunState S)
    (part : Work S) : Prop :=
  match sequence with
  | .succeed _ => False
  | .perform step => part = .task (.handle step) frame state
  | .effect act next =>
      part = .task (.evaluate (next (act state.world).2)) frame
        { state with world := (act state.world).1 }
  | .call proc => part = .task (.evaluate (procedures.body proc)) frame state
  | .andThen inner next =>
      part = .task (.evaluate inner) frame state ∨
      ∃ history value frame' state',
        Runs procedures (.evaluate inner) frame state history ⟨.ok value, frame', state'⟩ ∧
        part = .task (.evaluate (next value)) frame' state'
  | .fold inner next recover =>
      part = .task (.evaluate inner) frame state ∨
      (∃ history value frame' state',
        Runs procedures (.evaluate inner) frame state history ⟨.ok value, frame', state'⟩ ∧
        part = .task (.evaluate (next value)) frame' state') ∨
      ∃ history error frame' state',
        Runs procedures (.evaluate inner) frame state history
          ⟨.error (.failed error), frame', state'⟩ ∧
        part = .task (.evaluate (recover error)) frame' state'
  | .ensuring inner _ => part = .task (.evaluate inner) frame state
  | .routine body => part = .task (.play body) frame state

def Call.Starts {B : Type} (asked : Call S E B) (next : Option B → Routine S E A)
    (frame : Frame S E) (state : RunState S) (part : Work S) : Prop :=
  part = .task asked.task frame state ∨
  (∃ history value frame' state',
    Runs procedures asked.task frame state history ⟨.ok value, frame', state'⟩ ∧
    part = .task (.play (next (some value))) frame' state') ∨
  ∃ history interrupt frame' state',
    Runs procedures asked.task frame state history ⟨.error interrupt, frame', state'⟩ ∧
    part = .trail (next none) frame' state'.world

def Routine.Starts (routine : Routine S E A) (frame : Frame S E) (state : RunState S)
    (part : Work S) : Prop :=
  match routine with
  | .done _ => False
  | .abort => False
  | .effect act next =>
      part = .task (.play (next (act state.world).2)) frame
        { state with world := (act state.world).1 }
  | .perform step next => (Call.perform step).Starts procedures next frame state part
  | .bind inner next => (Call.bind inner).Starts procedures next frame state part
  | .attempt inner next => (Call.attempt inner).Starts procedures next frame state part
  | .depth next => part = .task (.play (next frame.depth)) frame state
  | .context next => part = .task (.play (next frame.context)) frame state

def Routine.Trails (routine : Routine S E A) (frame : Frame S E) (world : S.World)
    (part : Work S) : Prop :=
  match routine with
  | .done _ => False
  | .abort => False
  | .effect act next => part = .trail (next (act world).2) frame (act world).1
  | .perform _ next => part = .trail (next none) frame world
  | .bind _ next => part = .trail (next none) frame world
  | .attempt _ next => part = .trail (next none) frame world
  | .depth next => part = .trail (next frame.depth) frame world
  | .context next => part = .trail (next frame.context) frame world

variable {procedures}

theorem Call.starts {B : Type} (asked : Call S E B) {next : Option B → Routine S E A}
    {frame : Frame S E} {state : RunState S} {part : Work S} :
    (Routine.call asked next).Starts procedures frame state part ↔
      asked.Starts procedures next frame state part := by
  cases asked <;> exact Iff.rfl

theorem Call.trails {B : Type} (asked : Call S E B) {next : Option B → Routine S E A}
    {frame : Frame S E} {world : S.World} {part : Work S} :
    (Routine.call asked next).Trails frame world part ↔
      part = .trail (next none) frame world := by
  cases asked <;> exact Iff.rfl

theorem Call.aftermath {B : Type} (asked : Call S E B) {next : Option B → Routine S E A}
    {frame : Frame S E} {world : S.World} :
    (Routine.call asked next).aftermath frame world = (next none).aftermath frame world := by
  cases asked <;> rfl

variable (procedures)

def Settled.Drains (settled : Settled E A) (frame : Frame S E) (state : RunState S)
    (part : Work S) : Prop :=
  ∃ finalizer older, frame.finalizers = finalizer :: older ∧
    (part = .task (.drive finalizer) { context := frame.context, depth := frame.depth + 1 }
      (state.finalizerRan frame.depth) ∨
    ∃ (history : History S) (result : Evaluated S E Unit),
      Runs procedures (.drive finalizer) { context := frame.context, depth := frame.depth + 1 }
        (state.finalizerRan frame.depth) history result ∧
      part = .task (.drain (settled.absorb result.settled).1)
        { frame with
          finalizers := older
          suppressed := (Machine.discard (settled.absorb result.settled).2 frame.depth
            (frame.suppressed ++ result.frame.suppressed) result.state).1 }
        (Machine.discard (settled.absorb result.settled).2 frame.depth
          (frame.suppressed ++ result.frame.suppressed) result.state).2)

end

namespace Work

def Starts (procedures : Procedures S) (work part : Work S) : Prop :=
  match work with
  | .task (.evaluate sequence) frame state => sequence.Starts procedures frame state part
  | .task (.handle (.nested layer body)) frame state =>
      part = .task (.nest body)
        { context := frame.context.extend layer, depth := frame.depth + 1 } state
  | .task (.handle _) _ _ => False
  | .task (.play routine) frame state => routine.Starts procedures frame state part
  | .task (.attempt inner) frame state =>
      part = .task (.nest inner) { context := frame.context, depth := frame.depth + 1 } state
  | .task (.nest body) frame state =>
      part = .task (.drive body) frame
        ((state.countStep .runNested).record (.nestedEntered frame.depth))
  | .task (.drive sequence) frame state =>
      part = .task (.evaluate sequence) { context := frame.context, depth := frame.depth }
        (state.reach frame.depth) ∨
      ∃ history body,
        Runs procedures (.evaluate sequence) { context := frame.context, depth := frame.depth }
          (state.reach frame.depth) history body ∧
        part = .task (.drain body.settled) body.frame body.state
  | .task (.drain settled) frame state => settled.Drains procedures frame state part
  | .trail routine frame world => routine.Trails frame world part

variable (procedures : Procedures S) (closed : Work S → Prop)

/-- The second piece is a part of the first, not inside a closed part. -/
def Reaches : Work S → Work S → Prop :=
  Relation.ReflTransGen fun work part => ¬ closed work ∧ Starts procedures work part

def Ends : Work S → History S → S.World → Prop
  | .task work frame state, history, left =>
      ∃ out, Runs procedures work frame state history out ∧ out.state.world = left
  | .trail routine frame world, history, left =>
      history = [] ∧ routine.aftermath frame world = left

variable {procedures closed} {work part next : Work S}

def Always (procedures : Procedures S) (closed good : Work S → Prop) (work : Work S) : Prop :=
  ∀ part, work.Reaches procedures closed part → good part

theorem Always.of_starts {good : Work S → Prop} (here : good work)
    (starts : ¬ closed work → ∀ part, work.Starts procedures part →
      part.Always procedures closed good) : work.Always procedures closed good := by
  intro part reached
  rcases Relation.ReflTransGen.cases_head reached with rfl | ⟨next, ⟨opened, started⟩, rest⟩
  · exact here
  · exact starts opened next started part rest

theorem Always.of_inert {good : Work S → Prop} (here : good work)
    (inert : ∀ part, ¬ work.Starts procedures part) : work.Always procedures closed good :=
  .of_starts here fun _ part started => absurd started (inert part)

theorem Reaches.onward (reached : work.Reaches procedures closed part) (opened : ¬ closed part)
    (starts : part.Starts procedures next) : work.Reaches procedures closed next :=
  reached.tail ⟨opened, starts⟩

end Work

def Interpreter.work (interpreter : Interpreter S) (sequence : Sequence S E A)
    (context : Context S) (world : S.World) : Work S :=
  .task (.drive sequence) { context, depth := 0 } ⟨{ config := interpreter.config }, world⟩

/-! ## What a run keeps -/

structure History.Passes (Kept : S.World → Prop) (Allowed : Failure → Prop) (history : History S)
    (left : S.World) : Prop where
  kept : Kept left
  allowed : ∀ failure ∈ history.filterMap Moment.raised?, Allowed failure

namespace History.Passes

variable {Kept : S.World → Prop} {Allowed : Failure → Prop} {before after : History S}
  {middle left : S.World}

theorem quiet (kept : Kept left) (silent : before.filterMap Moment.raised? = []) :
    before.Passes Kept Allowed left :=
  ⟨kept, silent ▸ List.forall_mem_nil _⟩

theorem cons {moment : Moment S} (silent : moment.raised? = none)
    (passes : after.Passes Kept Allowed left) :
    History.Passes Kept Allowed (moment :: after) left where
  kept := passes.kept
  allowed := by
    rw [List.filterMap_cons_none silent]
    exact passes.allowed

theorem followed (first : before.Passes Kept Allowed middle)
    (second : Kept middle → after.Passes Kept Allowed left) :
    (before ++ after).Passes Kept Allowed left where
  kept := (second first.kept).kept
  allowed := by
    rw [List.filterMap_append, List.forall_mem_append]
    exact ⟨first.allowed, (second first.kept).allowed⟩

end History.Passes

theorem Discarded.filterMap_raised (discarded : Discarded E) (depth : Nat) :
    (discarded.moments depth : History S).filterMap Moment.raised? = [] := by
  cases discarded <;> rfl

/-- What the acts, the failures and the closed parts of a run owe to keep a property of worlds. -/
structure Work.Guards (procedures : Procedures S) (closed : Work S → Prop)
    (Kept : S.World → Prop) (Allowed : Failure → Prop) (work : Work S) : Prop where
  acts : ∀ {part act}, work.Reaches procedures closed part → ¬ closed part →
    part.act? = some act → Kept part.world → Kept (act part.world)
  raises : ∀ {part failure}, work.Reaches procedures closed part → ¬ closed part →
    part.raised? = some failure → Kept part.world → Allowed failure
  inside : ∀ {part history left}, work.Reaches procedures closed part → closed part →
    Kept part.world → part.Ends procedures history left → history.Passes Kept Allowed left

namespace Work.Guards

variable {procedures : Procedures S} {closed : Work S → Prop} {Kept : S.World → Prop}
  {Allowed : Failure → Prop} {work part next : Work S}

theorem entered (guards : work.Guards procedures closed Kept Allowed)
    (reached : work.Reaches procedures closed part) (kept : Kept part.world)
    {history : History S} {left : S.World} (ends : part.Ends procedures history left)
    (opened : ¬ closed part → history.Passes Kept Allowed left) :
    history.Passes Kept Allowed left := by
  by_cases hidden : closed part
  · exact guards.inside reached hidden kept ends
  · exact opened hidden

theorem of_trail (guards : work.Guards procedures closed Kept Allowed) {routine : Routine S E A}
    {frame : Frame S E} {world : S.World}
    (reached : work.Reaches procedures closed (.trail routine frame world)) (kept : Kept world) :
    History.Passes Kept Allowed [] (routine.aftermath frame world) := by
  induction routine using Routine.call_induction generalizing world with
  | done value => exact .quiet kept rfl
  | abort => exact .quiet kept rfl
  | effect act next ih =>
      refine guards.entered reached kept ⟨rfl, rfl⟩ fun opened => ?_
      exact ih _ (reached.onward opened rfl) (guards.acts reached opened rfl kept)
  | call asked next ih =>
      refine guards.entered reached kept ⟨rfl, rfl⟩ fun opened => ?_
      rw [asked.aftermath]
      exact ih none (reached.onward opened (asked.trails.mpr rfl)) kept
  | depth next ih =>
      refine guards.entered reached kept ⟨rfl, rfl⟩ fun opened => ?_
      exact ih _ (reached.onward opened rfl) kept
  | context next ih =>
      refine guards.entered reached kept ⟨rfl, rfl⟩ fun opened => ?_
      exact ih _ (reached.onward opened rfl) kept

theorem of_answered (guards : work.Guards procedures closed Kept Allowed) {B : Type}
    (asked : Call S E B) {next : Option B → Routine S E A} {frame frame' : Frame S E}
    {state state' : RunState S} {before after : History S} {value : B} {out : Evaluated S E A}
    (first : Runs procedures asked.task frame state before ⟨.ok value, frame', state'⟩)
    (second : Runs procedures (.play (next (some value))) frame' state' after out)
    (passesFirst : work.Reaches procedures closed (.task asked.task frame state) →
      Kept state.world → before.Passes Kept Allowed state'.world)
    (passesSecond : work.Reaches procedures closed
        (.task (.play (next (some value))) frame' state') →
      Kept state'.world → after.Passes Kept Allowed out.state.world)
    (reached : work.Reaches procedures closed (.task (.play (.call asked next)) frame state))
    (kept : Kept state.world) : (before ++ after).Passes Kept Allowed out.state.world := by
  have run := (Runs.call_iff asked next).mpr (.inl ⟨_, _, _, _, _, rfl, first, second⟩)
  refine guards.entered reached kept ⟨_, run, rfl⟩ fun opened => ?_
  have asking := reached.onward opened (asked.starts.mpr (Or.inl rfl))
  have going := reached.onward opened (asked.starts.mpr (Or.inr (.inl ⟨_, _, _, _, first, rfl⟩)))
  exact (passesFirst asking kept).followed (passesSecond going)

theorem of_latched (guards : work.Guards procedures closed Kept Allowed) {B : Type}
    (asked : Call S E B) {next : Option B → Routine S E A} {frame frame' : Frame S E}
    {state state' : RunState S} {history : History S} {interrupt : Interrupt E}
    (first : Runs procedures asked.task frame state history ⟨.error interrupt, frame', state'⟩)
    (passes : work.Reaches procedures closed (.task asked.task frame state) →
      Kept state.world → history.Passes Kept Allowed state'.world)
    (reached : work.Reaches procedures closed (.task (.play (.call asked next)) frame state))
    (kept : Kept state.world) :
    history.Passes Kept Allowed ((next none).aftermath frame' state'.world) := by
  have run := (Runs.call_iff asked next).mpr (.inr ⟨_, _, _, rfl, first⟩)
  refine guards.entered reached kept ⟨_, run, rfl⟩ fun opened => ?_
  have asking := passes (reached.onward opened (asked.starts.mpr (Or.inl rfl))) kept
  have going := reached.onward opened (asked.starts.mpr (Or.inr (.inr ⟨_, _, _, _, first, rfl⟩)))
  exact ⟨(guards.of_trail going asking.kept).kept, asking.allowed⟩

theorem of_runs (guards : work.Guards procedures closed Kept Allowed) {task : Task S E A}
    {frame : Frame S E} {state : RunState S} {history : History S} {out : Evaluated S E A}
    (run : Runs procedures task frame state history out)
    (reached : work.Reaches procedures closed (.task task frame state))
    (kept : Kept state.world) : history.Passes Kept Allowed out.state.world := by
  induction run with
  | succeed => exact .quiet kept rfl
  | perform handled ih =>
      refine guards.entered reached kept ⟨_, .perform handled, rfl⟩ fun opened => ?_
      exact ih (reached.onward opened rfl) kept
  | effect after ih =>
      refine guards.entered reached kept ⟨_, .effect after, rfl⟩ fun opened => ?_
      exact ih (reached.onward opened rfl) (guards.acts reached opened rfl kept)
  | call body ih =>
      refine guards.entered reached kept ⟨_, .call body, rfl⟩ fun opened => ?_
      exact ih (reached.onward opened rfl) kept
  | andThenValue first second ihFirst ihSecond =>
      refine guards.entered reached kept ⟨_, .andThenValue first second, rfl⟩ fun opened => ?_
      have begun := ihFirst (reached.onward opened (Or.inl rfl)) kept
      exact begun.followed (ihSecond (reached.onward opened (Or.inr ⟨_, _, _, _, first, rfl⟩)))
  | andThenInterrupt first ih =>
      refine guards.entered reached kept ⟨_, .andThenInterrupt first, rfl⟩ fun opened => ?_
      exact ih (reached.onward opened (Or.inl rfl)) kept
  | foldValue first second ihFirst ihSecond =>
      refine guards.entered reached kept ⟨_, .foldValue first second, rfl⟩ fun opened => ?_
      have begun := ihFirst (reached.onward opened (Or.inl rfl)) kept
      exact begun.followed
        (ihSecond (reached.onward opened (Or.inr (.inl ⟨_, _, _, _, first, rfl⟩))))
  | foldFailure first second ihFirst ihSecond =>
      refine guards.entered reached kept ⟨_, .foldFailure first second, rfl⟩ fun opened => ?_
      have begun := ihFirst (reached.onward opened (Or.inl rfl)) kept
      refine begun.followed fun kept' => .cons rfl ?_
      exact ihSecond (reached.onward opened (Or.inr (.inr ⟨_, _, _, _, first, rfl⟩))) kept'
  | foldDefect first ih =>
      refine guards.entered reached kept ⟨_, .foldDefect first, rfl⟩ fun opened => ?_
      exact ih (reached.onward opened (Or.inl rfl)) kept
  | ensuring first ih =>
      refine guards.entered reached kept ⟨_, .ensuring first, rfl⟩ fun opened => ?_
      exact (ih (reached.onward opened rfl) kept).followed fun kept' => .quiet kept' rfl
  | routine played ih =>
      refine guards.entered reached kept ⟨_, .routine played, rfl⟩ fun opened => ?_
      exact ih (reached.onward opened rfl) kept
  | requestFound found => exact .quiet kept rfl
  | requestMissing missing => exact .quiet kept rfl
  | fail =>
      refine guards.entered reached kept ⟨_, .fail, rfl⟩ fun opened => ?_
      exact ⟨kept, List.forall_mem_singleton.mpr (guards.raises reached opened rfl kept)⟩
  | nested inner ih =>
      refine guards.entered reached kept ⟨_, .nested inner, rfl⟩ fun opened => ?_
      exact ih (reached.onward opened rfl) kept
  | finalize => exact .quiet kept rfl
  | done => exact .quiet kept rfl
  | abort => exact .quiet kept rfl
  | act after ih =>
      refine guards.entered reached kept ⟨_, .act after, rfl⟩ fun opened => ?_
      exact ih (reached.onward opened rfl) (guards.acts reached opened rfl kept)
  | @performValue _ _ _ step _ _ _ _ _ _ _ _ _ first second ihFirst ihSecond =>
      exact guards.of_answered (.perform step) first second ihFirst ihSecond reached kept
  | @performInterrupt _ _ _ step _ _ _ _ _ _ _ first ih =>
      exact guards.of_latched (.perform step) first ih reached kept
  | @bindValue _ _ _ inner _ _ _ _ _ _ _ _ _ first second ihFirst ihSecond =>
      exact guards.of_answered (.bind inner) first second ihFirst ihSecond reached kept
  | @bindInterrupt _ _ _ inner _ _ _ _ _ _ _ first ih =>
      exact guards.of_latched (.bind inner) first ih reached kept
  | @attemptValue _ _ _ _ inner _ _ _ _ _ _ _ _ _ first second ihFirst ihSecond =>
      exact guards.of_answered (.attempt inner) first second ihFirst ihSecond reached kept
  | @attemptInterrupt _ _ _ _ inner _ _ _ _ _ _ _ first ih =>
      exact guards.of_latched (.attempt inner) first ih reached kept
  | depth after ih =>
      refine guards.entered reached kept ⟨_, .depth after, rfl⟩ fun opened => ?_
      exact ih (reached.onward opened rfl) kept
  | context after ih =>
      refine guards.entered reached kept ⟨_, .context after, rfl⟩ fun opened => ?_
      exact ih (reached.onward opened rfl) kept
  | attempt nested ih =>
      refine guards.entered reached kept ⟨_, .attempt nested, rfl⟩ fun opened => ?_
      exact (ih (reached.onward opened rfl) kept).followed fun kept' => .quiet kept' rfl
  | nest driven ih =>
      refine guards.entered reached kept ⟨_, .nest driven, rfl⟩ fun opened => ?_
      have passes := ih (reached.onward opened rfl) kept
      exact (passes.cons rfl).followed fun kept' => .quiet kept' rfl
  | drive evaluated drained ihEvaluated ihDrained =>
      refine guards.entered reached kept ⟨_, .drive evaluated drained, rfl⟩ fun opened => ?_
      have body := ihEvaluated (reached.onward opened (Or.inl rfl)) kept
      have drain := ihDrained (reached.onward opened (Or.inr ⟨_, _, evaluated, rfl⟩)) body.kept
      exact ((body.cons rfl).followed fun _ => drain.cons rfl).followed
        fun kept' => .quiet kept' rfl
  | drained none => exact .quiet kept rfl
  | @finalizer _ _ settled frame _ _ _ _ _ result _ newest driven drained ihDriven ihDrained =>
      refine guards.entered reached kept ⟨_, .finalizer newest driven drained, rfl⟩
        fun opened => ?_
      have ran := ihDriven (reached.onward opened ⟨_, _, newest, .inl rfl⟩) kept
      have noted : Kept (Machine.discard (settled.absorb result.settled).2 frame.depth
          (frame.suppressed ++ result.frame.suppressed) result.state).2.world := by
        rw [Machine.discard_state]
        exact ran.kept
      have discarding : ((settled.absorb result.settled).2.moments frame.depth).Passes Kept Allowed
          result.state.world := .quiet ran.kept (Discarded.filterMap_raised _ _)
      have drain := ihDrained
        (reached.onward opened ⟨_, _, newest, .inr ⟨_, _, driven, rfl⟩⟩) noted
      exact ((ran.cons rfl).followed fun _ => discarding).followed fun _ => drain

theorem of_ends (guards : work.Guards procedures closed Kept Allowed)
    (reached : work.Reaches procedures closed part) (kept : Kept part.world)
    {history : History S} {left : S.World} (ends : part.Ends procedures history left) :
    history.Passes Kept Allowed left := by
  cases part with
  | task task frame state =>
      obtain ⟨out, run, rfl⟩ := ends
      exact guards.of_runs run reached kept
  | trail routine frame world =>
      obtain ⟨rfl, rfl⟩ := ends
      exact guards.of_trail reached kept

theorem of_asked (guards : work.Guards procedures closed Kept Allowed) {B : Type}
    (asked : Call S E B) {resume : Option B → Routine S E A} {frame : Frame S E}
    {state : RunState S}
    (reached : work.Reaches procedures closed (.task (.play (.call asked resume)) frame state))
    (opened : ¬ closed (.task (.play (.call asked resume)) frame state))
    (kept : Kept state.world) (starts : asked.Starts procedures resume frame state next) :
    Kept next.world := by
  have asking := reached.onward opened (asked.starts.mpr (Or.inl rfl))
  rcases starts with rfl | ⟨_, _, _, _, first, rfl⟩ | ⟨_, _, _, _, first, rfl⟩
  · exact kept
  · exact (guards.of_runs first asking kept).kept
  · exact (guards.of_runs first asking kept).kept

theorem of_starts (guards : work.Guards procedures closed Kept Allowed)
    (reached : work.Reaches procedures closed part) (opened : ¬ closed part)
    (kept : Kept part.world) (starts : part.Starts procedures next) : Kept next.world := by
  -- A part that starts at once starts from the world of the whole; any other starts from the
  -- world that an earlier part leaves.
  cases part with
  | trail routine frame world =>
      cases routine with
      | done value => cases starts
      | abort => cases starts
      | effect act next =>
          cases starts
          exact guards.acts reached opened rfl kept
      | _ =>
          cases starts
          exact kept
  | task task frame state =>
      cases task with
      | evaluate sequence =>
          cases sequence with
          | succeed value => cases starts
          | effect act next =>
              cases starts
              exact guards.acts reached opened rfl kept
          | andThen inner next =>
              rcases starts with rfl | ⟨_, _, _, _, first, rfl⟩
              · exact kept
              · exact (guards.of_runs first (reached.onward opened (Or.inl rfl)) kept).kept
          | fold inner next recover =>
              rcases starts with rfl | ⟨_, _, _, _, first, rfl⟩ | ⟨_, _, _, _, first, rfl⟩
              · exact kept
              · exact (guards.of_runs first (reached.onward opened (Or.inl rfl)) kept).kept
              · exact (guards.of_runs first (reached.onward opened (Or.inl rfl)) kept).kept
          | _ =>
              cases starts
              exact kept
      | handle step =>
          cases step <;> cases starts
          exact kept
      | play routine =>
          cases routine with
          | done value => cases starts
          | abort => cases starts
          | effect act next =>
              cases starts
              exact guards.acts reached opened rfl kept
          | perform step next => exact guards.of_asked (.perform step) reached opened kept starts
          | bind inner next => exact guards.of_asked (.bind inner) reached opened kept starts
          | attempt inner next => exact guards.of_asked (.attempt inner) reached opened kept starts
          | _ =>
              cases starts
              exact kept
      | drive sequence =>
          rcases starts with rfl | ⟨_, _, evaluated, rfl⟩
          · exact kept
          · exact (guards.of_runs evaluated (reached.onward opened (Or.inl rfl)) kept).kept
      | drain settled =>
          obtain ⟨_, _, newest, rfl | ⟨_, _, driven, rfl⟩⟩ := starts
          · exact kept
          · rw [Work.world, Machine.discard_state]
            exact (guards.of_runs driven (reached.onward opened ⟨_, _, newest, .inl rfl⟩) kept).kept
      | _ =>
          cases starts
          exact kept

theorem of_reaches (guards : work.Guards procedures closed Kept Allowed) (kept : Kept work.world)
    (reached : work.Reaches procedures closed part) : Kept part.world := by
  induction reached with
  | refl => exact kept
  | tail earlier step ih => exact guards.of_starts earlier step.1 ih step.2

end Work.Guards

end Sequencer
