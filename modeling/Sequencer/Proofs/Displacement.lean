import Sequencer.Proofs.Licence
import Sequencer.Proofs.Replay

/-!
# Work in another place

A frame's depth and context are the place where its work is done.  A `Displacement` takes places
to other places: depths from `floor` on are shifted, and a context may be exchanged for another
that answers alike for the `wanted` keys, whatever layers join both.  What a licence lets routines
see of their place must not change.  Then a run can be repeated in the other place.  It settles in
the same way, and its history differs in places only (`Runs.displaced`).
-/

namespace Sequencer

variable {S : Signature} {E A B : Type}

/-! ## Histories in another place -/

def Moment.moved (f : Nat → Nat) : Moment S → Moment S
  | .opened sequence _ depth => .opened sequence .empty (f depth)
  | .settled depth => .settled (f depth)
  | .closed depth => .closed (f depth)
  | .entered depth => .entered (f depth)
  | .exited depth ok => .exited (f depth) ok
  | .resolved depth capability => .resolved (f depth) capability
  | .unresolved depth capability => .unresolved (f depth) capability
  | .detached depth => .detached (f depth)
  | .failed depth failure => .failed (f depth) failure
  | .recovered depth failure => .recovered (f depth) failure
  | .attempted depth handed => .attempted (f depth) handed
  | .registered depth finalizer => .registered (f depth) finalizer
  | .finalizing depth => .finalizing (f depth)
  | .suppressed depth failure => .suppressed (f depth) failure
  | .outlived depth => .outlived (f depth)

def TraceEvent.moved (f : Nat → Nat) : TraceEvent → TraceEvent
  | .capabilityResolved depth name => .capabilityResolved (f depth) name
  | .capabilityUnresolved depth name => .capabilityUnresolved (f depth) name
  | .failed depth => .failed (f depth)
  | .nestedEntered depth => .nestedEntered (f depth)
  | .nestedExited depth ok => .nestedExited (f depth) ok
  | .finalizerRegistered depth => .finalizerRegistered (f depth)
  | .finalizerRan depth => .finalizerRan (f depth)
  | .finalizerSuppressed depth => .finalizerSuppressed (f depth)

theorem TraceEvent.moved_id : TraceEvent.moved id = id := by
  funext event
  cases event <;> rfl

def Moved (f : Nat → Nat) (history history' : History S) : Prop :=
  history'.map (Moment.moved id) = history.map (Moment.moved f)

theorem fullTrace_map_moved (f : Nat → Nat) (history : History S) :
    fullTrace (history.map (Moment.moved f)) = (fullTrace history).map (TraceEvent.moved f) := by
  induction history with
  | nil => rfl
  | cons moment history ih =>
      rw [List.map_cons, fullTrace_cons, ih, fullTrace_cons, List.map_append]
      cases moment <;> rfl

def Moment.request? : Moment S → Option Capability
  | .resolved _ capability => some capability
  | .unresolved _ capability => some capability
  | _ => none

def requests (history : History S) : List Capability :=
  history.filterMap Moment.request?

theorem requests_map_moved (f : Nat → Nat) (history : History S) :
    requests (history.map (Moment.moved f)) = requests history := by
  rw [requests, List.filterMap_map, requests]
  congr 1
  funext moment
  cases moment <;> rfl

namespace Moved

variable {f : Nat → Nat} {history history' before before' after after' : History S}

theorem nil : Moved f ([] : History S) [] := rfl

theorem cons {moment moment' : Moment S} (same : moment'.moved id = moment.moved f)
    (rest : Moved f history history') : Moved f (moment :: history) (moment' :: history') := by
  rw [Moved, List.map_cons, List.map_cons, same, rest]

theorem append (first : Moved f before before') (second : Moved f after after') :
    Moved f (before ++ after) (before' ++ after') := by
  rw [Moved, List.map_append, List.map_append, first, second]

theorem moments {depth depth' : Nat} (shifted : depth' = f depth) (discarded : Discarded E) :
    Moved f (discarded.moments depth : History S) (discarded.moments depth') := by
  subst shifted
  cases discarded <;> rfl

theorem fullTrace_eq (moved : Moved f history history') :
    fullTrace history' = (fullTrace history).map (TraceEvent.moved f) := by
  have same := congrArg fullTrace moved
  rwa [fullTrace_map_moved, fullTrace_map_moved, TraceEvent.moved_id, List.map_id] at same

theorem requests_eq (moved : Moved f history history') : requests history' = requests history := by
  have same := congrArg requests moved
  rwa [requests_map_moved, requests_map_moved] at same

end Moved

/-! ## Displacements -/

structure Displacement (licence : Licence S) where
  floor : Nat
  depth : Nat → Nat
  wanted : Nat → Prop
  Alike : Context S → Context S → Prop
  depth_succ : ∀ {d : Nat}, floor ≤ d → depth (d + 1) = depth d + 1
  lookup_eq : ∀ {context context' : Context S}, Alike context context' →
    ∀ {shape : S.Shape} (key : Key S shape), wanted key.id →
      context'.lookup key = context.lookup key
  extend : ∀ {context context' : Context S} {layer : Layer S}, Alike context context' →
    licence.layers layer → Alike (context.extend layer) (context'.extend layer)
  depth_unseen : licence.depth → ∀ {d : Nat}, floor ≤ d → depth d = d
  context_unseen : licence.context → ∀ {context context' : Context S}, Alike context context' →
    context' = context

namespace Displacement

variable {licence : Licence S} (m : Displacement licence)

structure Carries (frame frame' : Frame S E) : Prop where
  high : m.floor ≤ frame.depth
  depth : frame'.depth = m.depth frame.depth
  context : m.Alike frame.context frame'.context
  finalizers : frame'.finalizers = frame.finalizers
  suppressed : frame'.suppressed = frame.suppressed
  keeps : frame.Keeps licence

def Knows (history : History S) : Prop :=
  ∀ capability ∈ requests history, m.wanted capability.id

/-- The task makes the same history from the other frame and ends in the same way there. -/
def Repeats (procedures : Procedures S) (task : Task S E A) (frame' : Frame S E)
    (state' : RunState S) (history : History S) (out : Evaluated S E A) : Prop :=
  ∃ history' after journal, Moved m.depth history history' ∧ m.Carries out.frame after ∧
    Runs procedures task frame' state' history' ⟨out.settled, after, ⟨journal, out.state.world⟩⟩

variable {m}

theorem Knows.append {before after : History S} (known : m.Knows (before ++ after)) :
    m.Knows before ∧ m.Knows after := by
  rw [Knows, requests, List.filterMap_append] at known
  exact List.forall_mem_append.mp known

theorem Knows.tail {moment : Moment S} {history : History S}
    (known : m.Knows (moment :: history)) : m.Knows history :=
  (Knows.append (List.singleton_append ▸ known)).2

namespace Carries

variable {frame frame' : Frame S E}

theorem register (carries : m.Carries frame frame') {finalizer : Sequence S E Unit}
    (keeps : finalizer.Keeps licence) :
    m.Carries (frame.register finalizer) (frame'.register finalizer) where
  high := carries.high
  depth := carries.depth
  context := carries.context
  finalizers := congrArg (finalizer :: ·) carries.finalizers
  suppressed := carries.suppressed
  keeps := carries.keeps.register keeps

theorem inner {F : Type} (carries : m.Carries frame frame') {context context' : Context S}
    (alike : m.Alike context context') :
    m.Carries ({ context, depth := frame.depth + 1 } : Frame S F)
      { context := context', depth := frame'.depth + 1 } where
  high := Nat.le_succ_of_le carries.high
  depth := by rw [carries.depth, m.depth_succ carries.high]
  context := alike
  finalizers := rfl
  suppressed := rfl
  keeps := nofun

theorem aftermath_eq (carries : m.Carries frame frame') (routine : Routine S E A)
    (keeps : routine.Keeps licence) (world : S.World) :
    routine.aftermath frame' world = routine.aftermath frame world := by
  induction routine using Routine.induction generalizing world with
  | done value => rfl
  | abort => rfl
  | effect act next ih => exact ih _ (keeps _) _
  | perform step next ih => exact ih none (keeps.2 _) world
  | bind inner next ih => exact ih none (keeps.2 _) world
  | attempt inner next ih => exact ih none (keeps.2.2 _) world
  | depth next ih =>
      have same : frame'.depth = frame.depth :=
        carries.depth.trans (m.depth_unseen keeps.1 carries.high)
      simp only [Routine.aftermath, same]
      exact ih _ (keeps.2 _) world
  | context next ih =>
      have same : frame'.context = frame.context := m.context_unseen keeps.1 carries.context
      simp only [Routine.aftermath, same]
      exact ih _ (keeps.2 _) world

end Carries

namespace Repeats

variable {procedures : Procedures S} {task : Task S E A} {frame' : Frame S E}
  {state' : RunState S} {history before after : History S} {out : Evaluated S E A}

theorem imp {task₁ : Task S E A} {state₁ : RunState S}
    (first : m.Repeats procedures task₁ frame' state₁ history out)
    (rule : ∀ {history' : History S} {out' : Evaluated S E A},
      Runs procedures task₁ frame' state₁ history' out' →
        Runs procedures task frame' state' history' out') :
    m.Repeats procedures task frame' state' history out := by
  obtain ⟨history', frame₁, journal, moved, carried, run⟩ := first
  exact ⟨history', frame₁, journal, moved, carried, rule run⟩

theorem followed {task₁ : Task S E B} {task₂ : Task S E A} {value : B} {frame₁ : Frame S E}
    {state₁ : RunState S}
    (first : m.Repeats procedures task₁ frame' state' before ⟨.ok value, frame₁, state₁⟩)
    (second : ∀ {frame₁' : Frame S E}, m.Carries frame₁ frame₁' → ∀ journal : Journal,
      m.Repeats procedures task₂ frame₁' ⟨journal, state₁.world⟩ after out)
    (rule : ∀ {before' after' : History S} {frame₁' : Frame S E} {state₁' : RunState S}
      {out' : Evaluated S E A},
      Runs procedures task₁ frame' state' before' ⟨.ok value, frame₁', state₁'⟩ →
      Runs procedures task₂ frame₁' state₁' after' out' →
        Runs procedures task frame' state' (before' ++ after') out') :
    m.Repeats procedures task frame' state' (before ++ after) out := by
  obtain ⟨before', frame₁', journal, moved, carried, run⟩ := first
  obtain ⟨after', last, journal', moved', carried', run'⟩ := second carried journal
  exact ⟨_, last, journal', moved.append moved', carried', rule run run'⟩

theorem interrupted {task₁ : Task S E B} {interrupt : Interrupt E} {routine : Routine S E A}
    {frame₁ : Frame S E} {state₁ : RunState S} (keeps : routine.Keeps licence)
    (first : m.Repeats procedures task₁ frame' state' history
      ⟨.error interrupt, frame₁, state₁⟩)
    (rule : ∀ {history' : History S} {frame₁' : Frame S E} {state₁' : RunState S},
      Runs procedures task₁ frame' state' history' ⟨.error interrupt, frame₁', state₁'⟩ →
        Runs procedures task frame' state' history' ⟨.error interrupt, frame₁',
          { state₁' with world := routine.aftermath frame₁' state₁'.world }⟩) :
    m.Repeats procedures task frame' state' history
      ⟨.error interrupt, frame₁,
        { state₁ with world := routine.aftermath frame₁ state₁.world }⟩ := by
  obtain ⟨history', frame₁', journal, moved, carried, run⟩ := first
  have ended := rule run
  simp only [carried.aftermath_eq routine keeps] at ended
  exact ⟨history', frame₁', journal, moved, carried, ended⟩

end Repeats

end Displacement

theorem Machine.discard_fst (discarded : Discarded E) (depth depth' : Nat) (suppressed : Array E)
    (state state' : RunState S) :
    (Machine.discard discarded depth suppressed state).1 =
      (Machine.discard discarded depth' suppressed state').1 := by
  cases discarded <;> rfl

theorem Runs.displaced {licence : Licence S} (m : Displacement licence)
    {procedures : Procedures S} (covers : licence.Covers procedures) {task : Task S E A}
    {frame frame' : Frame S E} {state : RunState S} {history : History S}
    {out : Evaluated S E A} (run : Runs procedures task frame state history out)
    (keeps : task.Keeps licence) (known : m.Knows history) (carries : m.Carries frame frame')
    (journal : Journal) :
    m.Repeats procedures task frame' ⟨journal, state.world⟩ history out := by
  induction run generalizing journal with
  | succeed => exact ⟨_, frame', journal, .nil, carries, .succeed⟩
  | perform handled ih => exact (ih keeps known carries journal).imp .perform
  | effect after ih => exact (ih (keeps _) known carries journal).imp fun run' => .effect run'
  | call body ih => exact (ih (covers _ keeps) known carries journal).imp .call
  | andThenValue first second ihFirst ihSecond =>
      exact (ihFirst keeps.1 known.append.1 carries journal).followed
        (ihSecond (keeps.2 _) known.append.2) .andThenValue
  | andThenInterrupt first ih =>
      obtain ⟨history', frame₁, journal', moved, carried, run'⟩ := ih keeps.1 known carries journal
      exact ⟨history', frame₁, journal', moved, carried, .andThenInterrupt run'⟩
  | foldValue first second ihFirst ihSecond =>
      exact (ihFirst keeps.1 known.append.1 carries journal).followed
        (ihSecond (keeps.2.1 _) known.append.2) .foldValue
  | foldFailure first second ihFirst ihSecond =>
      obtain ⟨before', frame₁, journal', moved, carried, run'⟩ :=
        ihFirst keeps.1 known.append.1 carries journal
      obtain ⟨after', last, journal'', moved', carried', run''⟩ :=
        ihSecond (keeps.2.2 _) known.append.2.tail carried journal'
      refine ⟨_, last, journal'', moved.append (moved'.cons ?_), carried', .foldFailure run' run''⟩
      simp only [Moment.moved, carried.depth, id]
  | foldDefect first ih =>
      obtain ⟨history', frame₁, journal', moved, carried, run'⟩ := ih keeps.1 known carries journal
      exact ⟨history', frame₁, journal', moved, carried, .foldDefect run'⟩
  | ensuring first ih =>
      obtain ⟨history', frame₁, journal', moved, carried, run'⟩ :=
        ih keeps.1 known.append.1 carries journal
      refine ⟨_, _, (journal'.countStep .finalize).record (.finalizerRegistered frame₁.depth),
        moved.append (Moved.nil.cons ?_), carried.register keeps.2, .ensuring run'⟩
      simp only [Moment.moved, carried.depth, id]
  | routine played ih => exact (ih keeps known carries journal).imp .routine
  | requestFound found =>
      have wanted := known _ List.mem_cons_self
      have found' := (m.lookup_eq carries.context _ wanted).trans found
      refine ⟨_, frame', _, Moved.nil.cons ?_, carries, .requestFound found'⟩
      simp only [Moment.moved, carries.depth, id]
  | requestMissing missing =>
      have wanted := known _ List.mem_cons_self
      have missing' := (m.lookup_eq carries.context _ wanted).trans missing
      refine ⟨_, frame', _, Moved.nil.cons ?_, carries, .requestMissing missing'⟩
      simp only [Moment.moved, carries.depth, id]
  | fail =>
      refine ⟨_, frame', _, Moved.nil.cons ?_, carries, .fail⟩
      simp only [Moment.moved, carries.depth, id]
  | nested inner ih =>
      obtain ⟨history', frame₁, journal', moved, carried, run'⟩ :=
        ih keeps.2 known (carries.inner (m.extend carries.context keeps.1)) journal
      refine ⟨history', _, journal', moved, ?_, .nested run'⟩
      exact { carries with suppressed := by rw [carries.suppressed, carried.suppressed] }
  | finalize =>
      refine ⟨_, _, _, Moved.nil.cons ?_, carries.register keeps, .finalize⟩
      simp only [Moment.moved, carries.depth, id]
  | done => exact ⟨_, frame', journal, .nil, carries, .done⟩
  | abort =>
      refine ⟨_, frame', journal, Moved.nil.cons ?_, carries, .abort⟩
      simp only [Moment.moved, carries.depth, id]
  | act after ih => exact (ih (keeps _) known carries journal).imp fun run' => .act run'
  | performValue first second ihFirst ihSecond =>
      exact (ihFirst keeps.1 known.append.1 carries journal).followed
        (ihSecond (keeps.2 _) known.append.2) .performValue
  | performInterrupt first ih =>
      exact (ih keeps.1 known carries journal).interrupted (keeps.2 none) .performInterrupt
  | bindValue first second ihFirst ihSecond =>
      exact (ihFirst keeps.1 known.append.1 carries journal).followed
        (ihSecond (keeps.2 _) known.append.2) .bindValue
  | bindInterrupt first ih =>
      exact (ih keeps.1 known carries journal).interrupted (keeps.2 none) .bindInterrupt
  | attemptValue first second ihFirst ihSecond =>
      exact (ihFirst ⟨keeps.1, keeps.2.1⟩ known.append.1 carries journal).followed
        (ihSecond (keeps.2.2 _) known.append.2) .attemptValue
  | attemptInterrupt first ih =>
      exact (ih ⟨keeps.1, keeps.2.1⟩ known carries journal).interrupted (keeps.2.2 none)
        .attemptInterrupt
  | @depth _ _ _ frame _ _ _ after ih =>
      have same : frame'.depth = frame.depth :=
        carries.depth.trans (m.depth_unseen keeps.1 carries.high)
      refine (ih (keeps.2 _) known carries journal).imp fun run' => .depth ?_
      rw [same]
      exact run'
  | @context _ _ _ frame _ _ _ after ih =>
      have same : frame'.context = frame.context := m.context_unseen keeps.1 carries.context
      refine (ih (keeps.2 _) known carries journal).imp fun run' => .context ?_
      rw [same]
      exact run'
  | attempt nested ih =>
      obtain ⟨history', frame₁, journal', moved, carried, run'⟩ :=
        ih keeps.2 known.append.1 (carries.inner carries.context) journal
      refine ⟨_, frame', journal', moved.append (Moved.nil.cons ?_), carries, .attempt run'⟩
      simp only [Moment.moved, carries.depth, id]
  | @nest _ _ body frame state _ out driven ih =>
      obtain ⟨history', frame₁, journal', moved, carried, run'⟩ :=
        ih keeps known.append.1.tail carries
          ((journal.countStep .runNested).record (.nestedEntered frame'.depth))
      have inside : Runs procedures (.drive body) frame'
          ((RunState.countStep ⟨journal, state.world⟩ .runNested).record
            (.nestedEntered frame'.depth)) history'
          ⟨out.settled, frame₁, ⟨journal', out.state.world⟩⟩ := run'
      refine ⟨_, frame₁, _, ?_, carried, .nest inside⟩
      refine (moved.cons ?_).append (Moved.nil.cons ?_) <;>
        simp only [Moment.moved, carries.depth, id]
  | @drive _ _ _ context depth state _ _ _ _ evaluated drained ihEvaluated ihDrained =>
      -- A frame is driven from its beginning, so the other one is new as well.
      obtain ⟨context', depth', finalizers', suppressed'⟩ := frame'
      obtain rfl : finalizers' = [] := carries.finalizers
      obtain rfl : suppressed' = #[] := carries.suppressed
      obtain ⟨before', frame₁, journal₁, moved, carried, run₁⟩ :=
        ihEvaluated keeps known.append.1.append.1.tail carries (journal.reach depth')
      obtain ⟨after', frame₂, journal₂, moved', carried', run₂⟩ :=
        ihDrained trivial known.append.1.append.2.tail carried journal₁
      refine ⟨_, frame₂, journal₂, ?_, carried', .drive run₁ run₂⟩
      have shifted : depth' = m.depth depth := carries.depth
      refine ((moved.cons ?_).append (moved'.cons ?_)).append (Moved.nil.cons ?_) <;>
        simp only [Moment.moved, shifted, id]
  | drained none =>
      exact ⟨_, frame', journal, .nil, carries, .drained (carries.finalizers.trans none)⟩
  | @finalizer _ _ settled frame state _ older _ _ result _ newest driven drained ihDriven
        ihDrained =>
      have pending := carries.keeps
      rw [Frame.Keeps, newest, List.forall_mem_cons] at pending
      obtain ⟨before', frame₁, journal₁, moved, carried, run₁⟩ :=
        ihDriven pending.1 known.append.1.append.1.tail (carries.inner carries.context)
          (journal.finalizerRan frame'.depth)
      -- The frame that goes on with the older finalizers, here and there.
      have left : m.Carries
          { frame with
            finalizers := older
            suppressed := (Machine.discard (settled.absorb result.settled).2 frame.depth
              (frame.suppressed ++ result.frame.suppressed) result.state).1 }
          { frame' with
            finalizers := older
            suppressed := (Machine.discard (settled.absorb result.settled).2 frame'.depth
              (frame'.suppressed ++ frame₁.suppressed) ⟨journal₁, result.state.world⟩).1 } :=
        { carries with
          finalizers := rfl
          suppressed := by
            rw [carries.suppressed, carried.suppressed]
            exact Machine.discard_fst _ _ _ _ _ _
          keeps := pending.2 }
      obtain ⟨after', frame₂, journal₂, moved', carried', run₂⟩ :=
        ihDrained trivial known.append.2 left
          (journal₁.replay ((settled.absorb result.settled).2.moments frame'.depth : History S))
      rw [Machine.discard_state] at run₂
      refine ⟨_, frame₂, journal₂,
        ((moved.cons ?_).append (.moments carries.depth _)).append moved', carried',
        @Runs.finalizer _ _ _ _ _ _ _ _ _ _ _
          ⟨result.settled, frame₁, ⟨journal₁, result.state.world⟩⟩ _
          (carries.finalizers.trans newest) run₁ ?_⟩
      · simp only [Moment.moved, carries.depth, id]
      · rw [Machine.discard_state]
        exact run₂

end Sequencer
