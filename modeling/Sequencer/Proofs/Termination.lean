import Sequencer.Proofs.DistinctKeys
import Sequencer.Proofs.Founded
import Sequencer.Proofs.Refinement

/-!
# Termination

The engine comes to an end with every founded sequence, in every frame.  No measure of stack and
frame falls with each step, so the proof goes by the construction of the sequence: on top of any
stack it settles after a number of steps, and the finalizers it leaves on the frame are sequences
that can be driven to their end.
-/

namespace Sequencer

open Filter

variable {S : Signature} {E F A B : Type} {procedures : Procedures S}

/-! ## Conclusive answers -/

universe u v

def Conclusive {α : Type u} (good : α → Prop) : Except Stop α → Prop
  | .error stop => stop ≠ .outOfFuel
  | .ok result => good result

theorem Conclusive.imp {α : Type u} {good good₁ : α → Prop} {result : Except Stop α}
    (conclusive : Conclusive good result) (weaker : ∀ out, good out → good₁ out) :
    Conclusive good₁ result := by
  cases result with
  | error stop => exact conclusive
  | ok out => exact weaker out conclusive

/-- From some number of levels on the answer stays the same, and it is conclusive. -/
def Concludes {α : Type u} (good : α → Prop) (answer : Nat → Except Stop α) : Prop :=
  ∃ result, Conclusive good result ∧ ∀ᶠ n in atTop, answer n = result

namespace Concludes

variable {α : Type u} {β : Type v} {good : α → Prop} {good' : β → Prop}
  {answer : Nat → Except Stop α}

theorem constant {result : Except Stop α} (conclusive : Conclusive good result) :
    Concludes good fun _ => result :=
  ⟨result, conclusive, .of_forall fun _ => rfl⟩

theorem bind {answer' : Nat → Except Stop β} (first : Concludes good answer)
    (next : α → Nat → Except Stop β)
    (stopped : ∀ n stop, answer n = .error stop → answer' n = .error stop)
    (went : ∀ n result, answer n = .ok result → answer' n = next result n)
    (second : ∀ result, good result → Concludes good' (next result)) :
    Concludes good' answer' := by
  obtain ⟨result, conclusive, settled⟩ := first
  cases result with
  | error stop =>
      refine ⟨.error stop, conclusive, ?_⟩
      filter_upwards [settled] with n same
      exact stopped n stop same
  | ok result =>
      obtain ⟨last, conclusive', settled'⟩ := second result conclusive
      refine ⟨last, conclusive', ?_⟩
      filter_upwards [settled, settled'] with n same same'
      rw [went n result same, same']

theorem imp (concludes : Concludes good answer) {good₁ : α → Prop}
    (weaker : ∀ result, good result → good₁ result) : Concludes good₁ answer := by
  obtain ⟨result, conclusive, settled⟩ := concludes
  exact ⟨result, conclusive.imp weaker, settled⟩

end Concludes

/-! ## The machine -/

namespace Machine

variable {R : Type} {good : Evaluated S E A → Prop}

def Comes (procedures : Procedures S) (level : Level S) (k : Nat) (config : Config S E R)
    (stack : Stack S E R A) (result : Except Stop (Evaluated S E A)) : Prop :=
  ∀ fuel, loop procedures level (fuel + k) config =
    match result with
    | .ok out => loop procedures level fuel (.resume out stack)
    | .error stop => .error stop

theorem Comes.after {level : Level S} {k l : Nat} {config next : Config S E R}
    {stack : Stack S E R A} {result : Except Stop (Evaluated S E A)}
    (first : Leads procedures level k config next)
    (second : Comes procedures level l next stack result) :
    Comes procedures level (k + l) config stack result := by
  intro fuel
  rw [show fuel + (k + l) = fuel + l + k by omega, first, second]

/-- Whatever stack it is started on, the machine comes back to it in the end. -/
def ComesTo (procedures : Procedures S) (good : Evaluated S E A → Prop)
    (start : ∀ {R : Type}, Stack S E R A → Config S E R) : Prop :=
  ∃ k result, Conclusive good result ∧ ∀ᶠ n in atTop, ∀ {R : Type} (stack : Stack S E R A),
    Comes procedures (Machine.level procedures n) k (start stack) stack result

namespace ComesTo

variable {start : ∀ {R : Type}, Stack S E R A → Config S E R}

theorem resumed {out : Evaluated S E A} (sound : good out) :
    ComesTo procedures good fun stack => .resume out stack :=
  ⟨0, .ok out, sound, .of_forall fun _ _ _ _ => rfl⟩

theorem imp {good₁ : Evaluated S E A → Prop} (comes : ComesTo procedures good start)
    (weaker : ∀ out, good out → good₁ out) : ComesTo procedures good₁ start := by
  obtain ⟨k, result, conclusive, comes⟩ := comes
  exact ⟨k, result, conclusive.imp weaker, comes⟩

theorem step (next : ∀ {R : Type}, Stack S E R A → Config S E R)
    (stepped : ∀ (level : Level S) {R : Type} (stack : Stack S E R A),
      Machine.step procedures level (start stack) = .more (next stack))
    (rest : ComesTo procedures good next) : ComesTo procedures good start := by
  obtain ⟨k, result, conclusive, comes⟩ := rest
  refine ⟨1 + k, result, conclusive, ?_⟩
  filter_upwards [comes] with n comes R stack
  exact .after (.step (stepped _ stack)) (comes stack)

theorem answered {answer : Nat → Except Stop (Evaluated S E A)}
    (stepped : ∀ (n : Nat) {R : Type} (stack : Stack S E R A),
      Machine.step procedures (Machine.level procedures n) (start stack) =
        .ofEvaluated stack (answer n))
    (concludes : Concludes good answer) : ComesTo procedures good start := by
  obtain ⟨result, conclusive, settled⟩ := concludes
  refine ⟨1, result, conclusive, ?_⟩
  filter_upwards [settled] with n same R stack fuel
  rw [loop, stepped, same]
  cases result <;> rfl

theorem part {first : Evaluated S E B → Prop}
    {inner : ∀ {R : Type}, Stack S E R B → Config S E R}
    (push : ∀ {R : Type}, Stack S E R A → Stack S E R B)
    (pushed : ∀ (level : Level S) {R : Type} (stack : Stack S E R A),
      Machine.step procedures level (start stack) = .more (inner (push stack)))
    (comes : ComesTo procedures first inner)
    (rest : ∀ mid, first mid → ComesTo procedures good fun stack => .resume mid (push stack)) :
    ComesTo procedures good start := by
  obtain ⟨k, result, conclusive, comes⟩ := comes
  refine step (fun stack => inner (push stack)) pushed ?_
  cases result with
  | error stop =>
      refine ⟨k, .error stop, conclusive, ?_⟩
      filter_upwards [comes] with n comes R stack
      exact comes (push stack)
  | ok mid =>
      obtain ⟨l, result, conclusive', comes'⟩ := rest mid conclusive
      refine ⟨k + l, result, conclusive', ?_⟩
      filter_upwards [comes, comes'] with n comes comes' R stack
      exact .after (comes (push stack)) (comes' stack)

theorem loop {sequence : Sequence S E A} {frame : Frame S E} {state : RunState S}
    (comes : ComesTo procedures good fun stack => ⟨.running sequence, stack, frame, state⟩) :
    Concludes good fun n =>
      Machine.eval procedures (Machine.level procedures n) (n + 1) sequence frame state := by
  obtain ⟨k, result, conclusive, comes⟩ := comes
  refine ⟨result, conclusive, ?_⟩
  filter_upwards [comes, eventually_ge_atTop k] with n comes enough
  have steps := comes .done (n - k + 1)
  rw [show n - k + 1 + k = n + 1 by omega] at steps
  rw [Machine.eval, steps]
  cases result <;> rfl

theorem eval {sequence : Sequence S E A} {frame : Frame S E} {state : RunState S}
    (comes : ComesTo procedures good fun stack => ⟨.running sequence, stack, frame, state⟩) :
    Concludes good fun n => (Machine.level procedures n).eval sequence frame state := by
  obtain ⟨result, conclusive, settled⟩ := comes.loop
  exact ⟨result, conclusive, eventually_of_succ settled⟩

end ComesTo

end Machine

/-! ## Frames -/

def Sequence.Drives (procedures : Procedures S) (sequence : Sequence S E A) : Prop :=
  ∀ context depth state, Concludes (fun _ => True) fun n =>
    (Machine.level procedures n).drive sequence context depth state

def Frame.Gathers (procedures : Procedures S) (frame after : Frame S E) : Prop :=
  ∀ finalizer ∈ after.finalizers,
    finalizer ∈ frame.finalizers ∨ finalizer.Drives procedures

namespace Frame.Gathers

variable {frame middle after : Frame S E}

theorem refl (frame : Frame S E) : frame.Gathers procedures frame :=
  fun _ => .inl

theorem trans (first : frame.Gathers procedures middle) (second : middle.Gathers procedures after) :
    frame.Gathers procedures after :=
  fun finalizer member => (second finalizer member).elim (first finalizer) .inr

theorem register (gathers : frame.Gathers procedures after) {finalizer : Sequence S E Unit}
    (drives : finalizer.Drives procedures) :
    frame.Gathers procedures (after.register finalizer) :=
  List.forall_mem_cons.mpr ⟨.inr drives, gathers⟩

end Frame.Gathers

theorem Machine.drain_concludes (context : Context S) (depth : Nat)
    {finalizers : List (Sequence S E Unit)}
    (drive : ∀ finalizer ∈ finalizers, finalizer.Drives procedures) (settled : Settled E A)
    (suppressed : Array E) (state : RunState S) :
    Concludes (fun _ => True) fun n =>
      Machine.drain (Machine.level procedures n) context depth finalizers settled suppressed
        state := by
  induction finalizers generalizing settled suppressed state with
  | nil => exact .constant trivial
  | cons finalizer older ih =>
      obtain ⟨newest, rest⟩ := List.forall_mem_cons.mp drive
      refine (newest context (depth + 1) (state.finalizerRan depth)).bind
        (fun driven n =>
          let merged := settled.absorb driven.settled
          let noted := discard merged.2 depth (suppressed ++ driven.suppressed) driven.state
          drain (Machine.level procedures n) context depth older merged.1 noted.1 noted.2)
        (fun n stop stopped => by simp only [drain, stopped])
        (fun n driven ended => by simp only [drain, ended]) fun driven _ => ?_
      exact ih rest _ _ _

theorem Sequence.drives {sequence : Sequence S E A}
    (comes : ∀ frame state,
      Machine.ComesTo procedures (fun out => frame.Gathers procedures out.frame)
      fun stack => ⟨.running sequence, stack, frame, state⟩) : sequence.Drives procedures := by
  intro context depth state
  have concludes : Concludes (fun _ => True) fun n =>
      Machine.drive procedures (Machine.level procedures n) (n + 1) sequence context depth
        state := by
    refine (comes { context, depth } (state.reach depth)).loop.bind
      (fun out n => Machine.drain (Machine.level procedures n) out.frame.context out.frame.depth
        out.frame.finalizers out.settled out.frame.suppressed out.state)
      (fun n stop stopped => by simp only [Machine.drive, stopped])
      (fun n out ended => by simp only [Machine.drive, ended]) fun out gathers => ?_
    refine Machine.drain_concludes _ _ (fun finalizer member => ?_) _ _ _
    exact (gathers finalizer member).resolve_left List.not_mem_nil
  obtain ⟨result, conclusive, settled⟩ := concludes
  exact ⟨result, conclusive, eventually_of_succ settled⟩

theorem Sequence.Drives.nested {sequence : Sequence S E A} (drives : sequence.Drives procedures)
    (context : Context S) (depth : Nat) (state : RunState S) :
    Concludes (fun _ => True) fun n =>
      (Machine.level procedures n).nested sequence context depth state := by
  refine (drives context depth ((state.countStep .runNested).record (.nestedEntered depth))).bind
    (fun driven _ => .ok { driven with
      state := driven.state.record (.nestedExited depth driven.settled.isSuccess) })
    (fun n stop stopped => by simp only [Level.nested, stopped])
    (fun n driven ended => by simp only [Level.nested, ended]) fun driven _ => ?_
  exact .constant trivial

theorem Sequence.Drives.attempt {inner : Sequence S F A} (drives : inner.Drives procedures)
    (frame : Frame S E) (state : RunState S) :
    Concludes (fun out => frame.Gathers procedures out.frame) fun n =>
      (Machine.level procedures n).answer (.attempt inner) frame state := by
  refine (drives.nested frame.context (frame.depth + 1) state).bind
    (fun driven _ => .ok ⟨.ofExit (driven.settled.exit .ok .err), frame, driven.state⟩)
    (fun n stop stopped => by simp only [Level.answer, Level.attempt, stopped])
    (fun n driven ended => by simp only [Level.answer, Level.attempt, ended]) fun driven _ => ?_
  exact .constant (Frame.Gathers.refl frame)

/-! ## Founded work -/

def Task.Terminates (procedures : Procedures S) {E A : Type} (task : Task S E A) : Prop :=
  match task with
  | .evaluate sequence => ∀ frame state,
      Machine.ComesTo procedures (fun out => frame.Gathers procedures out.frame)
        fun stack => ⟨.running sequence, stack, frame, state⟩
  | .handle step => ∀ frame state,
      Concludes (fun out => frame.Gathers procedures out.frame) fun n =>
        (Machine.level procedures n).handle step frame state
  | .play routine => ∀ frame state,
      Concludes (fun out => frame.Gathers procedures out.frame) fun n =>
        routine.run (Machine.level procedures n) none frame state
  | .attempt inner => inner.Drives procedures
  | .nest sequence => sequence.Drives procedures
  | .drive sequence => sequence.Drives procedures
  | .drain _ => True

namespace Task.Terminates

theorem call (asked : Call S E B) {next : Option B → Routine S E A}
    (answered : ∀ frame state, Concludes (fun out => frame.Gathers procedures out.frame) fun n =>
      (Machine.level procedures n).answer asked frame state)
    (after : ∀ answer, (Task.play (next answer)).Terminates procedures) :
    (Task.play (.call asked next)).Terminates procedures := by
  intro frame state
  refine (answered frame state).bind
    (fun out n =>
      match out with
      | ⟨.ok value, frame', state'⟩ =>
          (next (some value)).run (Machine.level procedures n) none frame' state'
      | ⟨.error interrupt, frame', state'⟩ => .ok ⟨.error interrupt, frame',
          { state' with world := (next none).aftermath frame' state'.world }⟩) ?_ ?_ ?_
  · intro n stop stopped
    rw [Routine.run_call _ asked next { frame, state }]
    simp only [Handle.call, stopped]
  · rintro n ⟨interrupt | value, frame', state'⟩ ended
    · rw [Routine.run_call _ asked next { frame, state }]
      simp only [Handle.call, ended, Routine.run_latched]
    · rw [Routine.run_call _ asked next { frame, state }]
      simp only [Handle.call, ended]
  · rintro ⟨interrupt | value, frame', state'⟩ gathers
    · exact .constant gathers
    · exact (after (some value) frame' state').imp fun out => Frame.Gathers.trans gathers

end Task.Terminates

theorem Founded.terminates {task : Task S E A} (founded : Founded procedures task) :
    task.Terminates procedures := by
  induction founded with
  | succeed value =>
      intro frame state
      exact .step (.resume ⟨.ok value, frame, state⟩) (fun _ _ _ => rfl) (.resumed (.refl frame))
  | perform handled ih =>
      intro frame state
      exact .answered (fun _ _ _ => rfl) (ih frame state)
  | @effect _ _ _ act next after ih =>
      intro frame state
      exact .step _ (fun _ _ _ => rfl)
        (ih (act state.world).2 frame { state with world := (act state.world).1 })
  | call body ih =>
      intro frame state
      exact .step _ (fun _ _ _ => rfl) (ih frame state)
  | @andThen _ _ _ inner next first second ihFirst ihSecond =>
      intro frame state
      refine .part (.andThen next) (fun _ _ _ => rfl) (ihFirst frame state) ?_
      rintro ⟨interrupt | value, frame', state'⟩ gathers
      · exact .step (.resume ⟨.error interrupt, frame', state'⟩) (fun _ _ _ => rfl)
          (.resumed gathers)
      · exact .step _ (fun _ _ _ => rfl)
          ((ihSecond value frame' state').imp fun _ => Frame.Gathers.trans gathers)
  | @fold _ _ _ inner next recover first second recovery ihFirst ihSecond ihRecovery =>
      intro frame state
      refine .part (.fold next recover) (fun _ _ _ => rfl) (ihFirst frame state) ?_
      rintro ⟨(error | defect) | value, frame', state'⟩ gathers
      · exact .step _ (fun _ _ _ => rfl)
          ((ihRecovery error frame' state').imp fun _ => Frame.Gathers.trans gathers)
      · exact .step (.resume ⟨.error (.defect defect), frame', state'⟩) (fun _ _ _ => rfl)
          (.resumed gathers)
      · exact .step _ (fun _ _ _ => rfl)
          ((ihSecond value frame' state').imp fun _ => Frame.Gathers.trans gathers)
  | @ensuring _ _ inner finalizer first last ihFirst ihLast =>
      intro frame state
      refine .part (.ensure finalizer) (fun _ _ _ => rfl) (ihFirst frame state) ?_
      rintro ⟨settled, frame', state'⟩ gathers
      exact .step (.resume ⟨settled, frame'.register finalizer, state'.registered frame'.depth⟩)
        (fun _ _ _ => rfl) (.resumed (gathers.register (Sequence.drives ihLast)))
  | routine played ih =>
      intro frame state
      exact .answered (fun _ _ _ => rfl) (ih frame state)
  | request key =>
      intro frame state
      simp only [Level.handle]
      cases frame.context.lookup key with
      | found value => exact .constant (.refl frame)
      | missing => exact .constant (.refl frame)
      | misshapen =>
          have other : Stop.misshapen key.capability ≠ .outOfFuel := by simp
          exact .constant other
  | fail error => exact fun frame state => .constant (.refl frame)
  | @nested _ _ body layer inner ih =>
      intro frame state
      refine ((Sequence.drives ih).nested (frame.context.extend layer) (frame.depth + 1) state).bind
        (fun driven _ => .ok ⟨driven.settled,
          { frame with suppressed := frame.suppressed ++ driven.suppressed }, driven.state⟩)
        (fun n stop stopped => by simp only [Level.handle, stopped])
        (fun n driven ended => by simp only [Level.handle, ended]) fun driven _ => ?_
      exact .constant (Frame.Gathers.refl frame)
  | finalize last ih =>
      exact fun frame state => .constant ((Frame.Gathers.refl frame).register (Sequence.drives ih))
  | done value => exact fun frame state => .constant (.refl frame)
  | abort => exact fun frame state => .constant (.refl frame)
  | @act _ _ _ act next after ih =>
      exact fun frame state =>
        ih (act state.world).2 frame { state with world := (act state.world).1 }
  | @performed _ _ _ step next first after ihFirst ihAfter =>
      exact .call (.perform step) ihFirst ihAfter
  | @bound _ _ _ inner next first after ihFirst ihAfter =>
      exact .call (.bind inner) (fun frame state => (ihFirst frame state).eval) ihAfter
  | @attempted _ _ _ _ inner next first after ihFirst ihAfter =>
      exact .call (.attempt inner) (Sequence.drives ihFirst).attempt ihAfter
  | depth after ih => exact fun frame state => ih frame.depth frame state
  | context after ih => exact fun frame state => ih frame.context frame state

/-! ## Every run ends -/

/-- Given levels and steps enough the answer is always the same, and not that there are too few. -/
def Ends {α : Type u} (answer : Nat → Except Stop α) : Prop :=
  ∃ result, result ≠ .error .outOfFuel ∧ ∃ least, ∀ n ≥ least, answer n = result

def Finishes {α : Type u} (answer : Nat → Except Stop α) : Prop :=
  ∃ result least, ∀ n ≥ least, answer n = .ok result

namespace Concludes

variable {α : Type u} {good keyed : α → Prop} {answer : Nat → Except Stop α}

theorem ends (concludes : Concludes good answer) : Ends answer := by
  obtain ⟨result, conclusive, settled⟩ := concludes
  refine ⟨result, ?_, eventually_atTop.mp settled⟩
  rintro rfl
  exact conclusive rfl

theorem finishes (concludes : Concludes good answer) (sound : ∀ n, EndsWell keyed (answer n)) :
    Finishes answer := by
  obtain ⟨result, conclusive, settled⟩ := concludes
  cases result with
  | ok result => exact ⟨result, eventually_atTop.mp settled⟩
  | error stop =>
      obtain ⟨n, same⟩ := settled.exists
      have sound := sound n
      rw [same] at sound
      exact absurd sound conclusive

end Concludes

theorem Sequence.Drives.run {interpreter : Interpreter S} {sequence : Sequence S E A}
    (drives : sequence.Drives interpreter.procedures) (context : Context S) (world : S.World) :
    Concludes (fun _ => True) fun fuel => interpreter.run fuel sequence context world := by
  refine (drives context 0 ⟨{ config := interpreter.config }, world⟩).bind
    (fun driven _ => .ok (Interpreter.report driven, driven.state.world))
    (fun n stop stopped => by simp only [Interpreter.run, stopped])
    (fun n driven ended => by simp only [Interpreter.run, ended]) fun driven _ => ?_
  exact .constant trivial

/-- Whatever the frame, the context, the configuration and the world, the engine comes to an end
with a founded sequence: with its evaluation, with a frame that runs it, a nested one too, with
running founded finalizers on whatever has settled, and with a whole run.  It ends with a result
where keys are of distinct identities. -/
theorem founded_sequences_end {procedures : Procedures S} {sequence : Sequence S E A}
    {finalizers : List (Sequence S E Unit)} (founded : sequence.IsFounded procedures)
    (founded' : ∀ finalizer ∈ finalizers, finalizer.IsFounded procedures) :
    (∀ frame state, Ends fun n => (Machine.level procedures n).eval sequence frame state) ∧
    (∀ context depth state,
      (Ends fun n => (Machine.level procedures n).drive sequence context depth state) ∧
      (Ends fun n => (Machine.level procedures n).nested sequence context depth state) ∧
      ∀ (settled : Settled E A) suppressed, Ends fun n =>
        Machine.drain (Machine.level procedures n) context depth finalizers settled suppressed
          state) ∧
    (∀ config context world, Ends fun fuel =>
      Interpreter.run ⟨config, procedures⟩ fuel sequence context world) ∧
    ∀ keys : KeySet S, procedures.Keyed keys → sequence.Keyed keys →
      (∀ finalizer ∈ finalizers, finalizer.Keyed keys) →
      (∀ frame state, frame.Keyed keys → Finishes fun n =>
        (Machine.level procedures n).eval sequence frame state) ∧
      ∀ context, keys.Provides context.bindings →
        (∀ depth state,
          (Finishes fun n => (Machine.level procedures n).drive sequence context depth state) ∧
          (Finishes fun n => (Machine.level procedures n).nested sequence context depth state) ∧
          ∀ (settled : Settled E A) suppressed, Finishes fun n =>
            Machine.drain (Machine.level procedures n) context depth finalizers settled suppressed
              state) ∧
        ∀ config world, Finishes fun fuel =>
          Interpreter.run ⟨config, procedures⟩ fuel sequence context world := by
  have comes := founded.terminates
  have drives : sequence.Drives procedures := Sequence.drives comes
  have drain := fun context depth (settled : Settled E A) suppressed state =>
    Machine.drain_concludes context depth
      (fun finalizer member => Sequence.drives (founded' finalizer member).terminates) settled
      suppressed state
  refine ⟨fun frame state => (comes frame state).eval.ends, fun context depth state =>
    ⟨(drives context depth state).ends, (drives.nested context depth state).ends,
      fun settled suppressed => (drain context depth settled suppressed state).ends⟩,
    fun config context world => (Sequence.Drives.run drives context world).ends, ?_⟩
  intro keys bodies keyed keyed'
  have level := Machine.keyed_level bodies
  refine ⟨fun frame state framed => (comes frame state).eval.finishes fun n =>
    (level n).eval state keyed framed,
    fun context provided => ⟨fun depth state => ⟨?_, ?_, ?_⟩, ?_⟩⟩
  · exact (drives context depth state).finishes fun n => (level n).drive depth state keyed provided
  · exact (drives.nested context depth state).finishes fun n =>
      (level n).nested depth state keyed provided
  · exact fun settled suppressed => (drain context depth settled suppressed state).finishes
      fun n => Machine.keyed_drain (level n) provided depth keyed' settled suppressed state
  · intro config world
    have sound : ∀ fuel, EndsWell (fun _ => True)
        (Interpreter.run ⟨config, procedures⟩ fuel sequence context world) := by
      intro fuel
      have driven := (level fuel).drive 0 ⟨{ config }, world⟩ keyed provided
      unfold Interpreter.run
      split
      · next stopped => exact driven.stopped stopped
      · trivial
    exact (Sequence.Drives.run drives context world).finishes sound

namespace Sample

inductive Countdown : Type → Type → Type where
  | start (n : Nat) : Countdown String Nat

@[reducible] def counting : Signature where
  World := List String
  Shape := Unit
  El _ := Nat
  Proc := Countdown

def limit : Key counting () := ⟨0, "limit"⟩

/-- Every count calls the next lower one twice, as a nested frame and as a finalizer.  The last one
asks for the limit and fails. -/
def countdown : Nat → Sequence counting String Nat
  | 0 => (Sequence.service limit).andThen fun _ => .fail "spent"
  | n + 1 => ((Sequence.call (Countdown.start n)).nested.orElse fun _ => .succeed n).ensuring
      ((Sequence.call (Countdown.start n)).map fun _ => ())

def countdowns : Procedures counting where
  body := fun
    | .start n => countdown n

theorem countdown_founded (n : Nat) : (countdown n).IsFounded countdowns := by
  induction n with
  | zero => exact .andThen (.service limit) fun _ => .failing "spent"
  | succ n ih =>
      have lower :
          (.call (Countdown.start n) : Sequence counting String Nat).IsFounded countdowns :=
        .call ih
      refine .ensuring (.orElse (.provideLayer lower .empty) fun _ => .succeed n) (.map lower _)

def limitOnly : KeySet counting where
  members := {⟨(), limit⟩}
  distinct := by
    rintro _ rfl _ rfl _
    rfl

theorem countdowns_keyed : countdowns.Keyed limitOnly := by
  rintro _ _ ⟨n⟩
  cases n with
  | zero => exact ⟨rfl, fun _ => trivial⟩
  | succ n =>
      refine ⟨⟨⟨KeySet.Provides.empty, trivial⟩, fun _ => trivial, fun _ => trivial⟩, trivial, ?_⟩
      exact fun _ => trivial

end Sample

theorem founded_sequences_end_countdown :
    (Sequence.all [Sample.countdown 3, Sample.countdown 0]).IsFounded Sample.countdowns ∧
    (Finishes fun fuel => Interpreter.run ⟨{}, Sample.countdowns⟩ fuel
      (Sequence.all [Sample.countdown 3, Sample.countdown 0]) .empty []) ∧
    Finishes fun fuel => Interpreter.run ⟨.tracing, Sample.countdowns⟩ fuel
      (Sequence.all [Sample.countdown 3, Sample.countdown 0])
      (Context.empty.provide Sample.limit (1 : Nat)) [] := by
  have founded : (Sequence.all [Sample.countdown 3, Sample.countdown 0]).IsFounded
      Sample.countdowns := by
    refine .all (List.forall_mem_cons.mpr ⟨Sample.countdown_founded 3, ?_⟩)
    exact List.forall_mem_singleton.mpr (Sample.countdown_founded 0)
  have keyed : ∀ n, (Sample.countdown n).Keyed Sample.limitOnly := fun n =>
    Sample.countdowns_keyed (Sample.Countdown.start n)
  have known : Sample.limit.Keyed Sample.limitOnly := rfl
  have members : (Sequence.all [Sample.countdown 3, Sample.countdown 0]).Keyed
      Sample.limitOnly := by
    refine ⟨keyed 3, fun answer => ?_⟩
    cases answer with
    | none => trivial
    | some value =>
        refine ⟨keyed 0, fun answer => ?_⟩
        cases answer <;> trivial
  obtain ⟨-, -, -, finish⟩ := @founded_sequences_end _ _ _ Sample.countdowns _ [] founded nofun
  obtain ⟨-, runs⟩ := finish Sample.limitOnly Sample.countdowns_keyed members nofun
  refine ⟨founded, (runs .empty KeySet.Provides.empty).2 {} [], ?_⟩
  exact (runs _ (KeySet.Provides.empty.insert known (1 : Nat))).2 .tracing []

end Sequencer
