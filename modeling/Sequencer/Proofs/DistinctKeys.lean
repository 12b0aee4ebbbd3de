import Sequencer.Proofs.ContextIrrelevance
import Sequencer.Proofs.Latch

/-!
# Keys of distinct identities

Where requests and bindings are all made with keys of distinct identities, a lookup never meets a
value of another shape than its key promises.  The context of a nested frame is joined from a
context and a layer of such bindings, and finalizers wait on the frame under whose context they
will run, so this holds in every frame of a run.
-/

namespace Sequencer

variable {S : Signature} {E A R : Type}

structure KeySet (S : Signature) where
  members : Set ((shape : S.Shape) × Key S shape)
  distinct : ∀ key ∈ members, ∀ other ∈ members, key.2.id = other.2.id → key = other

def Key.Keyed (keys : KeySet S) {shape : S.Shape} (key : Key S shape) : Prop :=
  ⟨shape, key⟩ ∈ keys.members

def KeySet.Provides (keys : KeySet S) (bindings : SortedMap Nat (Binding S)) : Prop :=
  ∀ id binding, bindings.get? id = some binding →
    ∃ (shape : S.Shape) (key : Key S shape) (value : S.El shape),
      key.Keyed keys ∧ key.id = id ∧ key.bind value = binding

mutual

def Step.Keyed {S : Signature} (keys : KeySet S) : {E A : Type} → Step S E A → Prop
  | _, _, .request key => key.Keyed keys
  | _, _, .fail _ => True
  | _, _, .nested layer body => keys.Provides layer.bindings ∧ body.Keyed keys
  | _, _, .finalize finalizer => finalizer.Keyed keys

def Sequence.Keyed {S : Signature} (keys : KeySet S) :
    {E A : Type} → Sequence S E A → Prop
  | _, _, .succeed _ => True
  | _, _, .perform step => step.Keyed keys
  | _, _, .effect _ next => ∀ answer, (next answer).Keyed keys
  | _, _, .call _ => True
  | _, _, .andThen inner next => inner.Keyed keys ∧ ∀ value, (next value).Keyed keys
  | _, _, .fold inner next recover =>
      inner.Keyed keys ∧ (∀ value, (next value).Keyed keys) ∧
        ∀ error, (recover error).Keyed keys
  | _, _, .ensuring inner finalizer => inner.Keyed keys ∧ finalizer.Keyed keys
  | _, _, .routine body => body.Keyed keys

def Routine.Keyed {S : Signature} (keys : KeySet S) : {E A : Type} → Routine S E A → Prop
  | _, _, .done _ => True
  | _, _, .abort => True
  | _, _, .effect _ next => ∀ answer, (next answer).Keyed keys
  | _, _, .perform step next => step.Keyed keys ∧ ∀ answer, (next answer).Keyed keys
  | _, _, .bind inner next => inner.Keyed keys ∧ ∀ answer, (next answer).Keyed keys
  | _, _, .attempt inner next => inner.Keyed keys ∧ ∀ answer, (next answer).Keyed keys
  | _, _, .depth next => ∀ answer, (next answer).Keyed keys
  -- A routine is only ever shown the context of a frame.
  | _, _, .context next => ∀ context, keys.Provides context.bindings → (next context).Keyed keys

end

def Call.Keyed (keys : KeySet S) : Call S E A → Prop
  | .perform step => step.Keyed keys
  | .bind inner => inner.Keyed keys
  | .attempt inner => inner.Keyed keys

theorem Routine.keyed_call {keys : KeySet S} {B : Type} {call : Call S E B}
    {next : Option B → Routine S E A} :
    (Routine.call call next).Keyed keys ↔
      call.Keyed keys ∧ ∀ answer, (next answer).Keyed keys := by
  cases call <;> rfl

def Procedures.Keyed (keys : KeySet S) (procedures : Procedures S) : Prop :=
  ∀ {E A : Type} (proc : S.Proc E A), (procedures.body proc).Keyed keys

structure Frame.Keyed (keys : KeySet S) (frame : Frame S E) : Prop where
  context : keys.Provides frame.context.bindings
  finalizers : ∀ finalizer ∈ frame.finalizers, finalizer.Keyed keys

variable {keys : KeySet S}

/-! ## Contexts -/

namespace KeySet.Provides

theorem empty : keys.Provides .empty := by
  intro id binding found
  cases found

theorem insert {bindings : SortedMap Nat (Binding S)} (provided : keys.Provides bindings)
    {shape : S.Shape} {key : Key S shape} (keyed : key.Keyed keys) (value : S.El shape) :
    keys.Provides (bindings.insert key.id (key.bind value)) := by
  intro id binding found
  rw [SortedMap.get?_insert] at found
  split at found
  · next same =>
    cases found
    exact ⟨shape, key, value, keyed, (Std.LawfulEqOrd.eq_of_compare same).symm, rfl⟩
  · exact provided id binding found

theorem extend {context : Context S} (provided : keys.Provides context.bindings)
    {layer : Layer S} (joined : keys.Provides layer.bindings) :
    keys.Provides (context.extend layer).bindings := by
  intro id binding found
  rw [Context.get?_extend] at found
  split at found
  · rcases Option.or_eq_some_iff.mp found with inner | ⟨-, outer⟩
    · exact joined id binding inner
    · exact provided id binding outer
  · rcases Option.or_eq_some_iff.mp found with outer | ⟨-, inner⟩
    · exact provided id binding outer
    · exact joined id binding inner

theorem lookup_ne_misshapen {context : Context S} (provided : keys.Provides context.bindings)
    {shape : S.Shape} {key : Key S shape} (keyed : key.Keyed keys) :
    context.lookup key ≠ .misshapen := by
  unfold Context.lookup
  cases found : context.bindings.get? key.id with
  | none => nofun
  | some binding =>
      obtain ⟨shape', key', value, keyed', same, rfl⟩ := provided _ _ found
      cases keys.distinct _ keyed' _ keyed same
      simp [Binding.read, Key.bind]

end KeySet.Provides

theorem Frame.Keyed.register {frame : Frame S E} (keyed : frame.Keyed keys)
    {finalizer : Sequence S E Unit} (keyed' : finalizer.Keyed keys) :
    (frame.register finalizer).Keyed keys :=
  ⟨keyed.context, List.forall_mem_cons.mpr ⟨keyed', keyed.finalizers⟩⟩

/-! ## The engine -/

universe u

/-- The engine comes to a good end, or runs out of fuel. -/
def EndsWell {α : Type u} (good : α → Prop) : Except Stop α → Prop
  | .error stop => stop = .outOfFuel
  | .ok result => good result

theorem EndsWell.stopped {α β : Type*} {good : α → Prop} {good' : β → Prop}
    {result : Except Stop α} (sound : EndsWell good result) {stop : Stop}
    (ended : result = .error stop) : EndsWell good' (.error stop : Except Stop β) := by
  rw [ended] at sound
  exact sound

structure Level.Keyed (keys : KeySet S) (level : Level S) : Prop where
  eval : ∀ {E A : Type} {sequence : Sequence S E A} {frame : Frame S E} (state : RunState S),
    sequence.Keyed keys → frame.Keyed keys →
      EndsWell (fun out => out.frame.Keyed keys) (level.eval sequence frame state)
  drive : ∀ {E A : Type} {sequence : Sequence S E A} {context : Context S} (depth : Nat)
    (state : RunState S), sequence.Keyed keys → keys.Provides context.bindings →
      EndsWell (fun _ => True) (level.drive sequence context depth state)

namespace Level.Keyed

variable {level : Level S} (below : level.Keyed keys)

include below

theorem nested {body : Sequence S E A} {context : Context S} (depth : Nat) (state : RunState S)
    (keyed : body.Keyed keys) (provided : keys.Provides context.bindings) :
    EndsWell (fun _ => True) (level.nested body context depth state) := by
  have sound := below.drive depth ((state.countStep .runNested).record (.nestedEntered depth))
    keyed provided
  unfold Level.nested
  split
  · next stopped => exact sound.stopped stopped
  · trivial

theorem handle {step : Step S E A} {frame : Frame S E} (state : RunState S)
    (keyed : step.Keyed keys) (keyed' : frame.Keyed keys) :
    EndsWell (fun out => out.frame.Keyed keys) (level.handle step frame state) := by
  cases step with
  | request key =>
      have shaped := keyed'.context.lookup_ne_misshapen keyed
      simp only [Level.handle]
      split
      · exact keyed'
      · exact keyed'
      · next found => exact absurd found shaped
  | fail error => exact keyed'
  | nested layer body =>
      have sound := below.nested (frame.depth + 1) state keyed.2 (keyed'.context.extend keyed.1)
      simp only [Level.handle]
      split
      · next stopped => exact sound.stopped stopped
      · exact ⟨keyed'.context, keyed'.finalizers⟩
  | finalize finalizer => exact keyed'.register keyed

theorem attempt {F : Type} {inner : Sequence S F A} {frame : Frame S E} (state : RunState S)
    (keyed : inner.Keyed keys) (keyed' : frame.Keyed keys) :
    EndsWell (fun _ => True) (level.attempt inner frame state) := by
  have sound := below.nested (frame.depth + 1) state keyed keyed'.context
  unfold Level.attempt
  split
  · next stopped => exact sound.stopped stopped
  · trivial

theorem answer {call : Call S E A} {frame : Frame S E} (state : RunState S)
    (keyed : call.Keyed keys) (keyed' : frame.Keyed keys) :
    EndsWell (fun out => out.frame.Keyed keys) (level.answer call frame state) := by
  cases call with
  | perform step => exact below.handle state keyed keyed'
  | bind inner => exact below.eval state keyed keyed'
  | attempt inner =>
      have sound := below.attempt state keyed keyed'
      simp only [Level.answer]
      split
      · next stopped => exact sound.stopped stopped
      · exact keyed'

theorem play {routine : Routine S E A} {frame : Frame S E} (state : RunState S)
    (keyed : routine.Keyed keys) (keyed' : frame.Keyed keys) :
    EndsWell (fun out => out.frame.Keyed keys) (routine.run level none frame state) := by
  induction routine using Routine.call_induction generalizing frame state with
  | done value => exact keyed'
  | abort => exact keyed'
  | effect act next ih => exact ih _ _ (keyed _) keyed'
  | call asked next ih =>
      obtain ⟨here, after⟩ := Routine.keyed_call.mp keyed
      have sound := below.answer state here keyed'
      rw [Routine.run_call level asked next { frame, state }]
      simp only [Handle.call]
      cases answered : level.answer asked frame state with
      | error stop => exact sound.stopped answered
      | ok out =>
          rw [answered] at sound
          obtain ⟨interrupt | value, frame', state'⟩ := out
          · simp only [Routine.run_latched]
            exact sound
          · exact ih (some value) state' (after _) sound
  | depth next ih => exact ih _ _ (keyed _) keyed'
  | context next ih => exact ih _ _ (keyed _ keyed'.context) keyed'

end Level.Keyed

namespace Machine

def Stack.Keyed (keys : KeySet S) : {A : Type} → Stack S E R A → Prop
  | _, .done => True
  | _, .andThen next rest => (∀ value, (next value).Keyed keys) ∧ rest.Keyed keys
  | _, .fold next recover rest =>
      (∀ value, (next value).Keyed keys) ∧ (∀ error, (recover error).Keyed keys) ∧
        rest.Keyed keys
  | _, .ensure finalizer rest => finalizer.Keyed keys ∧ rest.Keyed keys

def Control.Keyed (keys : KeySet S) : Control S E A → Prop
  | .running sequence => sequence.Keyed keys
  | .settled _ => True

structure Config.Keyed (keys : KeySet S) (config : Config S E R) : Prop where
  control : config.control.Keyed keys
  stack : config.stack.Keyed keys
  frame : config.frame.Keyed keys

def Next.Keyed (keys : KeySet S) : Next S E R → Prop
  | .more config => config.Keyed keys
  | .halted result => result.frame.Keyed keys
  | .stopped stop => stop = .outOfFuel

theorem Next.Keyed.ofEvaluated {stack : Stack S E R A} (keyed : stack.Keyed keys)
    {result : Except Stop (Evaluated S E A)}
    (sound : EndsWell (fun out => out.frame.Keyed keys) result) :
    (Next.ofEvaluated stack result).Keyed keys := by
  cases result with
  | error stop => exact sound
  | ok out => exact ⟨trivial, keyed, sound⟩

variable {procedures : Procedures S} {level : Level S}

theorem keyed_step (bodies : procedures.Keyed keys) (below : level.Keyed keys)
    {config : Config S E R} (keyed : config.Keyed keys) :
    (step procedures level config).Keyed keys := by
  obtain ⟨control, stack, frame, state⟩ := config
  obtain ⟨here, after, keyed'⟩ := keyed
  cases control with
  | running sequence =>
      cases sequence with
      | succeed value => exact ⟨trivial, after, keyed'⟩
      | perform step => exact .ofEvaluated after (below.handle state here keyed')
      | effect act next => exact ⟨here _, after, keyed'⟩
      | call proc => exact ⟨bodies proc, after, keyed'⟩
      | andThen inner next => exact ⟨here.1, ⟨here.2, after⟩, keyed'⟩
      | fold inner next recover => exact ⟨here.1, ⟨here.2.1, here.2.2, after⟩, keyed'⟩
      | ensuring inner finalizer => exact ⟨here.1, ⟨here.2, after⟩, keyed'⟩
      | routine body => exact .ofEvaluated after (below.play state here keyed')
  | settled result =>
      cases stack with
      | done => exact keyed'
      | andThen next rest =>
          cases result with
          | ok value => exact ⟨after.1 value, after.2, keyed'⟩
          | error interrupt => exact ⟨trivial, after.2, keyed'⟩
      | fold next recover rest =>
          rcases result with (error | defect) | value
          · exact ⟨after.2.1 error, after.2.2, keyed'⟩
          · exact ⟨trivial, after.2.2, keyed'⟩
          · exact ⟨after.1 value, after.2.2, keyed'⟩
      | ensure finalizer rest => exact ⟨trivial, after.2, keyed'.register after.1⟩

theorem keyed_loop (bodies : procedures.Keyed keys) (below : level.Keyed keys) (fuel : Nat)
    {config : Config S E R} (keyed : config.Keyed keys) :
    EndsWell (fun out => out.frame.Keyed keys) (loop procedures level fuel config) := by
  induction fuel generalizing config with
  | zero => rfl
  | succ fuel ih =>
      have next := keyed_step bodies below keyed
      unfold loop
      cases taken : step procedures level config with
      | more config' =>
          rw [taken] at next
          exact ih next
      | halted result =>
          rw [taken] at next
          exact next
      | stopped stop =>
          rw [taken] at next
          exact next

theorem keyed_eval (bodies : procedures.Keyed keys) (below : level.Keyed keys) (fuel : Nat)
    {sequence : Sequence S E A} {frame : Frame S E} (state : RunState S)
    (keyed : sequence.Keyed keys) (keyed' : frame.Keyed keys) :
    EndsWell (fun out => out.frame.Keyed keys)
      (eval procedures level fuel sequence frame state) :=
  keyed_loop bodies below fuel ⟨keyed, trivial, keyed'⟩

theorem keyed_drain (below : level.Keyed keys) {context : Context S}
    (provided : keys.Provides context.bindings) (depth : Nat) {finalizers : List (Sequence S E Unit)}
    (keyed : ∀ finalizer ∈ finalizers, finalizer.Keyed keys) (settled : Settled E A)
    (suppressed : Array E) (state : RunState S) :
    EndsWell (fun _ => True)
      (drain level context depth finalizers settled suppressed state) := by
  induction finalizers generalizing settled suppressed state with
  | nil => trivial
  | cons finalizer older ih =>
      obtain ⟨first, rest⟩ := List.forall_mem_cons.mp keyed
      have sound := below.drive (depth + 1) (state.finalizerRan depth) first provided
      unfold drain
      split
      · next stopped => exact sound.stopped stopped
      · exact ih rest _ _ _

theorem keyed_drive (bodies : procedures.Keyed keys) (below : level.Keyed keys) (fuel : Nat)
    {sequence : Sequence S E A} {context : Context S} (depth : Nat) (state : RunState S)
    (keyed : sequence.Keyed keys) (provided : keys.Provides context.bindings) :
    EndsWell (fun _ => True) (drive procedures level fuel sequence context depth state) := by
  have sound := keyed_eval bodies below fuel (state.reach depth) keyed
    (⟨provided, nofun⟩ : Frame.Keyed keys { context, depth })
  unfold drive
  split
  · next stopped => exact sound.stopped stopped
  · next ended =>
    rw [ended] at sound
    exact keyed_drain below sound.context _ sound.finalizers _ _ _

theorem keyed_level (bodies : procedures.Keyed keys) (fuel : Nat) :
    (Machine.level procedures fuel).Keyed keys := by
  induction fuel with
  | zero => exact ⟨fun _ _ _ => rfl, fun _ _ _ _ => rfl⟩
  | succ fuel ih => exact ⟨keyed_eval bodies ih _, keyed_drive bodies ih _⟩

end Machine

theorem Interpreter.run_ne_misshapen {interpreter : Interpreter S}
    (bodies : interpreter.procedures.Keyed keys) {sequence : Sequence S E A}
    (keyed : sequence.Keyed keys) {context : Context S} (provided : keys.Provides context.bindings)
    (fuel : Nat) (world : S.World) (capability : Capability) :
    interpreter.run fuel sequence context world ≠ .error (.misshapen capability) := by
  have sound := (Machine.keyed_level bodies fuel).drive 0
    ⟨{ config := interpreter.config }, world⟩ keyed provided
  unfold run
  split
  · next stopped =>
    rw [stopped] at sound
    rw [sound]
    nofun
  · nofun

end Sequencer
