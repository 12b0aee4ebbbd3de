import Sequencer.Proofs.BoxedMachine
import Sequencer.Proofs.DistinctKeys

/-!
# Erasure of types

A sequence is erased by putting its values into boxes and opening them where its continuations
need them.  The engine on boxed values then does step for step what the engine does: the stack of
the one is the erased stack of the other, so each box is opened at the type it was closed with.
The only fault that is left is a capability of the wrong shape, and keyed sequences never meet it.
-/

namespace Sequencer

variable {S : Signature} {E A R : Type}

/-! ## Erased programs -/

noncomputable def Key.resume {shape : S.Shape} (key : Key S shape) (box : Boxed.Value) :
    Except Boxed.Fault Boxed.Value :=
  match box.unbox? (Binding S) with
  | none => .error .unboxed
  | some binding =>
      match binding.read shape with
      | .found value => .ok ⟨value⟩
      | _ => .error (.unshared key.capability)

mutual

noncomputable def Step.erase {S : Signature} : {E A : Type} → Step S E A → Boxed.Step S E
  | _, _, .request key => .request key.capability key.resume
  | _, _, .fail error => .fail error
  | _, _, .nested layer body => .nested layer (.linked body.erase)
  | _, _, .finalize finalizer => .finalize finalizer.erase

noncomputable def Sequence.erase {S : Signature} : {E A : Type} → Sequence S E A → Boxed.Instr S E
  | _, _, .succeed value => .succeed ⟨value⟩
  | _, _, .perform step => .perform step.erase
  | _, _, .effect act next => .effect act fun answer => (next answer).erase
  | _, _, .call proc => .call proc
  | _, _, .andThen (B := B) inner next =>
      .andThen (.linked inner.erase) fun box =>
        (box.unbox? B).elim (.fault .unboxed) fun value => (next value).erase
  | _, _, .fold (B := B) inner next recover =>
      .fold (.linked inner.erase)
        (fun box => (box.unbox? B).elim (.fault .unboxed) fun value => (next value).erase)
        fun error => (recover error).erase
  | _, _, .ensuring inner finalizer => .ensuring (.linked inner.erase) finalizer.erase
  | _, _, .routine body => .routine body.erase

noncomputable def Routine.erase {S : Signature} : {E A : Type} → Routine S E A → Boxed.Script S E
  | _, _, .done value => .done ⟨value⟩
  | _, _, .abort => .abort
  | _, _, .effect act next => .effect act fun answer => (next answer).erase
  | _, _, .perform (B := B) step next =>
      .perform step.erase fun
        | none => (next none).erase
        | some box =>
            (box.unbox? B).elim (.fault .unboxed) fun value => (next (some value)).erase
  | _, _, .bind (B := B) inner next =>
      .bind inner.erase fun
        | none => (next none).erase
        | some box =>
            (box.unbox? B).elim (.fault .unboxed) fun value => (next (some value)).erase
  | _, _, .attempt (B := B) inner next =>
      .attempt inner.erase fun
        | none => (next none).erase
        | some (.error error) => (next (some (.err error))).erase
        | some (.ok box) =>
            (box.unbox? B).elim (.fault .unboxed) fun value => (next (some (.ok value))).erase
  | _, _, .depth next => .depth fun answer => (next answer).erase
  | _, _, .context next => .context fun answer => (next answer).erase

end

noncomputable def Procedures.erase (procedures : Procedures S) : Boxed.Procedures S where
  body proc := (procedures.body proc).erase

/-! ## Erased states -/

def Settled.erase : Settled E A → Boxed.Settled E
  | .ok value => .ok ⟨value⟩
  | .error interrupt => .error interrupt

noncomputable def Frame.erase (frame : Frame S E) : Boxed.Frame S E where
  context := frame.context
  depth := frame.depth
  finalizers := frame.finalizers.map Sequence.erase
  suppressed := frame.suppressed

noncomputable def Evaluated.erase (out : Evaluated S E A) : Boxed.Evaluated S E :=
  ⟨out.settled.erase, out.frame.erase, out.state⟩

def Driven.erase (driven : Driven S E A) : Boxed.Driven S E :=
  ⟨driven.settled.erase, driven.suppressed, driven.state⟩

def Stop.erase : Stop → Boxed.Stop
  | .outOfFuel => .outOfFuel
  | .misshapen capability => .fault (.unshared capability)

universe u v

def eraseAnswer {α : Type u} {β : Type v} (erase : α → β) : Except Stop α → Except Boxed.Stop β
  | .error stop => .error stop.erase
  | .ok result => .ok (erase result)

namespace Machine

noncomputable def Stack.erase : {A : Type} → Stack S E R A → List (Boxed.Continuation S E)
  | _, .done => []
  | A, .andThen next rest =>
      .andThen (fun box => (box.unbox? A).elim (.fault .unboxed) fun value => (next value).erase) ::
        rest.erase
  | A, .fold next recover rest =>
      .fold (fun box => (box.unbox? A).elim (.fault .unboxed) fun value => (next value).erase)
        (fun error => (recover error).erase) :: rest.erase
  | _, .ensure finalizer rest => .ensure finalizer.erase :: rest.erase

noncomputable def Control.erase : Control S E A → Boxed.Control S E
  | .running sequence => .running sequence.erase
  | .settled result => .settled result.erase

noncomputable def Config.erase (config : Config S E R) : Boxed.Config S E :=
  ⟨config.control.erase, config.stack.erase, config.frame.erase, config.state⟩

noncomputable def Next.erase : Next S E R → Boxed.Next S E
  | .more config => .more config.erase
  | .halted result => .halted result.erase
  | .stopped stop => .stopped stop.erase

end Machine

/-! ## The engines in step -/

theorem Settled.isOk_erase (settled : Settled E A) : settled.erase.isOk = settled.isSuccess := by
  cases settled <;> rfl

theorem Settled.erase_absorb (settled : Settled E A) (result : Settled E Unit) :
    Boxed.Settled.absorb settled.erase result.erase =
      ((settled.absorb result).1.erase, (settled.absorb result).2) := by
  rcases settled with (_ | _) | _ <;> rcases result with (_ | _) | _ <;> rfl

structure Level.Erases (level : Level S) (boxed : Boxed.Level S) : Prop where
  eval : ∀ {E A : Type} (sequence : Sequence S E A) (frame : Frame S E) (state : RunState S),
    boxed.eval sequence.erase frame.erase state =
      eraseAnswer Evaluated.erase (level.eval sequence frame state)
  drive : ∀ {E A : Type} (sequence : Sequence S E A) (context : Context S) (depth : Nat)
    (state : RunState S), boxed.drive sequence.erase context depth state =
      eraseAnswer Driven.erase (level.drive sequence context depth state)

namespace Level.Erases

variable {level : Level S} {boxed : Boxed.Level S} (below : level.Erases boxed)

include below

theorem nested (body : Sequence S E A) (context : Context S) (depth : Nat) (state : RunState S) :
    boxed.nested body.erase context depth state =
      eraseAnswer Driven.erase (level.nested body context depth state) := by
  simp only [Boxed.Level.nested, Level.nested, below.drive]
  cases level.drive body context depth _ with
  | error stop => rfl
  | ok driven => simp only [eraseAnswer, Driven.erase, Settled.isOk_erase]

theorem handle (step : Step S E A) (frame : Frame S E) (state : RunState S) :
    boxed.handle step.erase frame.erase state =
      eraseAnswer Evaluated.erase (level.handle step frame state) := by
  cases step with
  | @request _ shape key =>
      simp only [Step.erase, Boxed.Level.handle, Level.handle, Context.lookup, Frame.erase,
        Key.capability]
      cases frame.context.bindings.get? key.id with
      | none => rfl
      | some binding =>
          simp only [Key.resume, Boxed.Value.unbox?_mk, Binding.read]
          by_cases same : binding.shape = shape
          · simp only [dif_pos same]
            rfl
          · simp only [dif_neg same]
            rfl
  | fail error => rfl
  | nested layer body =>
      simp only [Step.erase, Boxed.Level.handle, Level.handle, Frame.erase, below.nested]
      cases level.nested body (frame.context.extend layer) (frame.depth + 1) state <;> rfl
  | finalize finalizer => rfl

theorem play (routine : Routine S E A) (latched : Option (Interrupt E)) (frame : Frame S E)
    (state : RunState S) :
    routine.erase.run boxed latched frame.erase state =
      eraseAnswer Evaluated.erase (routine.run level latched frame state) := by
  induction routine using Routine.induction generalizing latched frame state with
  | done value => cases latched <;> rfl
  | abort => cases latched <;> rfl
  | effect act next ih => exact ih _ _ _ _
  | depth next ih => exact ih _ _ _ _
  | context next ih => exact ih _ _ _ _
  | perform step next ih =>
      cases latched with
      | some interrupt =>
          simp only [Routine.erase, Boxed.Script.run, Routine.run]
          exact ih none (some interrupt) frame state
      | none =>
          simp only [Routine.erase, Boxed.Script.run, Routine.run, below.handle]
          cases level.handle step frame state with
          | error stop => rfl
          | ok out =>
              obtain ⟨interrupt | value, frame', state'⟩ := out
              · exact ih none _ _ _
              · simp only [eraseAnswer, Evaluated.erase, Settled.erase, Boxed.Value.unbox?_mk]
                exact ih (some value) _ _ _
  | bind inner next ih =>
      cases latched with
      | some interrupt =>
          simp only [Routine.erase, Boxed.Script.run, Routine.run]
          exact ih none (some interrupt) frame state
      | none =>
          simp only [Routine.erase, Boxed.Script.run, Routine.run, below.eval]
          cases level.eval inner frame state with
          | error stop => rfl
          | ok out =>
              obtain ⟨interrupt | value, frame', state'⟩ := out
              · exact ih none _ _ _
              · simp only [eraseAnswer, Evaluated.erase, Settled.erase, Boxed.Value.unbox?_mk]
                exact ih (some value) _ _ _
  | attempt inner next ih =>
      cases latched with
      | some interrupt =>
          simp only [Routine.erase, Boxed.Script.run, Routine.run]
          exact ih none (some interrupt) frame state
      | none =>
          simp only [Routine.erase, Boxed.Script.run, Routine.run, Level.attempt, Frame.erase,
            below.nested]
          cases level.nested inner frame.context (frame.depth + 1) state with
          | error stop => rfl
          | ok driven =>
              obtain ⟨(error | defect) | value, suppressed, state'⟩ := driven
              · exact ih (some (.err error)) _ _ _
              · exact ih none _ _ _
              · simp only [eraseAnswer, Driven.erase, Settled.erase, Boxed.Value.unbox?_mk]
                exact ih (some (.ok value)) _ _ _

end Level.Erases

namespace Machine

variable {procedures : Procedures S} {level : Level S} {boxed : Boxed.Level S}

theorem Next.erase_ofEvaluated (stack : Stack S E R A) (result : Except Stop (Evaluated S E A)) :
    Boxed.Next.ofEvaluated stack.erase (eraseAnswer Evaluated.erase result) =
      (Next.ofEvaluated stack result).erase := by
  cases result <;> rfl

theorem erase_stepRunning (below : level.Erases boxed) (sequence : Sequence S E A)
    (stack : Stack S E R A) (frame : Frame S E) (state : RunState S) :
    Boxed.stepRunning procedures.erase boxed sequence.erase stack.erase frame.erase state =
      (stepRunning procedures level sequence stack frame state).erase := by
  cases sequence with
  | succeed value => rfl
  | perform step =>
      simp only [Sequence.erase, Boxed.stepRunning, stepRunning, below.handle,
        Next.erase_ofEvaluated]
  | effect act next => rfl
  | call proc => rfl
  | andThen inner next => rfl
  | fold inner next recover => rfl
  | ensuring inner finalizer => rfl
  | routine body =>
      simp only [Sequence.erase, Boxed.stepRunning, stepRunning, below.play,
        Next.erase_ofEvaluated]

theorem erase_stepSettled (result : Settled E A) (stack : Stack S E R A) (frame : Frame S E)
    (state : RunState S) :
    Boxed.stepSettled result.erase stack.erase frame.erase state =
      (stepSettled result stack frame state).erase := by
  cases stack with
  | done => rfl
  | andThen next rest =>
      cases result with
      | ok value =>
          simp only [Settled.erase, Stack.erase, Boxed.stepSettled, Boxed.Value.unbox?_mk]
          rfl
      | error interrupt => rfl
  | fold next recover rest =>
      rcases result with (error | defect) | value
      · rfl
      · rfl
      · simp only [Settled.erase, Stack.erase, Boxed.stepSettled, Boxed.Value.unbox?_mk]
        rfl
  | ensure finalizer rest => rfl

theorem erase_loop (below : level.Erases boxed) (fuel : Nat) (config : Config S E R) :
    Boxed.loop procedures.erase boxed fuel config.erase =
      eraseAnswer Evaluated.erase (loop procedures level fuel config) := by
  induction fuel generalizing config with
  | zero => rfl
  | succ fuel ih =>
      have taken : Boxed.step procedures.erase boxed config.erase =
          (step procedures level config).erase := by
        obtain ⟨sequence | result, stack, frame, state⟩ := config
        · exact erase_stepRunning below sequence stack frame state
        · exact erase_stepSettled result stack frame state
      simp only [Boxed.loop, loop, taken]
      cases step procedures level config with
      | more next => exact ih next
      | halted result => rfl
      | stopped stop => rfl

theorem erase_eval (below : level.Erases boxed) (fuel : Nat) (sequence : Sequence S E A)
    (frame : Frame S E) (state : RunState S) :
    Boxed.eval procedures.erase boxed fuel sequence.erase frame.erase state =
      eraseAnswer Evaluated.erase (eval procedures level fuel sequence frame state) :=
  erase_loop below fuel ⟨.running sequence, .done, frame, state⟩

theorem erase_drain (below : level.Erases boxed) (context : Context S) (depth : Nat)
    (finalizers : List (Sequence S E Unit)) (settled : Settled E A) (suppressed : Array E)
    (state : RunState S) :
    Boxed.drain boxed context depth (finalizers.map Sequence.erase) settled.erase suppressed state =
      eraseAnswer Driven.erase
        (drain level context depth finalizers settled suppressed state) := by
  induction finalizers generalizing settled suppressed state with
  | nil => rfl
  | cons finalizer older ih =>
      simp only [List.map_cons, Boxed.drain, drain, below.drive]
      cases level.drive finalizer context (depth + 1) (state.finalizerRan depth) with
      | error stop => rfl
      | ok driven =>
          simp only [eraseAnswer, Driven.erase, Settled.erase_absorb]
          exact ih _ _ _

theorem erase_drive (below : level.Erases boxed) (fuel : Nat) (sequence : Sequence S E A)
    (context : Context S) (depth : Nat) (state : RunState S) :
    Boxed.drive procedures.erase boxed fuel sequence.erase context depth state =
      eraseAnswer Driven.erase
        (drive procedures level fuel sequence context depth state) := by
  have evaluated : Boxed.eval procedures.erase boxed fuel sequence.erase { context, depth }
      (state.reach depth) = eraseAnswer Evaluated.erase
        (eval procedures level fuel sequence { context, depth } (state.reach depth)) :=
    erase_eval below fuel sequence { context, depth } (state.reach depth)
  simp only [Boxed.drive, drive, evaluated]
  cases eval procedures level fuel sequence { context, depth } (state.reach depth) with
  | error stop => rfl
  | ok out => exact erase_drain below _ _ _ _ _ _

theorem erase_level (procedures : Procedures S) (fuel : Nat) :
    (Machine.level procedures fuel).Erases (Boxed.level procedures.erase fuel) := by
  induction fuel with
  | zero => exact ⟨fun _ _ _ => rfl, fun _ _ _ _ => rfl⟩
  | succ fuel ih => exact ⟨erase_eval ih _, erase_drive ih _⟩

end Machine

theorem Interpreter.run_erase (interpreter : Interpreter S) (fuel : Nat)
    (sequence : Sequence S E A) (context : Context S) (world : S.World) :
    Boxed.run interpreter.config interpreter.procedures.erase fuel A sequence.erase context world =
      (interpreter.run fuel sequence context world).mapError Stop.erase := by
  simp only [Boxed.run, run, (Machine.erase_level interpreter.procedures fuel).drive]
  cases (Machine.level interpreter.procedures fuel).drive sequence context 0
    ⟨{ config := interpreter.config }, world⟩ with
  | error stop => rfl
  | ok driven =>
      obtain ⟨(error | defect) | value, suppressed, state⟩ := driven
      · rfl
      · rfl
      · simp only [eraseAnswer, Driven.erase, Settled.erase, Boxed.exit, Boxed.Value.unbox?_mk]
        rfl

/-- A program whose requests and bindings are made with keys of distinct identities is run without
types exactly as it is run with them, and no fault is ever reached. -/
theorem erased_values_match {interpreter : Interpreter S} {keys : KeySet S}
    (bodies : interpreter.procedures.Keyed keys) {sequence : Sequence S E A}
    (keyed : sequence.Keyed keys) {context : Context S}
    (provided : keys.Provides context.bindings) (fuel : Nat) (world : S.World) :
    Boxed.run interpreter.config interpreter.procedures.erase fuel A sequence.erase context world =
      (interpreter.run fuel sequence context world).mapError Stop.erase ∧
    (∀ fault, Boxed.run interpreter.config interpreter.procedures.erase fuel A sequence.erase
      context world ≠ .error (.fault fault)) ∧
    ∀ capability, interpreter.run fuel sequence context world ≠
      .error (.misshapen capability) := by
  have shaped : ∀ capability, interpreter.run fuel sequence context world ≠
      .error (.misshapen capability) :=
    interpreter.run_ne_misshapen bodies keyed provided fuel world
  refine ⟨interpreter.run_erase fuel sequence context world, ?_, shaped⟩
  intro fault reached
  rw [interpreter.run_erase] at reached
  cases ended : interpreter.run fuel sequence context world with
  | ok answer =>
      rw [ended] at reached
      cases reached
  | error stop =>
      rw [ended] at reached
      cases stop with
      | outOfFuel => cases reached
      | misshapen capability => exact shaped capability ended

namespace Sample

@[reducible] def mixed : Signature where
  World := Unit
  Shape := Bool
  El shape := if shape then Nat else String
  Proc _ _ := Empty

def mixedInterpreter : Interpreter mixed where
  procedures := ⟨nofun⟩

def count : Key mixed true := ⟨0, "count"⟩

def title : Key mixed false := ⟨1, "title"⟩

def countAndTitle : KeySet mixed where
  members := {⟨true, count⟩, ⟨false, title⟩}
  distinct := by
    rintro _ (rfl | rfl) _ (rfl | rfl) same
    · rfl
    · cases same
    · cases same
    · rfl

def labelled : Sequence mixed String (Nat × String) :=
  (Sequence.service count).andThen fun number =>
    (((Sequence.service title).provide title "inner").ensuring (.succeed ())).map fun text =>
      (number, text)

theorem count_keyed : count.Keyed countAndTitle := .inl rfl

theorem title_keyed : title.Keyed countAndTitle := .inr rfl

theorem labelled_keyed : labelled.Keyed countAndTitle := by
  refine ⟨count_keyed, fun number => ⟨⟨⟨?_, title_keyed⟩, trivial⟩, fun _ => trivial⟩⟩
  exact KeySet.Provides.empty.insert title_keyed "inner"

def counted : Context mixed :=
  Context.empty.provide count (3 : Nat)

theorem provides_counted : countAndTitle.Provides counted.bindings :=
  KeySet.Provides.empty.insert count_keyed (3 : Nat)

theorem mixedInterpreter_keyed : mixedInterpreter.procedures.Keyed countAndTitle := by
  intro E A proc
  cases proc

end Sample

/-- Beside a run without faults, one that asks with a key whose identity belongs to another. -/
theorem erased_values_match_labelled :
    (∃ report, report.exit = .ok (.ok (3, "inner")) ∧
      Boxed.run {} Sample.mixedInterpreter.procedures.erase 20 (Nat × String)
        Sample.labelled.erase Sample.counted () = .ok (report, ())) ∧
    Boxed.run {} Sample.mixedInterpreter.procedures.erase 20 String
      (Sequence.service (⟨0, "title"⟩ : Key Sample.mixed false) : Sequence _ String _).erase
      Sample.counted () = .error (.fault (.unshared ⟨0, "title"⟩)) := by
  obtain ⟨same, -, -⟩ := erased_values_match Sample.mixedInterpreter_keyed Sample.labelled_keyed
    Sample.provides_counted 20 ()
  exact ⟨⟨_, rfl, same.trans rfl⟩, (Sample.mixedInterpreter.run_erase 20 _ _ _).trans rfl⟩

end Sequencer
