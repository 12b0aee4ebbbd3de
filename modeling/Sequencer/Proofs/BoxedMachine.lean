import Sequencer.Interpreter

/-!
# The engine on boxed values

Types of results are a matter of authoring; an engine can do without them.  Here every value goes
through the engine in a box, one stack holds continuations of all types, and whoever needs a value
of a certain type opens the box.  Opening a box with another value in it is a fault.  So are
reading a capability of another shape than expected and losing the recipe that another one wraps.
Errors keep their type throughout.
-/

namespace Sequencer.Boxed

variable {S : Signature} {E : Type}

structure Value : Type 1 where
  {type : Type}
  content : type

open Classical in
noncomputable def Value.unbox? (value : Value) (A : Type) : Option A :=
  if same : value.type = A then some (same ▸ value.content) else none

@[simp] theorem Value.unbox?_mk {A : Type} (value : A) : (Value.mk value).unbox? A = some value := by
  simp [unbox?]

/-- What the engine takes for impossible. -/
inductive Fault where
  | unboxed
  | unshared (capability : Capability)
  | unlinked
  deriving DecidableEq

inductive Stop where
  | outOfFuel
  | fault (fault : Fault)
  deriving DecidableEq

/-! ## Instructions -/

mutual

inductive Step (S : Signature) : Type → Type 1 where
  | request {E : Type} (capability : Capability) (resume : Value → Except Fault Value) : Step S E
  | fail {E : Type} (error : E) : Step S E
  | nested {E : Type} (layer : Layer S) (body : Link S E) : Step S E
  | finalize {E : Type} (finalizer : Instr S E) : Step S E

inductive Link (S : Signature) : Type → Type 1 where
  | linked {E : Type} (inner : Instr S E) : Link S E
  | lost {E : Type} : Link S E

inductive Instr (S : Signature) : Type → Type 1 where
  | succeed {E : Type} (value : Value) : Instr S E
  | perform {E : Type} (step : Step S E) : Instr S E
  | effect {E B : Type} (act : S.World → S.World × B) (next : B → Instr S E) : Instr S E
  | call {E A : Type} (proc : S.Proc E A) : Instr S E
  | andThen {E : Type} (inner : Link S E) (next : Value → Instr S E) : Instr S E
  | fold {E : Type} (inner : Link S E) (next : Value → Instr S E) (recover : E → Instr S E) :
      Instr S E
  | ensuring {E : Type} (inner : Link S E) (finalizer : Instr S E) : Instr S E
  | routine {E : Type} (script : Script S E) : Instr S E
  | fault {E : Type} (fault : Fault) : Instr S E

inductive Script (S : Signature) : Type → Type 1 where
  | done {E : Type} (value : Value) : Script S E
  | abort {E : Type} : Script S E
  | effect {E B : Type} (act : S.World → S.World × B) (next : B → Script S E) : Script S E
  | perform {E : Type} (step : Step S E) (next : Option Value → Script S E) : Script S E
  | bind {E : Type} (inner : Instr S E) (next : Option Value → Script S E) : Script S E
  | attempt {E F : Type} (inner : Instr S F) (next : Option (Except F Value) → Script S E) :
      Script S E
  | depth {E : Type} (next : Nat → Script S E) : Script S E
  | context {E : Type} (next : Context S → Script S E) : Script S E
  | fault {E : Type} (fault : Fault) : Script S E

end

structure Procedures (S : Signature) where
  body : {E A : Type} → S.Proc E A → Instr S E

/-! ## Frames -/

structure Frame (S : Signature) (E : Type) where
  context : Context S
  depth : Nat
  finalizers : List (Instr S E) := []
  suppressed : Array E := #[]

abbrev Settled (E : Type) := Except (Interrupt E) Value

structure Evaluated (S : Signature) (E : Type) where
  settled : Settled E
  frame : Frame S E
  state : RunState S

structure Driven (S : Signature) (E : Type) where
  settled : Settled E
  suppressed : Array E
  state : RunState S

def Frame.register (frame : Frame S E) (finalizer : Instr S E) : Frame S E :=
  { frame with finalizers := finalizer :: frame.finalizers }

/-- Fold the result of a finalizer, whose value nobody asks for, into that of the frame. -/
def Settled.absorb : Settled E → Settled E → Settled E × Discarded E
  | settled, .ok _ => (settled, .nothing)
  | .ok _, .error interrupt => (.error interrupt, .nothing)
  | .error (.failed earlier), .error (.defect defect) => (.error (.defect defect), .failure earlier)
  | .error earlier, .error (.failed error) => (.error earlier, .failure error)
  | .error (.defect earlier), .error (.defect _) => (.error (.defect earlier), .defect)

/-! ## Steps and scripts -/

structure Level (S : Signature) where
  eval : {E : Type} → Instr S E → Frame S E → RunState S → Except Stop (Evaluated S E)
  drive : {E : Type} → Instr S E → Context S → Nat → RunState S → Except Stop (Driven S E)

namespace Level

def nested (level : Level S) (body : Instr S E) (context : Context S) (depth : Nat)
    (state : RunState S) : Except Stop (Driven S E) :=
  match level.drive body context depth
      ((state.countStep .runNested).record (.nestedEntered depth)) with
  | .error stop => .error stop
  | .ok driven =>
      .ok { driven with
        state := driven.state.record (.nestedExited depth driven.settled.isOk) }

def handle (level : Level S) (step : Step S E) (frame : Frame S E) (state : RunState S) :
    Except Stop (Evaluated S E) :=
  match step with
  | .request capability resume =>
      let state := state.countStep .requestCapability
      match frame.context.bindings.get? capability.id with
      | none =>
          .ok ⟨.error (.defect (.unresolvedCapability capability.name capability.id)), frame,
            state.record (.capabilityUnresolved frame.depth capability.name)⟩
      | some binding =>
          match resume ⟨binding⟩ with
          | .error fault => .error (.fault fault)
          | .ok value =>
              .ok ⟨.ok value, frame,
                state.record (.capabilityResolved frame.depth capability.name)⟩
  | .fail error =>
      .ok ⟨.error (.failed error), frame, (state.countStep .fail).record (.failed frame.depth)⟩
  | .nested _ .lost => .error (.fault .unlinked)
  | .nested layer (.linked body) =>
      match level.nested body (frame.context.extend layer) (frame.depth + 1) state with
      | .error stop => .error stop
      | .ok driven =>
          .ok ⟨driven.settled, { frame with suppressed := frame.suppressed ++ driven.suppressed },
            driven.state⟩
  | .finalize finalizer =>
      .ok ⟨.ok ⟨()⟩, frame.register finalizer, state.registered frame.depth⟩

end Level

def Script.settle (latched : Option (Interrupt E)) (returned : Option Value) : Settled E :=
  match latched, returned with
  | some interrupt, _ => .error interrupt
  | none, some value => .ok value
  | none, none => .error (.defect .detachedAbort)

def Script.run {S : Signature} (level : Level S) {E : Type} :
    Script S E → Option (Interrupt E) → Frame S E → RunState S → Except Stop (Evaluated S E)
  | .done value, latched, frame, state => .ok ⟨settle latched (some value), frame, state⟩
  | .abort, latched, frame, state => .ok ⟨settle latched none, frame, state⟩
  | .effect act next, latched, frame, state =>
      let answer := act state.world
      (next answer.2).run level latched frame { state with world := answer.1 }
  | .perform step next, none, frame, state =>
      match level.handle step frame state with
      | .error stop => .error stop
      | .ok ⟨.ok value, frame, state⟩ => (next (some value)).run level none frame state
      | .ok ⟨.error interrupt, frame, state⟩ => (next none).run level (some interrupt) frame state
  | .perform _ next, some interrupt, frame, state =>
      (next none).run level (some interrupt) frame state
  | .bind inner next, none, frame, state =>
      match level.eval inner frame state with
      | .error stop => .error stop
      | .ok ⟨.ok value, frame, state⟩ => (next (some value)).run level none frame state
      | .ok ⟨.error interrupt, frame, state⟩ => (next none).run level (some interrupt) frame state
  | .bind _ next, some interrupt, frame, state =>
      (next none).run level (some interrupt) frame state
  | .attempt inner next, none, frame, state =>
      match level.nested inner frame.context (frame.depth + 1) state with
      | .error stop => .error stop
      | .ok ⟨.ok value, _, state⟩ => (next (some (.ok value))).run level none frame state
      | .ok ⟨.error (.failed error), _, state⟩ =>
          (next (some (.error error))).run level none frame state
      | .ok ⟨.error (.defect defect), _, state⟩ =>
          (next none).run level (some (.defect defect)) frame state
  | .attempt _ next, some interrupt, frame, state =>
      (next none).run level (some interrupt) frame state
  | .depth next, latched, frame, state => (next frame.depth).run level latched frame state
  | .context next, latched, frame, state => (next frame.context).run level latched frame state
  | .fault reached, _, _, _ => .error (.fault reached)

/-! ## The machine -/

inductive Continuation (S : Signature) (E : Type) : Type 1 where
  | andThen (next : Value → Instr S E)
  | fold (next : Value → Instr S E) (recover : E → Instr S E)
  | ensure (finalizer : Instr S E)

inductive Control (S : Signature) (E : Type) : Type 1 where
  | running (instr : Instr S E)
  | settled (result : Settled E)

structure Config (S : Signature) (E : Type) : Type 1 where
  control : Control S E
  stack : List (Continuation S E)
  frame : Frame S E
  state : RunState S

inductive Next (S : Signature) (E : Type) : Type 1 where
  | more (config : Config S E)
  | halted (result : Evaluated S E)
  | stopped (stop : Stop)

def Next.ofEvaluated (stack : List (Continuation S E)) :
    Except Stop (Evaluated S E) → Next S E
  | .error stop => .stopped stop
  | .ok evaluated => .more ⟨.settled evaluated.settled, stack, evaluated.frame, evaluated.state⟩

def Next.ofLink (inner : Link S E) (stack : List (Continuation S E)) (frame : Frame S E)
    (state : RunState S) : Next S E :=
  match inner with
  | .linked instr => .more ⟨.running instr, stack, frame, state⟩
  | .lost => .stopped (.fault .unlinked)

def stepRunning (procedures : Procedures S) (level : Level S) (instr : Instr S E)
    (stack : List (Continuation S E)) (frame : Frame S E) (state : RunState S) : Next S E :=
  match instr with
  | .succeed value => .more ⟨.settled (.ok value), stack, frame, state⟩
  | .perform step => .ofEvaluated stack (level.handle step frame state)
  | .effect act next =>
      let answer := act state.world
      .more ⟨.running (next answer.2), stack, frame, { state with world := answer.1 }⟩
  | .call proc => .more ⟨.running (procedures.body proc), stack, frame, state⟩
  | .andThen inner next => .ofLink inner (.andThen next :: stack) frame state
  | .fold inner next recover => .ofLink inner (.fold next recover :: stack) frame state
  | .ensuring inner finalizer => .ofLink inner (.ensure finalizer :: stack) frame state
  | .routine script => .ofEvaluated stack (script.run level none frame state)
  | .fault fault => .stopped (.fault fault)

def stepSettled (result : Settled E) (stack : List (Continuation S E)) (frame : Frame S E)
    (state : RunState S) : Next S E :=
  match stack, result with
  | [], result => .halted ⟨result, frame, state⟩
  | .andThen next :: rest, .ok value => .more ⟨.running (next value), rest, frame, state⟩
  | .andThen _ :: rest, .error interrupt =>
      .more ⟨.settled (.error interrupt), rest, frame, state⟩
  | .fold next _ :: rest, .ok value => .more ⟨.running (next value), rest, frame, state⟩
  | .fold _ recover :: rest, .error (.failed error) =>
      .more ⟨.running (recover error), rest, frame, state⟩
  | .fold _ _ :: rest, .error (.defect defect) =>
      .more ⟨.settled (.error (.defect defect)), rest, frame, state⟩
  | .ensure finalizer :: rest, result =>
      .more ⟨.settled result, rest, frame.register finalizer, state.registered frame.depth⟩

def step (procedures : Procedures S) (level : Level S) (config : Config S E) : Next S E :=
  match config with
  | ⟨.running instr, stack, frame, state⟩ => stepRunning procedures level instr stack frame state
  | ⟨.settled result, stack, frame, state⟩ => stepSettled result stack frame state

def loop (procedures : Procedures S) (level : Level S) :
    Nat → Config S E → Except Stop (Evaluated S E)
  | 0, _ => .error .outOfFuel
  | fuel + 1, config =>
      match step procedures level config with
      | .more next => loop procedures level fuel next
      | .halted result => .ok result
      | .stopped stop => .error stop

def eval (procedures : Procedures S) (level : Level S) (fuel : Nat) (instr : Instr S E)
    (frame : Frame S E) (state : RunState S) : Except Stop (Evaluated S E) :=
  loop procedures level fuel ⟨.running instr, [], frame, state⟩

def drain (level : Level S) (context : Context S) (depth : Nat) :
    List (Instr S E) → Settled E → Array E → RunState S → Except Stop (Driven S E)
  | [], settled, suppressed, state => .ok ⟨settled, suppressed, state⟩
  | finalizer :: older, settled, suppressed, state =>
      match level.drive finalizer context (depth + 1) (state.finalizerRan depth) with
      | .error stop => .error stop
      | .ok driven =>
          let merged := settled.absorb driven.settled
          let noted := Machine.discard merged.2 depth (suppressed ++ driven.suppressed) driven.state
          drain level context depth older merged.1 noted.1 noted.2

def drive (procedures : Procedures S) (level : Level S) (fuel : Nat) (instr : Instr S E)
    (context : Context S) (depth : Nat) (state : RunState S) : Except Stop (Driven S E) :=
  match eval procedures level fuel instr { context, depth } (state.reach depth) with
  | .error stop => .error stop
  | .ok ⟨settled, frame, state⟩ =>
      drain level frame.context frame.depth frame.finalizers settled frame.suppressed state

def level (procedures : Procedures S) : Nat → Level S
  | 0 => ⟨fun _ _ _ => .error .outOfFuel, fun _ _ _ _ => .error .outOfFuel⟩
  | n + 1 =>
      ⟨fun instr frame state => eval procedures (level procedures n) (n + 1) instr frame state,
        fun instr context depth state =>
          drive procedures (level procedures n) (n + 1) instr context depth state⟩

noncomputable def exit (A : Type) : Settled E → Except Stop (Except Defect (Outcome E A))
  | .ok value =>
      match value.unbox? A with
      | some value => .ok (.ok (.ok value))
      | none => .error (.fault .unboxed)
  | .error (.failed error) => .ok (.ok (.err error))
  | .error (.defect defect) => .ok (.error defect)

noncomputable def run (config : EngineConfig) (procedures : Procedures S) (fuel : Nat) (A : Type)
    (instr : Instr S E) (context : Context S) (world : S.World) :
    Except Stop (RunReport E A × S.World) :=
  match (level procedures fuel).drive instr context 0 ⟨{ config }, world⟩ with
  | .error stop => .error stop
  | .ok ⟨settled, suppressed, state⟩ =>
      match exit A settled with
      | .error stop => .error stop
      | .ok exit =>
          .ok (⟨exit, suppressed, state.journal.stats, state.journal.events,
            state.journal.dropped⟩, state.world)

end Sequencer.Boxed
