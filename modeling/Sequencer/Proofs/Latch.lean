import Sequencer.Proofs.BigStep
import Sequencer.Proofs.Sample

/-!
# Latched handles

A routine and its handle hold a conversation: calls, each with its answer, and at the end what
the routine returns.  The first call that is interrupted latches the handle.  From there on
every call is refused, so what the routine still says changes nothing but the world.
-/

namespace Sequencer

variable {S : Signature} {E A B : Type}

inductive Call (S : Signature) (E : Type) : Type → Type 1 where
  | perform {B : Type} (step : Step S E B) : Call S E B
  | bind {B : Type} (inner : Sequence S E B) : Call S E B
  | attempt {F B : Type} (inner : Sequence S F B) : Call S E (Outcome F B)

def Routine.call : {B : Type} → Call S E B → (Option B → Routine S E A) → Routine S E A
  | _, .perform step, next => .perform step next
  | _, .bind inner, next => .bind inner next
  | _, .attempt inner, next => .attempt inner next

theorem Routine.call_induction {motive : Routine S E A → Prop}
    (done : ∀ value, motive (.done value)) (abort : motive .abort)
    (effect : ∀ {B : Type} (act : S.World → S.World × B) (next : B → Routine S E A),
      (∀ answer, motive (next answer)) → motive (.effect act next))
    (call : ∀ {B : Type} (asked : Call S E B) (next : Option B → Routine S E A),
      (∀ answer, motive (next answer)) → motive (.call asked next))
    (depth : ∀ next : Nat → Routine S E A, (∀ answer, motive (next answer)) →
      motive (.depth next))
    (context : ∀ next : Context S → Routine S E A, (∀ answer, motive (next answer)) →
      motive (.context next)) (routine : Routine S E A) : motive routine :=
  Routine.induction done abort effect (fun step => call (.perform step))
    (fun inner => call (.bind inner)) (fun inner => call (.attempt inner)) depth context routine

structure Handle (S : Signature) (E : Type) where
  latched : Option (Interrupt E) := none
  frame : Frame S E
  state : RunState S

/-- Everything about a handle but the world. -/
def Handle.inside (handle : Handle S E) : Option (Interrupt E) × Frame S E × Journal :=
  (handle.latched, handle.frame, handle.state.journal)

def Level.answer (level : Level S) {E B : Type} (call : Call S E B) (frame : Frame S E)
    (state : RunState S) : Except Stop (Evaluated S E B) :=
  match call with
  | .perform step => level.handle step frame state
  | .bind inner => level.eval inner frame state
  | .attempt inner =>
      match level.attempt inner frame state with
      | .error stop => .error stop
      | .ok (exit, state) => .ok ⟨.ofExit exit, frame, state⟩

def Handle.call (handle : Handle S E) (level : Level S) (call : Call S E B) :
    Except Stop (Option B × Handle S E) :=
  match handle.latched with
  | some _ => .ok (none, handle)
  | none =>
      match level.answer call handle.frame handle.state with
      | .error stop => .error stop
      | .ok ⟨.ok value, frame, state⟩ => .ok (some value, { frame, state })
      | .ok ⟨.error interrupt, frame, state⟩ =>
          .ok (none, { latched := some interrupt, frame, state })

structure Exchange (S : Signature) (E : Type) : Type 1 where
  {B : Type}
  call : Call S E B
  before : Handle S E
  answer : Option B
  after : Handle S E

structure Conversation (S : Signature) (E A : Type) : Type 1 where
  exchanges : List (Exchange S E)
  returned : Option A
  left : Handle S E

def Conversation.settle (conversation : Conversation S E A) : Evaluated S E A :=
  ⟨Routine.settle conversation.left.latched conversation.returned, conversation.left.frame,
    conversation.left.state⟩

def Handle.exchange (handle : Handle S E) (level : Level S) (call : Call S E B)
    (next : Option B → Handle S E → Except Stop (Conversation S E A)) :
    Except Stop (Conversation S E A) :=
  match handle.call level call with
  | .error stop => .error stop
  | .ok (answer, after) =>
      (next answer after).map fun rest =>
        { rest with exchanges := ⟨call, handle, answer, after⟩ :: rest.exchanges }

def Routine.converse {S : Signature} (level : Level S) {E A : Type} :
    Routine S E A → Handle S E → Except Stop (Conversation S E A)
  | .done value, handle => .ok ⟨[], some value, handle⟩
  | .abort, handle => .ok ⟨[], none, handle⟩
  | .effect act next, handle =>
      (next (act handle.state.world).2).converse level
        { handle with state := { handle.state with world := (act handle.state.world).1 } }
  | .perform step next, handle =>
      handle.exchange level (.perform step) fun answer after => (next answer).converse level after
  | .bind inner next, handle =>
      handle.exchange level (.bind inner) fun answer after => (next answer).converse level after
  | .attempt inner next, handle =>
      handle.exchange level (.attempt inner) fun answer after => (next answer).converse level after
  | .depth next, handle => (next handle.frame.depth).converse level handle
  | .context next, handle => (next handle.frame.context).converse level handle

theorem Routine.converse_call (level : Level S) (call : Call S E B)
    (next : Option B → Routine S E A) (handle : Handle S E) :
    (Routine.call call next).converse level handle =
      handle.exchange level call fun answer after => (next answer).converse level after := by
  cases call <;> rw [Routine.call, Routine.converse]

theorem Routine.run_call (level : Level S) (call : Call S E B)
    (next : Option B → Routine S E A) (handle : Handle S E) :
    (Routine.call call next).run level handle.latched handle.frame handle.state =
      match handle.call level call with
      | .error stop => .error stop
      | .ok (answer, after) => (next answer).run level after.latched after.frame after.state := by
  obtain ⟨latched | interrupt, frame, state⟩ := handle
  · cases call with
    | perform step =>
        simp only [Routine.call, Routine.run, Handle.call, Level.answer]
        rcases level.handle step frame state with stop | ⟨interrupt | value, frame, state⟩ <;> rfl
    | bind inner =>
        simp only [Routine.call, Routine.run, Handle.call, Level.answer]
        rcases level.eval inner frame state with stop | ⟨interrupt | value, frame, state⟩ <;> rfl
    | attempt inner =>
        simp only [Routine.call, Routine.run, Handle.call, Level.answer]
        rcases level.attempt inner frame state with stop | ⟨defect | outcome, state⟩ <;> rfl
  · cases call <;> simp only [Routine.call, Routine.run, Handle.call]

theorem Handle.settle_exchange (handle : Handle S E) (level : Level S) (call : Call S E B)
    (next : Option B → Handle S E → Except Stop (Conversation S E A)) :
    (handle.exchange level call next).map Conversation.settle =
      match handle.call level call with
      | .error stop => .error stop
      | .ok (answer, after) => (next answer after).map Conversation.settle := by
  unfold Handle.exchange
  rcases handle.call level call with stop | ⟨answer, after⟩
  · rfl
  · simp only
    cases next answer after <;> rfl

theorem Routine.run_eq_converse (level : Level S) (routine : Routine S E A)
    (handle : Handle S E) :
    routine.run level handle.latched handle.frame handle.state =
      (routine.converse level handle).map Conversation.settle := by
  induction routine using Routine.call_induction generalizing handle with
  | done value => simp only [Routine.run, Routine.converse, Except.map, Conversation.settle]
  | abort => simp only [Routine.run, Routine.converse, Except.map, Conversation.settle]
  | effect act next ih =>
      simp only [Routine.run, Routine.converse, ← ih]
  | call asked next ih =>
      simp only [Routine.run_call, Routine.converse_call, Handle.settle_exchange, ih]
  | depth next ih =>
      simp only [Routine.run, Routine.converse, ih]
  | context next ih =>
      simp only [Routine.run, Routine.converse, ih]

/-! ## The chain of exchanges -/

/-- Each call is answered by the handle it is made on, and finds it as the call before left it.
Between two calls a routine can only act on the world. -/
def Chained (level : Level S) : Handle S E → List (Exchange S E) → Handle S E → Prop
  | handle, [], left => left.inside = handle.inside
  | handle, exchange :: later, left =>
      exchange.before.inside = handle.inside ∧
      exchange.before.call level exchange.call = .ok (exchange.answer, exchange.after) ∧
      Chained level exchange.after later left

theorem Chained.congr {level : Level S} {handle handle' left : Handle S E}
    {exchanges : List (Exchange S E)} (same : handle.inside = handle'.inside)
    (chained : Chained level handle exchanges left) : Chained level handle' exchanges left := by
  cases exchanges with
  | nil => exact chained.trans same
  | cons exchange later => exact ⟨chained.1.trans same, chained.2⟩

theorem Chained.of_exchange {level : Level S} {handle : Handle S E} {call : Call S E B}
    {next : Option B → Handle S E → Except Stop (Conversation S E A)}
    {conversation : Conversation S E A}
    (h : handle.exchange level call next = .ok conversation)
    (rest : ∀ {answer after conversation}, next answer after = .ok conversation →
      Chained level after conversation.exchanges conversation.left) :
    Chained level handle conversation.exchanges conversation.left := by
  unfold Handle.exchange at h
  cases answered : handle.call level call with
  | error stop => simp [answered] at h
  | ok reply =>
      obtain ⟨answer, after⟩ := reply
      simp only [answered] at h
      cases later : next answer after with
      | error stop => simp [later, Except.map] at h
      | ok conversation' =>
          simp only [later, Except.map, Except.ok.injEq] at h
          subst h
          exact ⟨rfl, answered, rest later⟩

theorem Chained.of_converse {level : Level S} {routine : Routine S E A} {handle : Handle S E}
    {conversation : Conversation S E A} (h : routine.converse level handle = .ok conversation) :
    Chained level handle conversation.exchanges conversation.left := by
  induction routine using Routine.call_induction generalizing handle conversation with
  | done value =>
      rw [Routine.converse] at h
      cases h
      exact rfl
  | abort =>
      rw [Routine.converse] at h
      cases h
      exact rfl
  | effect act next ih =>
      rw [Routine.converse] at h
      have rest := ih _ h
      refine Chained.congr ?_ rest
      rfl
  | call asked next ih =>
      rw [Routine.converse_call] at h
      exact .of_exchange h (ih _)
  | depth next ih =>
      rw [Routine.converse] at h
      exact ih _ h
  | context next ih =>
      rw [Routine.converse] at h
      exact ih _ h

/-! ## Before and after the first abort -/

/-- A call comes to nothing, whatever the engine could have done: the routine is given an abort
token, and no sequence is run. -/
def Exchange.Refused (exchange : Exchange S E) : Prop :=
  exchange.answer = none ∧ exchange.after = exchange.before ∧
    ∀ level : Level S, exchange.before.call level exchange.call = .ok (none, exchange.before)

/-- A call that runs a sequence.  The others are answered from the frame alone. -/
def Call.runsSequence : {B : Type} → Call S E B → Bool
  | _, .perform (.nested _ _) => true
  | _, .perform _ => false
  | _, .bind _ => true
  | _, .attempt _ => true

def Exchange.asked (exchange : Exchange S E) : (B : Type) × Call S E B :=
  ⟨exchange.B, exchange.call⟩

/-- The world a call is made in, where the call runs a sequence that may look at it. -/
def Exchange.surroundings (exchange : Exchange S E) : Option S.World :=
  if exchange.call.runsSequence then some exchange.before.state.world else none

def Exchange.reply (exchange : Exchange S E) : (B : Type) × Option B :=
  ⟨exchange.B, exchange.answer⟩

def Handle.within (handle : Handle S E) (world : S.World) : Handle S E :=
  { handle with state := { handle.state with world } }

theorem Handle.eq_within {handle handle' : Handle S E} (same : handle'.inside = handle.inside) :
    handle' = handle.within handle'.state.world := by
  obtain ⟨latched, frame, journal, world⟩ := handle
  obtain ⟨latched', frame', journal', world'⟩ := handle'
  cases same
  rfl

theorem Level.answer_within (level : Level S) {call : Call S E B}
    (quiet : call.runsSequence = false) (frame : Frame S E) (journal : Journal)
    (world world' : S.World) :
    level.answer call frame ⟨journal, world'⟩ =
      (level.answer call frame ⟨journal, world⟩).map fun answered =>
        { answered with state := { answered.state with world := world' } } := by
  cases call with
  | bind inner => cases quiet
  | attempt inner => cases quiet
  | perform step =>
      cases step with
      | nested layer body => cases quiet
      | fail error => rfl
      | finalize finalizer => rfl
      | request key =>
          simp only [Level.answer, Level.handle]
          cases frame.context.lookup key <;> rfl

theorem Handle.call_within (handle : Handle S E) (level : Level S) {call : Call S E B}
    (quiet : call.runsSequence = false) (world : S.World) :
    (handle.within world).call level call =
      (handle.call level call).map (Prod.map id (Handle.within · world)) := by
  obtain ⟨latched | interrupt, frame, journal, before⟩ := handle
  · simp only [Handle.call, Handle.within, level.answer_within quiet frame journal before world]
    rcases level.answer call frame ⟨journal, before⟩ with stop | ⟨interrupt | value, frame, state⟩
      <;> rfl
  · rfl

theorem Exchange.inside_eq {level : Level S} {exchange exchange' : Exchange S E}
    (inside : exchange.before.inside = exchange'.before.inside)
    (asked : exchange.asked = exchange'.asked)
    (surroundings : exchange.surroundings = exchange'.surroundings)
    (h : exchange.before.call level exchange.call = .ok (exchange.answer, exchange.after))
    (h' : exchange'.before.call level exchange'.call = .ok (exchange'.answer, exchange'.after)) :
    exchange.after.inside = exchange'.after.inside := by
  obtain ⟨call, before, answer, after⟩ := exchange
  obtain ⟨call', before', answer', after'⟩ := exchange'
  cases asked
  have moved := Handle.eq_within inside.symm
  cases runs : call.runsSequence with
  | true =>
      simp only [Exchange.surroundings, runs, if_true, Option.some.injEq] at surroundings
      rw [← surroundings] at moved
      rw [moved] at h'
      exact congrArg (fun reply => reply.2.inside) (Except.ok.inj (h.symm.trans h'))
  | false =>
      simp only at h h' moved
      rw [moved, before.call_within level runs, h] at h'
      cases h'
      rfl

structure Conversation.AbortsAt (conversation : Conversation S E A) (past : List (Exchange S E))
    (first : Exchange S E) (later : List (Exchange S E)) : Prop where
  exchanges : conversation.exchanges = past ++ first :: later
  answered : ∀ exchange ∈ past, exchange.answer ≠ none
  aborted : first.answer = none

theorem Handle.call_cases {handle after : Handle S E} {level : Level S} {call : Call S E B}
    {answer : Option B} (free : handle.latched = none)
    (h : handle.call level call = .ok (answer, after)) :
    (answer ≠ none ∧ after.latched = none) ∨
      ∃ interrupt, answer = none ∧ after.latched = some interrupt ∧
        level.answer call handle.frame handle.state =
          .ok ⟨.error interrupt, after.frame, after.state⟩ := by
  simp only [Handle.call, free] at h
  rcases answered : level.answer call handle.frame handle.state with
    stop | ⟨interrupt | value, frame, state⟩
  · simp [answered] at h
  · simp only [answered, Except.ok.injEq, Prod.mk.injEq] at h
    obtain ⟨rfl, rfl⟩ := h
    exact .inr ⟨interrupt, rfl, rfl, rfl⟩
  · simp only [answered, Except.ok.injEq, Prod.mk.injEq] at h
    obtain ⟨rfl, rfl⟩ := h
    exact .inl ⟨nofun, rfl⟩

namespace Chained

variable {level : Level S} {handle left : Handle S E} {exchanges : List (Exchange S E)}

theorem refused {interrupt : Interrupt E} (latched : handle.latched = some interrupt)
    (chained : Chained level handle exchanges left) :
    (∀ exchange ∈ exchanges, exchange.Refused ∧ exchange.before.inside = handle.inside) ∧
      left.inside = handle.inside := by
  induction exchanges generalizing handle with
  | nil => exact ⟨List.forall_mem_nil _, chained⟩
  | cons exchange later ih =>
      obtain ⟨found, answered, rest⟩ := chained
      have closed : exchange.before.latched = some interrupt :=
        (congrArg Prod.fst found).trans latched
      have refuses : ∀ level : Level S,
          exchange.before.call level exchange.call = .ok (none, exchange.before) := by
        intro level
        simp only [Handle.call, closed]
      rw [refuses, Except.ok.injEq, Prod.mk.injEq] at answered
      obtain ⟨unanswered, unchanged⟩ := answered
      rw [← unchanged] at rest
      obtain ⟨others, last⟩ := ih closed rest
      refine ⟨List.forall_mem_cons.mpr ⟨⟨⟨unanswered.symm, unchanged.symm, refuses⟩, found⟩, ?_⟩,
        last.trans found⟩
      intro other member
      exact ⟨(others other member).1, (others other member).2.trans found⟩

theorem unlatched (free : handle.latched = none) (chained : Chained level handle exchanges left)
    (answered : ∀ exchange ∈ exchanges, exchange.answer ≠ none) : left.latched = none := by
  induction exchanges generalizing handle with
  | nil => exact (congrArg Prod.fst chained).trans free
  | cons exchange later ih =>
      obtain ⟨found, call, rest⟩ := chained
      obtain ⟨here, others⟩ := List.forall_mem_cons.mp answered
      have before : exchange.before.latched = none := (congrArg Prod.fst found).trans free
      obtain ⟨_, after⟩ | ⟨_, none, _⟩ := Handle.call_cases before call
      · exact ih after rest others
      · exact absurd none here

theorem first_abort {past later : List (Exchange S E)} {first : Exchange S E}
    (free : handle.latched = none) (chained : Chained level handle (past ++ first :: later) left)
    (answered : ∀ exchange ∈ past, exchange.answer ≠ none) (aborted : first.answer = none) :
    ∃ interrupt, first.after.latched = some interrupt ∧
      level.answer first.call first.before.frame first.before.state =
        .ok ⟨.error interrupt, first.after.frame, first.after.state⟩ ∧
      Chained level first.after later left := by
  induction past generalizing handle with
  | nil =>
      obtain ⟨found, call, rest⟩ := chained
      have before : first.before.latched = none := (congrArg Prod.fst found).trans free
      obtain ⟨some, _⟩ | ⟨interrupt, _, latched, interrupted⟩ := Handle.call_cases before call
      · exact absurd aborted some
      · exact ⟨interrupt, latched, interrupted, rest⟩
  | cons exchange past ih =>
      obtain ⟨found, call, rest⟩ := chained
      obtain ⟨here, others⟩ := List.forall_mem_cons.mp answered
      have before : exchange.before.latched = none := (congrArg Prod.fst found).trans free
      obtain ⟨_, after⟩ | ⟨_, none, _⟩ := Handle.call_cases before call
      · exact ih after rest others
      · exact absurd none here

theorem inside_eq {handle' left' : Handle S E} {past past' later later' : List (Exchange S E)}
    {first first' : Exchange S E} (same : handle.inside = handle'.inside)
    (chained : Chained level handle (past ++ first :: later) left)
    (chained' : Chained level handle' (past' ++ first' :: later') left')
    (asked : (past ++ [first]).map Exchange.asked = (past' ++ [first']).map Exchange.asked)
    (surroundings : (past ++ [first]).map Exchange.surroundings =
      (past' ++ [first']).map Exchange.surroundings) :
    first.after.inside = first'.after.inside := by
  induction past generalizing past' handle handle' with
  | nil =>
      cases past' with
      | nil =>
          exact Exchange.inside_eq (chained.1.trans (same.trans chained'.1.symm))
            (List.cons.inj asked).1 (List.cons.inj surroundings).1 chained.2.1 chained'.2.1
      | cons exchange' past' => simp at asked
  | cons exchange past ih =>
      cases past' with
      | nil => simp at asked
      | cons exchange' past' =>
          obtain ⟨askedHere, askedLater⟩ := List.cons.inj asked
          obtain ⟨here, others⟩ := List.cons.inj surroundings
          have after := Exchange.inside_eq (chained.1.trans (same.trans chained'.1.symm)) askedHere
            here chained.2.1 chained'.2.1
          exact ih after chained.2.2 chained'.2.2 askedLater others

end Chained

theorem Conversation.AbortsAt.latches {level : Level S} {routine : Routine S E A}
    {frame : Frame S E} {state : RunState S} {conversation : Conversation S E A}
    {past later : List (Exchange S E)} {first : Exchange S E}
    (aborts : conversation.AbortsAt past first later)
    (h : routine.converse level { frame, state } = .ok conversation) :
    ∃ interrupt, first.after.latched = some interrupt ∧
      level.answer first.call first.before.frame first.before.state =
        .ok ⟨.error interrupt, first.after.frame, first.after.state⟩ ∧
      (∀ exchange ∈ later, exchange.Refused ∧ exchange.before.inside = first.after.inside) ∧
      conversation.left.inside = first.after.inside := by
  have chained := Chained.of_converse h
  rw [aborts.exchanges] at chained
  obtain ⟨interrupt, latched, interrupted, rest⟩ :=
    chained.first_abort rfl aborts.answered aborts.aborted
  exact ⟨interrupt, latched, interrupted, rest.refused latched⟩

theorem Conversation.settled_of_latched {conversation : Conversation S E A}
    {interrupt : Interrupt E} (latched : conversation.left.latched = some interrupt) :
    conversation.settle.settled = .error interrupt := by
  simp only [Conversation.settle, latched, Routine.settle]

section

variable {level : Level S} {routine routine' : Routine S E A} {frame frame' : Frame S E}
  {state state' : RunState S} {conversation conversation' : Conversation S E A}
  {past past' later later' : List (Exchange S E)} {first first' : Exchange S E}

theorem Conversation.AbortsAt.inside_eq
    (aborts : conversation.AbortsAt past first later)
    (aborts' : conversation'.AbortsAt past' first' later')
    (h : routine.converse level { frame, state } = .ok conversation)
    (h' : routine'.converse level { frame, state := state' } = .ok conversation')
    (journal : state'.journal = state.journal)
    (asked : (past ++ [first]).map Exchange.asked = (past' ++ [first']).map Exchange.asked)
    (surroundings : (past ++ [first]).map Exchange.surroundings =
      (past' ++ [first']).map Exchange.surroundings) :
    first.after.inside = first'.after.inside := by
  have chained := Chained.of_converse h
  have chained' := Chained.of_converse h'
  rw [aborts.exchanges] at chained
  rw [aborts'.exchanges] at chained'
  refine Chained.inside_eq ?_ chained chained' asked surroundings
  simp only [Handle.inside, journal]

theorem Conversation.AbortsAt.settle_eq (aborts : conversation.AbortsAt past first later)
    (aborts' : conversation'.AbortsAt past' first' later')
    (h : routine.converse level { frame, state } = .ok conversation)
    (h' : routine'.converse level { frame := frame', state := state' } = .ok conversation')
    (same : first.after.inside = first'.after.inside) :
    conversation.settle.settled = conversation'.settle.settled ∧
      conversation.settle.frame = conversation'.settle.frame ∧
      conversation.settle.state.journal = conversation'.settle.state.journal := by
  obtain ⟨interrupt, latched, _, _, last⟩ := aborts.latches h
  obtain ⟨_, _, _, _, last'⟩ := aborts'.latches h'
  rw [← same] at last'
  simp only [Handle.inside, Prod.mk.injEq] at last last'
  obtain ⟨latch, kept⟩ := last
  obtain ⟨latch', kept'⟩ := last'
  refine ⟨?_, kept.1.trans kept'.1.symm, kept.2.trans kept'.2.symm⟩
  rw [Conversation.settled_of_latched (latch.trans latched),
    Conversation.settled_of_latched (latch'.trans latched)]

end

/-- A latched interrupt decides how a routine settles.  From the first call that aborts on, all
calls are refused and the frame and the journal stay as that call left them, whatever the
routine does and returns.  A routine without an abort settles as it returns.  Two routines that
start from the same frame and journal and make the same calls up to the first abort settle
alike and leave the same frame and journal, provided that each call that runs a sequence is made
in the same world by both.  Equal answers would not do in place of equal worlds. -/
theorem latched_interrupt_decides (level : Level S) (routine : Routine S E A) (frame : Frame S E)
    (state : RunState S) :
    routine.run level none frame state =
      (routine.converse level { frame, state }).map Conversation.settle ∧
    ∀ conversation, routine.converse level { frame, state } = .ok conversation →
      ((∀ exchange ∈ conversation.exchanges, exchange.answer ≠ none) →
        conversation.settle.settled = match conversation.returned with
          | some value => .ok value
          | none => .error (.defect .detachedAbort)) ∧
      (∀ past first later, conversation.AbortsAt past first later →
        ∃ interrupt,
          level.answer first.call first.before.frame first.before.state =
            .ok ⟨.error interrupt, first.after.frame, first.after.state⟩ ∧
          (∀ exchange ∈ later, exchange.Refused ∧
            exchange.before.frame = first.after.frame ∧
            exchange.before.state.journal = first.after.state.journal) ∧
          conversation.settle.settled = .error interrupt ∧
          conversation.settle.frame = first.after.frame ∧
          conversation.settle.state.journal = first.after.state.journal) ∧
      ∀ (other : Routine S E A) (state' : RunState S) (conversation' : Conversation S E A),
        state'.journal = state.journal →
        other.converse level { frame, state := state' } = .ok conversation' →
        ∀ past first later past' first' later', conversation.AbortsAt past first later →
          conversation'.AbortsAt past' first' later' →
          (past ++ [first]).map Exchange.asked = (past' ++ [first']).map Exchange.asked →
          (past ++ [first]).map Exchange.surroundings =
            (past' ++ [first']).map Exchange.surroundings →
          conversation.settle.settled = conversation'.settle.settled ∧
          conversation.settle.frame = conversation'.settle.frame ∧
          conversation.settle.state.journal = conversation'.settle.state.journal := by
  refine ⟨Routine.run_eq_converse level routine { frame, state }, ?_⟩
  intro conversation h
  refine ⟨?_, ?_, ?_⟩
  · intro answered
    have free : conversation.left.latched = none :=
      (Chained.of_converse h).unlatched rfl answered
    simp only [Conversation.settle, free]
    cases conversation.returned <;> rfl
  · intro past first later aborts
    obtain ⟨interrupt, latched, interrupted, refused, last⟩ := aborts.latches h
    simp only [Handle.inside, Prod.mk.injEq] at refused last
    obtain ⟨latch, kept⟩ := last
    refine ⟨interrupt, interrupted, ?_, Conversation.settled_of_latched (latch.trans latched), kept⟩
    intro exchange member
    obtain ⟨nothing, -, found⟩ := refused exchange member
    exact ⟨nothing, found⟩
  · intro other state' conversation' journal h' past first later past' first' later' aborts aborts'
      asked surroundings
    exact aborts.settle_eq aborts' h h'
      (aborts.inside_eq aborts' h h' journal asked surroundings)

def Sample.frame : Frame Sample.signature String := { context := .empty, depth := 0 }

def Sample.state : RunState Sample.signature := { journal := { config := .tracing }, world := [] }

def swallowing : Routine Sample.signature String Nat :=
  .bind (Sequence.fail "first" : Sequence Sample.signature String Unit) fun _ =>
    .perform (.finalize (Sample.note "cleanup")) fun _ => .done 7

def heeding : Routine Sample.signature String Nat :=
  .bind (Sequence.fail "first" : Sequence Sample.signature String Unit) fun _ => .abort

theorem latched_interrupt_decides_swallowing :
    ∃ conversation conversation',
      swallowing.converse (Machine.level Sample.interpreter.procedures 3)
        { frame := Sample.frame, state := Sample.state } = .ok conversation ∧
      conversation.exchanges.length = 2 ∧ conversation.returned = some 7 ∧
      conversation.settle.settled = .error (.failed "first") ∧
      conversation.settle.frame = Sample.frame ∧
      heeding.converse (Machine.level Sample.interpreter.procedures 3)
        { frame := Sample.frame, state := Sample.state } = .ok conversation' ∧
      conversation.settle.settled = conversation'.settle.settled ∧
      conversation.settle.state.journal = conversation'.settle.state.journal := by
  have spoken : swallowing.converse (Machine.level Sample.interpreter.procedures 3)
      { frame := Sample.frame, state := Sample.state } = .ok ⟨[_, _], some 7, _⟩ := rfl
  have spoken' : heeding.converse (Machine.level Sample.interpreter.procedures 3)
      { frame := Sample.frame, state := Sample.state } = .ok ⟨[_], none, _⟩ := rfl
  obtain ⟨-, decided⟩ := latched_interrupt_decides
    (Machine.level Sample.interpreter.procedures 3) swallowing Sample.frame Sample.state
  obtain ⟨-, latched, alike⟩ := decided _ spoken
  obtain ⟨interrupt, answered, -, settled, kept, -⟩ :=
    latched [] _ _ ⟨rfl, List.forall_mem_nil _, rfl⟩
  obtain ⟨same, -, journal⟩ := alike heeding Sample.state _ rfl spoken' [] _ _ [] _ []
    ⟨rfl, List.forall_mem_nil _, rfl⟩ ⟨rfl, List.forall_mem_nil _, rfl⟩ rfl rfl
  cases answered
  exact ⟨_, _, spoken, rfl, rfl, settled, kept, spoken', same, journal⟩

def tidying : Sequence Sample.signature String Unit :=
  .effect (fun notes => (notes, notes.isEmpty)) fun empty =>
    if empty then .perform (.finalize (Sample.note "cleanup")) else .succeed ()

def tidyingThenFailing : Routine Sample.signature String Nat :=
  .bind tidying fun _ => .perform (.fail "stop" : Step Sample.signature String Unit) fun _ => .abort

def notingFirst : Routine Sample.signature String Nat :=
  .effect (fun notes => (notes ++ ["seen"], ())) fun _ => tidyingThenFailing

/-- Started alike, the two routines make the same calls and are given the same answers, and only
one of them leaves a finalizer. -/
theorem answers_do_not_determine_frame :
    ∃ conversation conversation' past first past' first',
      tidyingThenFailing.converse (Machine.level Sample.interpreter.procedures 3)
        { frame := Sample.frame, state := Sample.state } = .ok conversation ∧
      notingFirst.converse (Machine.level Sample.interpreter.procedures 3)
        { frame := Sample.frame, state := Sample.state } = .ok conversation' ∧
      conversation.AbortsAt past first [] ∧ conversation'.AbortsAt past' first' [] ∧
      (past ++ [first]).map Exchange.asked = (past' ++ [first']).map Exchange.asked ∧
      (past ++ [first]).map Exchange.reply = (past' ++ [first']).map Exchange.reply ∧
      conversation.settle.frame.finalizers.length = 1 ∧
      conversation'.settle.frame.finalizers.length = 0 ∧
      conversation.settle.state.journal ≠ conversation'.settle.state.journal := by
  have spoken : tidyingThenFailing.converse (Machine.level Sample.interpreter.procedures 3)
      { frame := Sample.frame, state := Sample.state } = .ok ⟨[_, _], none, _⟩ := rfl
  have spoken' : notingFirst.converse (Machine.level Sample.interpreter.procedures 3)
      { frame := Sample.frame, state := Sample.state } = .ok ⟨[_, _], none, _⟩ := rfl
  refine ⟨_, _, [_], _, [_], _, spoken, spoken', ⟨rfl, ?_, rfl⟩, ⟨rfl, ?_, rfl⟩, rfl, rfl, rfl,
    rfl, ?_⟩
  · simp
  · simp
  · intro same
    exact absurd (congrArg (fun journal => journal.stats.steps) same) (by decide)

end Sequencer
