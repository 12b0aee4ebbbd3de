import Sequencer.Proofs.Determinism
import Sequencer.Proofs.RunInvariant
import Sequencer.Proofs.Sample

/-!
# The discipline of finalizers

The history of a frame is that of its body, up to where the body settles, and then that of
its finalizers, newest first, each a whole frame one level deeper under the frame's own
context.  A grammar of histories says so for a frame and for all frames inside it.
-/

namespace Sequencer

variable {S : Signature} {E A : Type}

def Moment.PlainAt (depth : Nat) : Moment S → Prop
  | .resolved d _ => d = depth
  | .unresolved d _ => d = depth
  | .detached d => d = depth
  | .failed d _ => d = depth
  | .recovered d _ => d = depth
  | .attempted d _ => d = depth
  | _ => False

mutual

/-- The history of a frame that runs `sequence`: its body, and after that the finalizers
registered by its body, the last one registered first. -/
inductive FrameHistory {S : Signature} :
    {E A : Type} → Sequence S E A → Context S → Nat → History S → Prop where
  | intro {E A : Type} {sequence : Sequence S E A} {context : Context S} {depth : Nat}
      {registered : List (Sequence S E Unit)} {before after : History S}
      (body : BodyHistory depth registered before)
      (drain : DrainHistory context depth registered.reverse after) :
      FrameHistory sequence context depth
        (.opened sequence context depth :: before ++ .settled depth :: after ++ [.closed depth])

/-- What happens before a frame settles, with the finalizers registered on the frame meanwhile,
in order of registration.  Those of nested frames are theirs alone. -/
inductive BodyHistory {S : Signature} :
    {E : Type} → Nat → List (Sequence S E Unit) → History S → Prop where
  | empty {E : Type} {depth : Nat} : BodyHistory (E := E) depth [] []
  | plain {E : Type} {depth : Nat} {moment : Moment S} (plain : moment.PlainAt depth) :
      BodyHistory (E := E) depth [] [moment]
  | registered {E : Type} {depth : Nat} (finalizer : Sequence S E Unit) :
      BodyHistory depth [finalizer] [.registered depth finalizer]
  | nested {E F A : Type} {depth : Nat} {sequence : Sequence S F A} {context : Context S}
      {history : History S} {ok : Bool}
      (frame : FrameHistory sequence context (depth + 1) history) :
      BodyHistory (E := E) depth []
        (.entered (depth + 1) :: history ++ [.exited (depth + 1) ok])
  | append {E : Type} {depth : Nat} {earlier later : List (Sequence S E Unit)}
      {before after : History S} (first : BodyHistory depth earlier before)
      (second : BodyHistory depth later after) :
      BodyHistory depth (earlier ++ later) (before ++ after)

inductive DrainHistory {S : Signature} :
    {E : Type} → Context S → Nat → List (Sequence S E Unit) → History S → Prop where
  | empty {E : Type} {context : Context S} {depth : Nat} :
      DrainHistory (E := E) context depth [] []
  | finalizer {E : Type} {context : Context S} {depth : Nat} {finalizer : Sequence S E Unit}
      {older : List (Sequence S E Unit)} {history after : History S}
      (frame : FrameHistory finalizer context (depth + 1) history)
      (discarded : Discarded E)
      (rest : DrainHistory context depth older after) :
      DrainHistory context depth (finalizer :: older)
        (.finalizing depth :: history ++ discarded.moments depth ++ after)

end

def Framed (history : History S) : Prop :=
  ∀ ⦃E A : Type⦄ ⦃sequence : Sequence S E A⦄ ⦃context : Context S⦄ ⦃depth : Nat⦄
    ⦃past future : History S⦄, history = past ++ .opened sequence context depth :: future →
    ∃ frame rest, FrameHistory sequence context depth frame ∧
      .opened sequence context depth :: future = frame ++ rest

def Moment.opens : Moment S → Bool
  | .opened _ _ _ => true
  | _ => false

theorem Moment.PlainAt.opens {moment : Moment S} {depth : Nat} (plain : moment.PlainAt depth) :
    moment.opens = false := by
  cases moment with
  | opened => cases plain
  | _ => rfl

namespace Framed

theorem nil : Framed ([] : History S) := by
  intro _ _ _ _ _ past _ h
  cases past <;> cases h

theorem cons {moment : Moment S} {history : History S} (plain : moment.opens = false)
    (framed : Framed history) : Framed (moment :: history) := by
  intro _ _ _ _ _ past _ h
  cases past with
  | nil => cases h; cases plain
  | cons first past => cases h; exact framed rfl

theorem append {before after : History S} (first : Framed before) (second : Framed after) :
    Framed (before ++ after) := by
  intro _ _ sequence context depth past future h
  -- A frame that opens in the one part does not end in the other.
  rcases List.append_eq_append_iff.mp h with ⟨middle, rfl, hafter⟩ | ⟨middle, hbefore, hmiddle⟩
  · exact second hafter
  · cases middle with
    | nil => exact second (show after = [] ++ _ from hmiddle.symm)
    | cons moment middle =>
        cases hmiddle
        obtain ⟨frame, rest, history, hsplit⟩ := first hbefore
        exact ⟨frame, rest ++ after, history, by rw [← List.append_assoc, ← hsplit]; rfl⟩

theorem moments {E : Type} (discarded : Discarded E) (depth : Nat) :
    Framed (discarded.moments depth : History S) := by
  cases discarded with
  | nothing => exact nil
  | failure error => exact nil.cons rfl
  | defect => exact nil.cons rfl

end Framed

mutual

theorem FrameHistory.framed : {E A : Type} → {sequence : Sequence S E A} → {context : Context S} →
    {depth : Nat} → {history : History S} → FrameHistory sequence context depth history →
    Framed history
  | _, _, _, _, _, _, @FrameHistory.intro _ _ _ _ _ depth _ before after body drain => by
      have inside : Framed (before ++ .settled depth :: after ++ [.closed depth]) :=
        (body.framed.append (drain.framed.cons rfl)).append (Framed.nil.cons rfl)
      -- Either this is the frame that opens, or one inside it is.
      intro _ _ _ _ _ past _ h
      cases past with
      | nil => cases h; exact ⟨_, [], .intro body drain, (List.append_nil _).symm⟩
      | cons first past => exact inside (List.cons.inj h).2

theorem BodyHistory.framed : {E : Type} → {depth : Nat} → {registered : List (Sequence S E Unit)} →
    {history : History S} → BodyHistory depth registered history → Framed history
  | _, _, _, _, .empty => .nil
  | _, _, _, _, .plain plain => Framed.nil.cons plain.opens
  | _, _, _, _, .registered _ => Framed.nil.cons rfl
  | _, _, _, _, .nested frame => (frame.framed.append (Framed.nil.cons rfl)).cons rfl
  | _, _, _, _, .append first second => first.framed.append second.framed

theorem DrainHistory.framed : {E : Type} → {context : Context S} → {depth : Nat} →
    {finalizers : List (Sequence S E Unit)} → {history : History S} →
    DrainHistory context depth finalizers history → Framed history
  | _, _, _, _, _, .empty => .nil
  | _, _, _, _, _, .finalizer frame discarded rest =>
      ((frame.framed.append (.moments discarded _)).append rest.framed).cons rfl

end

/-- Work inside a frame leaves its context and depth alone and puts the finalizers that the
history registers on top of those it finds. -/
structure Extends (frame : Frame S E) (history : History S) (registered : List (Sequence S E Unit))
    (after : Frame S E) : Prop where
  body : BodyHistory frame.depth registered history
  finalizers : after.finalizers = registered.reverse ++ frame.finalizers
  context : after.context = frame.context
  depth : after.depth = frame.depth

namespace Extends

variable {frame frame' after : Frame S E} {before later : History S}
  {registered registered' : List (Sequence S E Unit)}

theorem refl (frame : Frame S E) : Extends frame [] [] frame :=
  ⟨.empty, rfl, rfl, rfl⟩

theorem trans (first : Extends frame before registered frame')
    (second : Extends frame' later registered' after) :
    Extends frame (before ++ later) (registered ++ registered') after where
  body := first.body.append (first.depth ▸ second.body)
  finalizers := by
    rw [second.finalizers, first.finalizers, List.reverse_append, List.append_assoc]
  context := second.context.trans first.context
  depth := second.depth.trans first.depth

theorem plain (frame : Frame S E) {moment : Moment S} (plain : moment.PlainAt frame.depth) :
    Extends frame [moment] [] frame :=
  ⟨.plain plain, rfl, rfl, rfl⟩

theorem nested (frame : Frame S E) {F A : Type} {sequence : Sequence S F A} {context : Context S}
    {history : History S} {ok : Bool}
    (inner : FrameHistory sequence context (frame.depth + 1) history) :
    Extends frame (.entered (frame.depth + 1) :: history ++ [.exited (frame.depth + 1) ok]) []
      frame :=
  ⟨.nested inner, rfl, rfl, rfl⟩

theorem register (frame : Frame S E) (finalizer : Sequence S E Unit) :
    Extends frame [.registered frame.depth finalizer] [finalizer] (frame.register finalizer) :=
  ⟨.registered finalizer, rfl, rfl, rfl⟩

end Extends

def finalizerDiscipline (S : Signature) : RunInvariant S where
  Within frame _ history out := ∃ registered, Extends frame history registered out.frame
  Nested sequence frame _ history _ := ∃ inner ok,
    FrameHistory sequence frame.context frame.depth inner ∧
      history = .entered frame.depth :: inner ++ [.exited frame.depth ok]
  Driven sequence frame _ history _ := FrameHistory sequence frame.context frame.depth history
  Drained _ frame _ history _ :=
    DrainHistory frame.context frame.depth frame.finalizers history
  value frame _ _ := ⟨[], .refl frame⟩
  acted h := h
  followed := by
    rintro _ _ _ _ _ _ _ _ _ _ _ ⟨_, first⟩ ⟨_, second⟩
    exact ⟨_, first.trans second⟩
  interrupted _ h := h
  recovered := by
    rintro _ _ _ _ frame' _ _ _ _ error _ ⟨_, first⟩ ⟨_, second⟩
    have handed : Extends frame' [.recovered frame'.depth ⟨error⟩] [] frame' := .plain frame' rfl
    exact ⟨_, first.trans (handed.trans second)⟩
  registered finalizer := by
    rintro ⟨_, first⟩
    exact ⟨_, first.trans (.register _ finalizer)⟩
  resolved frame _ _ := ⟨_, .plain frame rfl⟩
  unresolved frame _ _ := ⟨_, .plain frame rfl⟩
  failed frame _ _ := ⟨_, .plain frame rfl⟩
  detached frame _ := ⟨_, .plain frame rfl⟩
  nested := by
    rintro _ _ _ _ _ _ _ _ ⟨inner, ok, frame, rfl⟩
    exact ⟨[], .nested frame, rfl, rfl, rfl⟩
  attempted := by
    rintro _ _ _ _ frame _ _ _ ⟨inner, ok, nested, rfl⟩
    exact ⟨_, (Extends.nested frame nested).trans (.plain frame rfl)⟩
  bracketed h := ⟨_, _, h, rfl⟩
  driven := by
    rintro _ _ _ _ _ _ _ _ _ _ ⟨registered, body⟩ drain
    rw [body.context, body.depth, body.finalizers, List.append_nil] at drain
    exact .intro body.body drain
  drained := by
    intro _ _ _ _ _ none
    rw [none]
    exact .empty
  finalized := by
    intro _ _ _ _ _ _ _ _ _ _ _ newest driven drain
    rw [newest]
    exact .finalizer driven _ drain

/-- In every frame of a run the finalizers registered by the body run after the body has
settled, each once and the last one registered first, each as a whole frame one level deeper
under the frame's own context; only then does the frame close. -/
theorem finalizers_run_in_reverse_order {interpreter : Interpreter S}
    {sequence : Sequence S E A} {context : Context S} {world left : S.World}
    {report : RunReport E A}
    (completes : interpreter.Completes sequence context world report left) :
    (∃! history, interpreter.Records sequence context world history report left) ∧
    ∀ history, interpreter.Records sequence context world history report left →
      FrameHistory sequence context 0 history ∧
      ∀ {F B : Type} {inner : Sequence S F B} {own : Context S} {depth : Nat}
        {past future : History S}, history = past ++ .opened inner own depth :: future →
        ∃ registered body drain rest,
          future = body ++ .settled depth :: drain ++ .closed depth :: rest ∧
          BodyHistory depth registered body ∧
          DrainHistory (E := F) own depth registered.reverse drain := by
  refine ⟨completes.existsUnique_records, ?_⟩
  rintro history ⟨out, run, rfl, rfl⟩
  have frame : FrameHistory sequence context 0 history := (finalizerDiscipline S).of_runs run
  refine ⟨frame, ?_⟩
  intro F B inner own depth past future opened
  obtain ⟨block, rest, inside, hsplit⟩ := frame.framed opened
  cases inside with
  | @intro _ _ _ _ _ registered before after body drain =>
      refine ⟨registered, before, after, rest, ?_, body, drain⟩
      simpa using (List.cons.inj hsplit).2

def layeredCleanup : Sequence Sample.signature String Nat :=
  ((Sequence.fail "body").ensuring (Sample.note "first")).ensuring
    ((Sample.note "second").ensuring (Sample.note "third"))

theorem finalizers_run_in_reverse_order_layered : ∃ report,
    Sample.interpreter.Completes layeredCleanup .empty [] report ["second", "third", "first"] ∧
    report.exit = .ok (.err "body") ∧
    ∃ history, Sample.interpreter.Records layeredCleanup .empty [] history report
        ["second", "third", "first"] ∧
      FrameHistory layeredCleanup .empty 0 history := by
  have completes : Sample.interpreter.Completes layeredCleanup .empty [] _
    ["second", "third", "first"] := ⟨8, rfl⟩
  obtain ⟨⟨history, records, _⟩, disciplined⟩ := finalizers_run_in_reverse_order completes
  exact ⟨_, completes, rfl, history, records, (disciplined history records).1⟩

end Sequencer
