import Sequencer.Proofs.Defects

/-!
# What a frame settles to

A frame folds the results of its finalizers into its own, one after another, and the standing
result may change more than once.  What it comes to in the end can be read off all results
together: the first defect among them, else the first failure, else the value of the body.
-/

namespace Sequencer

variable {S : Signature} {E A : Type}

def Interrupt.error? : Interrupt E → Option E
  | .failed error => some error
  | .defect _ => none

namespace Settled

def interrupt? : Settled E A → Option (Interrupt E)
  | .ok _ => none
  | .error interrupt => some interrupt

def interrupts (body : Settled E A) (results : List (Settled E Unit)) : List (Interrupt E) :=
  body.interrupt?.toList ++ results.filterMap interrupt?

/-- The first defect among all results, else the first failure, else the value of the body. -/
def concluded (body : Settled E A) (results : List (Settled E Unit)) : Settled E A :=
  match (body.interrupts results).findSome? Interrupt.defect?,
      (body.interrupts results).findSome? Interrupt.error? with
  | some defect, _ => .error (.defect defect)
  | none, some error => .error (.failed error)
  | none, none => body

/-- The failure that is lost when a finalizer comes to `result`: its own one, if the frame was
interrupted before, or the failure of the frame, if a defect takes its place. -/
def lost (standing : Settled E A) (result : Settled E Unit) : List E :=
  match standing.interrupt?, result.interrupt? with
  | some _, some (.failed error) => [error]
  | some (.failed earlier), some (.defect _) => [earlier]
  | _, _ => []

def clashes (standing : Settled E A) (result : Settled E Unit) : Bool :=
  standing.interrupt?.isSome && result.interrupt?.isSome

theorem interrupts_concat (body : Settled E A) (results : List (Settled E Unit))
    (result : Settled E Unit) :
    body.interrupts (results ++ [result]) =
      body.interrupts results ++ result.interrupt?.toList := by
  rw [interrupts, interrupts, List.filterMap_append, List.append_assoc]
  cases h : result.interrupt? <;> simp [h]

theorem concluded_nil (body : Settled E A) : body.concluded [] = body := by
  rcases body with (error | defect) | value <;> rfl

theorem isOk_of_uninterrupted {body : Settled E A} {results : List (Settled E Unit)}
    (noDefect : (body.interrupts results).findSome? Interrupt.defect? = none)
    (noError : (body.interrupts results).findSome? Interrupt.error? = none) :
    ∃ value, body = .ok value := by
  rcases body with (error | defect) | value
  · simp [interrupts, interrupt?, Interrupt.error?] at noError
  · simp [interrupts, interrupt?, Interrupt.defect?] at noDefect
  · exact ⟨value, rfl⟩

theorem concluded_concat (body : Settled E A) (results : List (Settled E Unit))
    (result : Settled E Unit) :
    body.concluded (results ++ [result]) = ((body.concluded results).absorb result).1 := by
  simp only [concluded, interrupts_concat, List.findSome?_append]
  cases noDefect : (body.interrupts results).findSome? Interrupt.defect? with
  | some defect => rcases result with (error | defect') | value <;> rfl
  | none =>
      cases noError : (body.interrupts results).findSome? Interrupt.error? with
      | some error => rcases result with (error' | defect) | value <;> rfl
      | none =>
          obtain ⟨value, rfl⟩ := isOk_of_uninterrupted noDefect noError
          rcases result with (error | defect) | value' <;> rfl

end Settled

theorem Machine.discard_absorb (standing : Settled E A) (result : Settled E Unit) (depth : Nat)
    (suppressed : Array E) (state : RunState S) :
    Machine.discard (standing.absorb result).2 depth suppressed state =
      (suppressed ++ (standing.lost result).toArray,
        if standing.clashes result then state.suppressed depth else state) := by
  rcases standing with (_ | _) | _ <;> rcases result with (_ | _) | _ <;>
    simp [Settled.absorb, Machine.discard, Settled.lost, Settled.clashes, Settled.interrupt?]

/-- Finalizers of a frame that have run, in this order, with their results, and the suppressed
failures and the state they leave.  Each is driven in a frame of its own from the state that the
one before left; its frame's suppressed failures are listed, then the failure it makes the frame
lose.  A defect behind an earlier defect is counted as suppressed and not listed. -/
inductive Cleanup (level : Level S) (frame : Frame S E) (body : Settled E A) (state : RunState S) :
    List (Sequence S E Unit) → List (Settled E Unit) → Array E → RunState S → Prop where
  | none : Cleanup level frame body state [] [] frame.suppressed state
  | next {ran : List (Sequence S E Unit)} {results : List (Settled E Unit)}
      {suppressed : Array E} {before : RunState S} {finalizer : Sequence S E Unit}
      {driven : Driven S E Unit}
      (earlier : Cleanup level frame body state ran results suppressed before)
      (drives : level.drive finalizer frame.context (frame.depth + 1)
        (before.finalizerRan frame.depth) = .ok driven) :
      Cleanup level frame body state (ran ++ [finalizer]) (results ++ [driven.settled])
        (suppressed ++ driven.suppressed ++
          ((body.concluded results).lost driven.settled).toArray)
        (if (body.concluded results).clashes driven.settled then
          driven.state.suppressed frame.depth else driven.state)

namespace Cleanup

variable {level : Level S} {frame : Frame S E} {body : Settled E A} {state before : RunState S}
  {ran : List (Sequence S E Unit)} {results : List (Settled E Unit)} {suppressed : Array E}

theorem drain_append (cleanup : Cleanup level frame body state ran results suppressed before)
    (waiting : List (Sequence S E Unit)) :
    Machine.drain level frame.context frame.depth (ran ++ waiting) body frame.suppressed state =
      Machine.drain level frame.context frame.depth waiting (body.concluded results) suppressed
        before := by
  induction cleanup generalizing waiting with
  | none => rw [Settled.concluded_nil, List.nil_append]
  | next earlier drives ih =>
      rw [List.append_assoc, List.singleton_append, ih]
      simp only [Machine.drain, drives, Machine.discard_absorb, Settled.concluded_concat]

theorem of_drain (cleanup : Cleanup level frame body state ran results suppressed before)
    {waiting : List (Sequence S E Unit)} {driven : Driven S E A}
    (drained : Machine.drain level frame.context frame.depth waiting (body.concluded results)
      suppressed before = .ok driven) :
    ∃ later, Cleanup level frame body state (ran ++ waiting) (results ++ later) driven.suppressed
        driven.state ∧
      driven.settled = body.concluded (results ++ later) := by
  induction waiting generalizing ran results suppressed before with
  | nil =>
      simp only [Machine.drain, Except.ok.injEq] at drained
      subst drained
      exact ⟨[], by simpa using cleanup, by simp⟩
  | cons finalizer older ih =>
      simp only [Machine.drain] at drained
      cases drives : level.drive finalizer frame.context (frame.depth + 1)
          (before.finalizerRan frame.depth) with
      | error stop => simp [drives] at drained
      | ok result =>
          simp only [drives, Machine.discard_absorb, ← Settled.concluded_concat] at drained
          obtain ⟨later, rest, settled⟩ := ih (cleanup.next drives) drained
          refine ⟨result.settled :: later, ?_, ?_⟩
          · simpa using rest
          · simpa using settled

end Cleanup

theorem Machine.drain_iff_cleanup {level : Level S} {frame : Frame S E} {body : Settled E A}
    {state : RunState S} {driven : Driven S E A} :
    Machine.drain level frame.context frame.depth frame.finalizers body frame.suppressed state =
        .ok driven ↔
      ∃ results, Cleanup level frame body state frame.finalizers results driven.suppressed
          driven.state ∧
        driven.settled = body.concluded results := by
  constructor
  · intro drained
    rw [← Settled.concluded_nil body] at drained
    simpa using Cleanup.none.of_drain drained
  · rintro ⟨results, cleanup, settled⟩
    have drained := cleanup.drain_append []
    rw [List.append_nil] at drained
    rw [drained, ← settled]
    rfl

/-- A frame settles to the first defect among the results of its body and its finalizers, else to
the first failure among them, else to the value of its body; and its list of suppressed failures
grows with every finalizer as `Cleanup` says. -/
theorem frame_settles_by_priority (procedures : Procedures S) (level : Level S) (fuel : Nat)
    (sequence : Sequence S E A) (context : Context S) (depth : Nat) (state : RunState S)
    (driven : Driven S E A) :
    Machine.drive procedures level fuel sequence context depth state = .ok driven ↔
      ∃ (body : Evaluated S E A) (results : List (Settled E Unit)),
        Machine.eval procedures level fuel sequence { context, depth } (state.reach depth) =
          .ok body ∧
        Cleanup level body.frame body.settled body.state body.frame.finalizers results
          driven.suppressed driven.state ∧
        driven.settled = body.settled.concluded results := by
  unfold Machine.drive
  cases Machine.eval procedures level fuel sequence { context, depth } (state.reach depth) with
  | error stop => simp
  | ok body =>
      simp only [Except.ok.injEq, exists_eq_left', exists_and_left]
      exact Machine.drain_iff_cleanup

def demotedFailure : Sequence Sample.signature String Nat :=
  (((Sequence.fail "body").ensuring (Sequence.fail "oldest")).ensuring
    ((Sequence.service (Sample.key 0 "limit")).map fun _ => ())).ensuring (Sequence.fail "newest")

-- The failure of the body stands until the defect and is listed there, behind a finalizer's.
example : (Sample.interpreter.run 8 demotedFailure .empty []).map (fun ran =>
    (ran.1.exit, ran.1.suppressed)) =
      .ok (.error (.unresolvedCapability "limit" 0), #["newest", "body", "oldest"]) := rfl

end Sequencer
