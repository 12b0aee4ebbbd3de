import Sequencer.Context
import Sequencer.Outcome

/-!
# Sequences, steps and routines

A `Sequence S E A` is a recipe that gives an `A` or fails with an `E`.  It can be run any
number of times; running it changes nothing in it.  A `Step` is a point where it suspends
and asks the engine for something.  A `Routine` is the other way to write one: a script
that talks to the engine through a handle.  A call on the handle comes back with `some`
answer, or with `none` once the handle has aborted.  What the routine does after that is
its own business, but it can no longer change how it settles.
-/

namespace Sequencer

mutual

inductive Step (S : Signature) : Type → Type → Type 1 where
  | request {E : Type} {shape : S.Shape} (key : Key S shape) : Step S E (S.El shape)
  | fail {E A : Type} (error : E) : Step S E A
  /-- Run in a frame of its own, whose context is the frame's joined by `layer`. -/
  | nested {E A : Type} (layer : Layer S) (body : Sequence S E A) : Step S E A
  | finalize {E : Type} (finalizer : Sequence S E Unit) : Step S E Unit

inductive Sequence (S : Signature) : Type → Type → Type 1 where
  | succeed {E A : Type} (value : A) : Sequence S E A
  | perform {E A : Type} (step : Step S E A) : Sequence S E A
  | effect {E A B : Type} (act : S.World → S.World × B) (next : B → Sequence S E A) :
      Sequence S E A
  | call {E A : Type} (proc : S.Proc E A) : Sequence S E A
  | andThen {E A B : Type} (inner : Sequence S E B) (next : B → Sequence S E A) : Sequence S E A
  /-- Go on with `next` after a value of `inner`, with `recover` after a failure of `inner`. -/
  | fold {E A B : Type} (inner : Sequence S E B) (next : B → Sequence S E A)
      (recover : E → Sequence S E A) : Sequence S E A
  /-- Register `finalizer` on the frame when `inner` settles, however it settles. -/
  | ensuring {E A : Type} (inner : Sequence S E A) (finalizer : Sequence S E Unit) :
      Sequence S E A
  | routine {E A : Type} (body : Routine S E A) : Sequence S E A

inductive Routine (S : Signature) : Type → Type → Type 1 where
  | done {E A : Type} (value : A) : Routine S E A
  | abort {E A : Type} : Routine S E A
  | effect {E A B : Type} (act : S.World → S.World × B) (next : B → Routine S E A) :
      Routine S E A
  | perform {E A B : Type} (step : Step S E B) (next : Option B → Routine S E A) : Routine S E A
  | bind {E A B : Type} (inner : Sequence S E B) (next : Option B → Routine S E A) :
      Routine S E A
  /-- Run a sequence in a nested frame and be told its outcome. -/
  | attempt {E A F B : Type} (inner : Sequence S F B)
      (next : Option (Outcome F B) → Routine S E A) : Routine S E A
  | depth {E A : Type} (next : Nat → Routine S E A) : Routine S E A
  | context {E A : Type} (next : Context S → Routine S E A) : Routine S E A

end

/-- The sequence each procedure stands for.  A body may call any procedure, its own too. -/
structure Procedures (S : Signature) where
  body : {E A : Type} → S.Proc E A → Sequence S E A

end Sequencer
