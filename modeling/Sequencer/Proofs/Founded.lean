import Sequencer.Proofs.BigStep
import Sequencer.Sequence.Combinators

/-!
# Founded sequences

A sequence is founded when it is built up from parts that are, those that its continuations, its
recoveries and its routines go on with included.  All combinators build founded sequences from
founded ones.  Only procedures that call each other for ever keep a sequence from it.
-/

namespace Sequencer

variable {S : Signature} {E F A B : Type} {procedures : Procedures S}

/-- The smallest class of work that is made of such work only. -/
inductive Founded {S : Signature} (procedures : Procedures S) :
    {E A : Type} → Task S E A → Prop where
  | succeed {E A : Type} (value : A) :
      Founded procedures (.evaluate (.succeed value : Sequence S E A))
  | perform {E A : Type} {step : Step S E A} (handled : Founded procedures (.handle step)) :
      Founded procedures (.evaluate (.perform step))
  | effect {E A B : Type} {act : S.World → S.World × B} {next : B → Sequence S E A}
      (after : ∀ answer, Founded procedures (.evaluate (next answer))) :
      Founded procedures (.evaluate (.effect act next))
  | call {E A : Type} {proc : S.Proc E A}
      (body : Founded procedures (.evaluate (procedures.body proc))) :
      Founded procedures (.evaluate (.call proc))
  | andThen {E A B : Type} {inner : Sequence S E B} {next : B → Sequence S E A}
      (first : Founded procedures (.evaluate inner))
      (second : ∀ value, Founded procedures (.evaluate (next value))) :
      Founded procedures (.evaluate (.andThen inner next))
  | fold {E A B : Type} {inner : Sequence S E B} {next : B → Sequence S E A}
      {recover : E → Sequence S E A} (first : Founded procedures (.evaluate inner))
      (second : ∀ value, Founded procedures (.evaluate (next value)))
      (recovery : ∀ error, Founded procedures (.evaluate (recover error))) :
      Founded procedures (.evaluate (.fold inner next recover))
  | ensuring {E A : Type} {inner : Sequence S E A} {finalizer : Sequence S E Unit}
      (first : Founded procedures (.evaluate inner))
      (last : Founded procedures (.evaluate finalizer)) :
      Founded procedures (.evaluate (.ensuring inner finalizer))
  | routine {E A : Type} {body : Routine S E A} (played : Founded procedures (.play body)) :
      Founded procedures (.evaluate (.routine body))
  | request {E : Type} {shape : S.Shape} (key : Key S shape) :
      Founded procedures (.handle (.request key : Step S E _))
  | fail {E A : Type} (error : E) : Founded procedures (.handle (.fail error : Step S E A))
  | nested {E A : Type} {body : Sequence S E A} (layer : Layer S)
      (inner : Founded procedures (.evaluate body)) :
      Founded procedures (.handle (.nested layer body))
  | finalize {E : Type} {finalizer : Sequence S E Unit}
      (last : Founded procedures (.evaluate finalizer)) :
      Founded procedures (.handle (.finalize finalizer))
  | done {E A : Type} (value : A) : Founded procedures (.play (.done value : Routine S E A))
  | abort {E A : Type} : Founded procedures (.play (.abort : Routine S E A))
  | act {E A B : Type} {act : S.World → S.World × B} {next : B → Routine S E A}
      (after : ∀ answer, Founded procedures (.play (next answer))) :
      Founded procedures (.play (.effect act next))
  | performed {E A B : Type} {step : Step S E B} {next : Option B → Routine S E A}
      (first : Founded procedures (.handle step))
      (after : ∀ answer, Founded procedures (.play (next answer))) :
      Founded procedures (.play (.perform step next))
  | bound {E A B : Type} {inner : Sequence S E B} {next : Option B → Routine S E A}
      (first : Founded procedures (.evaluate inner))
      (after : ∀ answer, Founded procedures (.play (next answer))) :
      Founded procedures (.play (.bind inner next))
  | attempted {E F A B : Type} {inner : Sequence S F B}
      {next : Option (Outcome F B) → Routine S E A}
      (first : Founded procedures (.evaluate inner))
      (after : ∀ answer, Founded procedures (.play (next answer))) :
      Founded procedures (.play (.attempt inner next))
  | depth {E A : Type} {next : Nat → Routine S E A}
      (after : ∀ answer, Founded procedures (.play (next answer))) :
      Founded procedures (.play (.depth next))
  | context {E A : Type} {next : Context S → Routine S E A}
      (after : ∀ answer, Founded procedures (.play (next answer))) :
      Founded procedures (.play (.context next))

/-! ## The combinators -/

abbrev Sequence.IsFounded (procedures : Procedures S) (sequence : Sequence S E A) : Prop :=
  Founded procedures (.evaluate sequence)

namespace Founded

variable {sequence : Sequence S E A}

theorem failing (error : E) : (Sequence.fail error : Sequence S E A).IsFounded procedures :=
  .perform (.fail error)

theorem service {shape : S.Shape} (key : Key S shape) :
    (Sequence.service key : Sequence S E _).IsFounded procedures :=
  .perform (.request key)

theorem sync (act : S.World → S.World × A) :
    (Sequence.sync act : Sequence S E A).IsFounded procedures :=
  .effect fun value => .succeed value

theorem trySync (act : S.World → S.World × Except E A) :
    (Sequence.trySync act : Sequence S E A).IsFounded procedures := by
  refine .effect fun answer => ?_
  cases answer with
  | ok value => exact .succeed value
  | error error => exact failing error

theorem suspend {build : Unit → Sequence S E A} (built : (build ()).IsFounded procedures) :
    (Sequence.suspend build).IsFounded procedures :=
  .effect fun _ => built

theorem map (founded : sequence.IsFounded procedures) (f : A → B) :
    (sequence.map f).IsFounded procedures :=
  .andThen founded fun value => .succeed (f value)

theorem orElse (founded : sequence.IsFounded procedures) {recover : E → Sequence S E A}
    (recovery : ∀ error, (recover error).IsFounded procedures) :
    (sequence.orElse recover).IsFounded procedures :=
  .fold founded (fun value => .succeed value) recovery

theorem provideLayer (founded : sequence.IsFounded procedures) (layer : Layer S) :
    (sequence.provideLayer layer).IsFounded procedures :=
  .perform (.nested layer founded)

theorem either (founded : sequence.IsFounded procedures) :
    (sequence.either : Sequence S F _).IsFounded procedures := by
  refine .routine (.attempted founded fun answer => ?_)
  cases answer with
  | none => exact .abort
  | some outcome => exact .done outcome

theorem mapErr (founded : sequence.IsFounded procedures) (f : E → F) :
    (sequence.mapErr f).IsFounded procedures := by
  refine .routine (.attempted founded fun answer => ?_)
  rcases answer with _ | (value | error)
  · exact .abort
  · exact .done value
  · exact .performed (.fail (f error)) fun _ => .abort

theorem collect {members : List (Sequence S E A)}
    (founded : ∀ member ∈ members, member.IsFounded procedures) (values : List A) :
    Founded procedures (.play (.collect members values)) := by
  induction members generalizing values with
  | nil => exact .done values.reverse
  | cons member rest ih =>
      obtain ⟨first, others⟩ := List.forall_mem_cons.mp founded
      refine .bound first fun answer => ?_
      cases answer with
      | none => exact .abort
      | some value => exact ih others (value :: values)

theorem all {members : List (Sequence S E A)}
    (founded : ∀ member ∈ members, member.IsFounded procedures) :
    (Sequence.all members).IsFounded procedures := by
  cases members with
  | nil => exact .succeed []
  | cons member rest => exact .routine (collect founded [])

end Founded

end Sequencer
