/-!
# Outcomes

The two ways a finished computation answers: with a value or with a domain failure.
-/

namespace Sequencer

inductive Outcome (E A : Type) where
  | ok (value : A)
  | err (error : E)
  deriving DecidableEq

namespace Outcome

variable {E F A B R : Type}

def map (f : A → B) : Outcome E A → Outcome E B
  | ok value => ok (f value)
  | err error => err error

def mapErr (f : E → F) : Outcome E A → Outcome F A
  | ok value => ok value
  | err error => err (f error)

def fold (onOk : A → R) (onErr : E → R) : Outcome E A → R
  | ok value => onOk value
  | err error => onErr error

def isOk : Outcome E A → Bool
  | ok _ => true
  | err _ => false

def isErr (outcome : Outcome E A) : Bool :=
  !outcome.isOk

def ok? : Outcome E A → Option A
  | ok value => some value
  | err _ => none

def err? : Outcome E A → Option E
  | ok _ => none
  | err error => some error

def toExcept : Outcome E A → Except E A
  | ok value => .ok value
  | err error => .error error

def ofExcept : Except E A → Outcome E A
  | .ok value => ok value
  | .error error => err error

@[simp] theorem ofExcept_toExcept (outcome : Outcome E A) : ofExcept outcome.toExcept = outcome := by
  cases outcome <;> rfl

@[simp] theorem toExcept_ofExcept (result : Except E A) : (ofExcept result).toExcept = result := by
  cases result <;> rfl

end Outcome

end Sequencer
