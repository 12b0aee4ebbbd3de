/-!
# JSON values

A value as a text spells it: an object keeps its fields in the order written, repeated
names included.  A number is an integer when it is written as one.  Some texts are well
formed and yet stand for nothing, such as a string with half of a surrogate pair or a
number beyond every range; they are `unreadable`, and only a reader that skips them
accepts them.
-/

namespace Sequencer

inductive Json where
  | null
  | bool (value : Bool)
  | int (value : Int)
  /-- A number with a fraction or an exponent, or minus zero, as written. -/
  | decimal (text : String)
  | str (text : String)
  | arr (items : List Json)
  | obj (fields : List (String × Json))
  | unreadable
  deriving BEq, Inhabited

namespace Json

def nat (n : Nat) : Json := .int n

def field? (name : String) : Json → Option Json
  | .obj fields => (fields.find? fun field => field.1 == name).map Prod.snd
  | _ => none

mutual

def depth : Json → Nat
  | .arr items => itemsDepth items + 1
  | .obj fields => fieldsDepth fields + 1
  | _ => 0

def itemsDepth : List Json → Nat
  | [] => 0
  | item :: rest => max item.depth (itemsDepth rest)

def fieldsDepth : List (String × Json) → Nat
  | [] => 0
  | (_, value) :: rest => max value.depth (fieldsDepth rest)

end

mutual

def isReadable : Json → Bool
  | .unreadable => false
  | .arr items => itemsReadable items
  | .obj fields => fieldsReadable fields
  | _ => true

def itemsReadable : List Json → Bool
  | [] => true
  | item :: rest => item.isReadable && itemsReadable rest

def fieldsReadable : List (String × Json) → Bool
  | [] => true
  | (_, value) :: rest => value.isReadable && fieldsReadable rest

end

end Json

end Sequencer
