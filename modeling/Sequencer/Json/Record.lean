import Sequencer.Json.Basic
import Sequencer.SortedMap

/-!
# Records in JSON

A record is an object with the record's fields in any order, or an array of them in their
own order.  Fields the record does not have are skipped; one it has may not be given
twice.  An array may not be longer than the record, and may stop short only before fields
that have a default.
-/

namespace Sequencer.Json

inductive Absence where
  | never
  /-- From an object, but not from an array. -/
  | inObject
  | always
  deriving DecidableEq

structure Field where
  name : String
  absence : Absence := .never

def Field.ofObject? (given : List (String × Json)) (field : Field) : Option (Option Json) :=
  match given.filter fun entry => entry.1 == field.name with
  | [] => if field.absence = .never then none else some none
  | [entry] => some (some entry.2)
  | _ => none

def slotsOfItems? : List Field → List Json → Option (List (Option Json))
  | [], [] => some []
  | [], _ :: _ => none
  | field :: fields, [] =>
      if field.absence = .always then (slotsOfItems? fields []).map (none :: ·) else none
  | _ :: fields, item :: items => (slotsOfItems? fields items).map (some item :: ·)

/-- What a value gives for each field of a record, `none` for a field left to its default. -/
def slots? (fields : List Field) : Json → Option (List (Option Json))
  | .obj given => fields.mapM (Field.ofObject? given)
  | .arr items => slotsOfItems? fields items
  | _ => none

variable {A : Type}

def needed (decode : Json → Option A) (slot : Option Json) : Option A :=
  slot.bind decode

def orDefault (value : A) (decode : Json → Option A) : Option Json → Option A
  | none => some value
  | some json => decode json

/-- A value or `null`; a missing one is `null`. -/
def nullable (decode : Json → Option A) : Option Json → Option (Option A)
  | none => some none
  | some .null => some none
  | some json => (decode json).map some

def toBool? : Json → Option Bool
  | .bool value => some value
  | _ => none

def toText? : Json → Option String
  | .str text => some text
  | _ => none

def sizeLimit : Nat := Nat.pow 2 64

def toSize? : Json → Option Nat
  | .int value => if 0 ≤ value ∧ value < sizeLimit then some value.toNat else none
  | _ => none

def toList? (decode : Json → Option A) : Json → Option (List A)
  | .arr items => items.mapM decode
  | _ => none

/-- An object read as a map; of two fields of one name the later counts. -/
def toMap? (decode : Json → Option A) : Json → Option (SortedMap String A)
  | .obj fields =>
      (fields.mapM fun field => (decode field.2).map (field.1, ·)).map SortedMap.ofList
  | _ => none

/-- A bare name: a string, or an object of one field that is `null`. -/
def toName? : Json → Option String
  | .str name => some name
  | .obj [(name, .null)] => some name
  | _ => none

def ofList (encode : A → Json) (items : List A) : Json :=
  .arr (items.map encode)

def ofMap (encode : A → Json) (map : SortedMap String A) : Json :=
  .obj (map.entries.map fun entry => (entry.1, encode entry.2))

def ofOption (encode : A → Json) : Option A → Json
  | none => .null
  | some value => encode value

end Sequencer.Json
