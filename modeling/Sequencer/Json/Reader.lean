import Sequencer.Json.Token

/-!
# Reading JSON

`read` accepts exactly one value, with blanks around it.  Tokens are taken one at a time by
a machine whose stack holds the arrays and objects that are still open, so a value may be
nested to any depth.
-/

namespace Sequencer.Json

/-- An array or object waiting for its next value, parts newest first. -/
inductive Pending where
  | item (items : List Json)
  | field (fields : List (Option String × Json)) (name : Option String)

inductive Reader where
  | wantValue (stack : List Pending)
  | firstItem (stack : List Pending)
  | afterItem (items : List Json) (stack : List Pending)
  | firstName (stack : List Pending)
  | wantName (fields : List (Option String × Json)) (stack : List Pending)
  | wantColon (fields : List (Option String × Json)) (name : Option String) (stack : List Pending)
  | afterField (fields : List (Option String × Json)) (stack : List Pending)
  | finished (value : Json)

def closeFields (fields : List (Option String × Json)) : Json :=
  match fields.reverse.mapM fun (name, value) => name.map (·, value) with
  | some fields => .obj fields
  | none => .unreadable

namespace Reader

def put (value : Json) : List Pending → Reader
  | [] => .finished value
  | .item items :: stack => .afterItem (value :: items) stack
  | .field fields name :: stack => .afterField ((name, value) :: fields) stack

def begin (stack : List Pending) : Token → Option Reader
  | .literal value => some (put value stack)
  | .text (some text) => some (put (.str text) stack)
  | .text none => some (put .unreadable stack)
  | .openArray => some (.firstItem stack)
  | .openObject => some (.firstName stack)
  | _ => none

def feed : Reader → Token → Option Reader
  | .wantValue stack, token => begin stack token
  | .firstItem stack, .closeArray => some (put (.arr []) stack)
  | .firstItem stack, token => begin (.item [] :: stack) token
  | .afterItem items stack, .comma => some (.wantValue (.item items :: stack))
  | .afterItem items stack, .closeArray => some (put (.arr items.reverse) stack)
  | .firstName stack, .closeObject => some (put (.obj []) stack)
  | .firstName stack, .text name => some (.wantColon [] name stack)
  | .wantName fields stack, .text name => some (.wantColon fields name stack)
  | .wantColon fields name stack, .colon => some (.wantValue (.field fields name :: stack))
  | .afterField fields stack, .comma => some (.wantName fields stack)
  | .afterField fields stack, .closeObject => some (put (closeFields fields) stack)
  | _, _ => none

def finish : Reader → Option Json
  | .finished value => some value
  | _ => none

end Reader

def ofTokens? (tokens : List Token) : Option Json :=
  (tokens.foldlM Reader.feed (.wantValue [])).bind Reader.finish

def ofChars? (text : List Char) : Option Json :=
  (Token.scan text).bind ofTokens?

def read (text : String) : Option Json :=
  ofChars? text.toList

end Sequencer.Json
