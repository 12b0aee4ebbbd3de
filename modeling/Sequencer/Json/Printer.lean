import Sequencer.Json.Basic
import Sequencer.Text.Characters

/-!
# Writing JSON

`compact` writes a value without blanks.  `pretty` puts each item and each field on a line
of its own, two blanks deeper than what encloses it.  Strings are written with the short
escapes where there are any, other controls as `\u00xx`, and all else as it is.
-/

namespace Sequencer.Json

def escapeChar (c : Char) : List Char :=
  match c with
  | '"' => ['\\', '"']
  | '\\' => ['\\', '\\']
  | '\x08' => ['\\', 'b']
  | '\x0c' => ['\\', 'f']
  | '\n' => ['\\', 'n']
  | '\r' => ['\\', 'r']
  | '\t' => ['\\', 't']
  | c =>
      if c.toNat < 0x10 then ['\\', 'u', '0', '0', '0'] ++ Text.hexDigits c.toNat
      else if c.toNat < 0x20 then ['\\', 'u', '0', '0'] ++ Text.hexDigits c.toNat
      else [c]

def quoted (text : String) : List Char :=
  '"' :: (text.toList.flatMap escapeChar ++ ['"'])

def literalChars : Json → List Char
  | .bool true => "true".toList
  | .bool false => "false".toList
  | .int value => (toString value).toList
  | .decimal text => text.toList
  | .str text => quoted text
  | _ => "null".toList

mutual

def compactChars : Json → List Char
  | .arr items => '[' :: (compactItems items ++ [']'])
  | .obj fields => '\x7b' :: (compactFields fields ++ ['\x7d'])
  | value => literalChars value

def compactItems : List Json → List Char
  | [] => []
  | [item] => compactChars item
  | item :: rest => compactChars item ++ ',' :: compactItems rest

def compactFields : List (String × Json) → List Char
  | [] => []
  | [(name, value)] => quoted name ++ ':' :: compactChars value
  | (name, value) :: rest =>
      quoted name ++ ':' :: (compactChars value ++ ',' :: compactFields rest)

end

def compact (value : Json) : String :=
  String.ofList (compactChars value)

def newline (level : Nat) : List Char :=
  '\n' :: List.replicate (2 * level) ' '

mutual

def prettyChars (level : Nat) : Json → List Char
  | .arr [] => ['[', ']']
  | .arr items => '[' :: (prettyItems (level + 1) items ++ newline level ++ [']'])
  | .obj [] => ['\x7b', '\x7d']
  | .obj fields => '\x7b' :: (prettyFields (level + 1) fields ++ newline level ++ ['\x7d'])
  | value => literalChars value

def prettyItems (level : Nat) : List Json → List Char
  | [] => []
  | [item] => newline level ++ prettyChars level item
  | item :: rest => newline level ++ prettyChars level item ++ ',' :: prettyItems level rest

def prettyFields (level : Nat) : List (String × Json) → List Char
  | [] => []
  | [(name, value)] => newline level ++ quoted name ++ ':' :: ' ' :: prettyChars level value
  | (name, value) :: rest =>
      newline level ++ quoted name ++
        ':' :: ' ' :: (prettyChars level value ++ ',' :: prettyFields level rest)

end

def pretty (value : Json) : String :=
  String.ofList (prettyChars 0 value)

end Sequencer.Json
