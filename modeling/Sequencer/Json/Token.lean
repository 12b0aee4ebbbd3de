import Sequencer.Json.Basic
import Sequencer.Json.Number

/-!
# JSON tokens

`Token.scan` cuts a text into tokens, one character at a time.  The scanner is a machine
that stands between tokens, in a word, in a number or in a string; a word or a number ends
before the first character that cannot belong to it.
-/

namespace Sequencer.Json

inductive Token where
  | openObject
  | closeObject
  | openArray
  | closeArray
  | colon
  | comma
  | literal (value : Json)
  /-- A string, or `none` when its escapes spell no text. -/
  | text (value : Option String)

structure Spelling where
  chars : List Char := []
  /-- The first half of a surrogate pair, waiting for the second. -/
  half : Option Nat := none
  broken : Bool := false

namespace Spelling

def push (read : Spelling) (c : Char) : Spelling :=
  { chars := c :: read.chars, half := none, broken := read.broken || read.half.isSome }

def pushUnit (read : Spelling) (unit : Nat) : Spelling :=
  if 0xD800 ≤ unit ∧ unit < 0xDC00 then
    { read with half := some unit, broken := read.broken || read.half.isSome }
  else if 0xDC00 ≤ unit ∧ unit < 0xE000 then
    match read.half with
    | some high =>
        { read with
          chars := Char.ofNat (0x10000 + (high - 0xD800) * 0x400 + (unit - 0xDC00)) :: read.chars
          half := none }
    | none => { read with broken := true }
  else
    read.push (Char.ofNat unit)

def finish (read : Spelling) : Option String :=
  if read.broken || read.half.isSome then none else some (String.ofList read.chars.reverse)

end Spelling

inductive Mode where
  | between
  | word (letters : List Char)
  | number (chars : List Char)
  | string (read : Spelling)
  | escape (read : Spelling)
  | unit (read : Spelling) (value count : Nat)

structure Scanner where
  tokens : List Token := []
  mode : Mode := .between

def isBlank (c : Char) : Bool :=
  c == ' ' || c == '\t' || c == '\n' || c == '\r'

def isNumberChar (c : Char) : Bool :=
  c.isDigit || c == '-' || c == '+' || c == '.' || c == 'e' || c == 'E'

def hexValue? (c : Char) : Option Nat :=
  if '0' ≤ c ∧ c ≤ '9' then some (c.toNat - '0'.toNat)
  else if 'a' ≤ c ∧ c ≤ 'f' then some (c.toNat - 'a'.toNat + 10)
  else if 'A' ≤ c ∧ c ≤ 'F' then some (c.toNat - 'A'.toNat + 10)
  else none

def literal? (letters : List Char) : Option Json :=
  if letters = ['n', 'u', 'l', 'l'] then some .null
  else if letters = ['t', 'r', 'u', 'e'] then some (.bool true)
  else if letters = ['f', 'a', 'l', 's', 'e'] then some (.bool false)
  else none

def shortEscape? (c : Char) : Option Char :=
  match c with
  | '"' => some '"'
  | '\\' => some '\\'
  | '/' => some '/'
  | 'b' => some '\x08'
  | 'f' => some '\x0c'
  | 'n' => some '\n'
  | 'r' => some '\r'
  | 't' => some '\t'
  | _ => none

namespace Scanner

def start (tokens : List Token) (c : Char) : Option Scanner :=
  if isBlank c then some ⟨tokens, .between⟩
  else if c = '\x7b' then some ⟨.openObject :: tokens, .between⟩
  else if c = '\x7d' then some ⟨.closeObject :: tokens, .between⟩
  else if c = '[' then some ⟨.openArray :: tokens, .between⟩
  else if c = ']' then some ⟨.closeArray :: tokens, .between⟩
  else if c = ':' then some ⟨.colon :: tokens, .between⟩
  else if c = ',' then some ⟨.comma :: tokens, .between⟩
  else if c = '"' then some ⟨tokens, .string {}⟩
  else if c = '-' ∨ c.isDigit then some ⟨tokens, .number [c]⟩
  else if c.isLower then some ⟨tokens, .word [c]⟩
  else none

def close (scanner : Scanner) : Option (List Token) :=
  match scanner.mode with
  | .between => some scanner.tokens
  | .word letters => (literal? letters.reverse).map (.literal · :: scanner.tokens)
  | .number chars => (number? chars.reverse).map (.literal · :: scanner.tokens)
  | _ => none

def feed (scanner : Scanner) (c : Char) : Option Scanner :=
  match scanner.mode with
  | .between => start scanner.tokens c
  | .word letters =>
      if c.isLower then some { scanner with mode := .word (c :: letters) }
      else scanner.close.bind (start · c)
  | .number chars =>
      if isNumberChar c then some { scanner with mode := .number (c :: chars) }
      else scanner.close.bind (start · c)
  | .string read =>
      if c = '"' then some ⟨.text read.finish :: scanner.tokens, .between⟩
      else if c = '\\' then some { scanner with mode := .escape read }
      else if c.toNat < 0x20 then none
      else some { scanner with mode := .string (read.push c) }
  | .escape read =>
      if c = 'u' then some { scanner with mode := .unit read 0 0 }
      else (shortEscape? c).map fun plain => { scanner with mode := .string (read.push plain) }
  | .unit read value count =>
      (hexValue? c).map fun digit =>
        if count < 3 then { scanner with mode := .unit read (value * 16 + digit) (count + 1) }
        else { scanner with mode := .string (read.pushUnit (value * 16 + digit)) }

end Scanner

def Token.scan (text : List Char) : Option (List Token) :=
  ((text.foldlM Scanner.feed {}).bind Scanner.close).map List.reverse

end Sequencer.Json
