import Sequencer.Text.Characters
import Sequencer.Toml.Scalar

/-!
# TOML strings and keys

A string stands between double quotes, with escapes, or between single quotes, as it is.
Three quotes open a string that may run over lines; a line end right after them is
dropped, and up to two quotes may stand before the three that close it.  A key is a bare
word or a string of one line, and several make a dotted key.

A key is written bare when it can be, and else, like every string, between double quotes with
escapes for quotes, backslashes and controls.
-/

namespace Sequencer.Toml

def isBlank (c : Char) : Bool :=
  c == ' ' || c == '\t'

def dropBlanks (chars : List Char) : List Char :=
  chars.dropWhile isBlank

def isPlain (c : Char) : Bool :=
  c == '\t' || (0x20 ≤ c.toNat && c.toNat != 0x7f)

def escape? (c : Char) : Option Char :=
  match c with
  | '"' => some '"'
  | '\\' => some '\\'
  | 'b' => some '\x08'
  | 'f' => some '\x0c'
  | 'n' => some '\n'
  | 'r' => some '\r'
  | 't' => some '\t'
  | _ => none

def escapeDigits? (c : Char) : Option Nat :=
  match c with
  | 'u' => some 4
  | 'U' => some 8
  | _ => none

def scalarValue? (n : Nat) : Option Char :=
  if n < 0xD800 ∨ (0xDFFF < n ∧ n < 0x110000) then some (Char.ofNat n) else none

abbrev Scanned := Option (List Char × List Char)

def Scanned.push (c : Char) (scanned : Scanned) : Scanned :=
  scanned.map fun (text, rest) => (c :: text, rest)

inductive BasicMode where
  | plain
  | escape
  | digits (left value : Nat)

def basicFrom : BasicMode → List Char → Scanned
  | _, [] => none
  | .plain, c :: rest =>
      if c = '"' then some ([], rest)
      else if c = '\\' then basicFrom .escape rest
      else if isPlain c then (basicFrom .plain rest).push c
      else none
  | .escape, c :: rest =>
      match escapeDigits? c with
      | some count => basicFrom (.digits count 0) rest
      | none =>
          match escape? c with
          | some plain => (basicFrom .plain rest).push plain
          | none => none
  | .digits left value, c :: rest =>
      match hexDigit? c with
      | none => none
      | some digit =>
          if left ≤ 1 then
            match scalarValue? (value * 16 + digit) with
            | some plain => (basicFrom .plain rest).push plain
            | none => none
          else basicFrom (.digits (left - 1) (value * 16 + digit)) rest

def literalFrom : List Char → Scanned
  | [] => none
  | c :: rest =>
      if c = '\'' then some ([], rest)
      else if isPlain c then (literalFrom rest).push c
      else none

inductive LinesMode where
  | quotes (count : Nat)
  | carriage
  | escape
  | digits (left value : Nat)
  /-- After a backslash and blanks, before the line end they must lead to. -/
  | lineEnd
  | dropping
  | droppingCarriage

/-- Put back the quotes of a run that turned out to be text. -/
def Scanned.pushQuotes (quote : Char) (count : Nat) (scanned : Scanned) : Scanned :=
  scanned.map fun (text, rest) => (List.replicate count quote ++ text, rest)

def basicLinesFrom : LinesMode → List Char → Scanned
  | .quotes count, [] => if 3 ≤ count then some (List.replicate (count - 3) '"', []) else none
  | _, [] => none
  | .quotes count, c :: rest =>
      if c = '"' then
        if count = 4 then some (['"', '"'], rest) else basicLinesFrom (.quotes (count + 1)) rest
      else if 3 ≤ count then some (List.replicate (count - 3) '"', c :: rest)
      else
        Scanned.pushQuotes '"' count
          (if c = '\n' then (basicLinesFrom (.quotes 0) rest).push '\n'
          else if c = '\r' then basicLinesFrom .carriage rest
          else if c = '\\' then basicLinesFrom .escape rest
          else if isPlain c then (basicLinesFrom (.quotes 0) rest).push c
          else none)
  | .carriage, c :: rest =>
      if c = '\n' then (basicLinesFrom (.quotes 0) rest).push '\n' else none
  | .escape, c :: rest =>
      match escapeDigits? c with
      | some count => basicLinesFrom (.digits count 0) rest
      | none =>
          match escape? c with
          | some plain => (basicLinesFrom (.quotes 0) rest).push plain
          | none =>
              if c = '\n' then basicLinesFrom .dropping rest
              else if c = '\r' then basicLinesFrom .droppingCarriage rest
              else if isBlank c then basicLinesFrom .lineEnd rest
              else none
  | .digits left value, c :: rest =>
      match hexDigit? c with
      | none => none
      | some digit =>
          if left ≤ 1 then
            match scalarValue? (value * 16 + digit) with
            | some plain => (basicLinesFrom (.quotes 0) rest).push plain
            | none => none
          else basicLinesFrom (.digits (left - 1) (value * 16 + digit)) rest
  | .lineEnd, c :: rest =>
      if c = '\n' then basicLinesFrom .dropping rest
      else if c = '\r' then basicLinesFrom .droppingCarriage rest
      else if isBlank c then basicLinesFrom .lineEnd rest
      else none
  | .dropping, c :: rest =>
      if c = '\n' ∨ isBlank c then basicLinesFrom .dropping rest
      else if c = '\r' then basicLinesFrom .droppingCarriage rest
      else if c = '"' then basicLinesFrom (.quotes 1) rest
      else if c = '\\' then basicLinesFrom .escape rest
      else if isPlain c then (basicLinesFrom (.quotes 0) rest).push c
      else none
  | .droppingCarriage, c :: rest =>
      if c = '\n' then basicLinesFrom .dropping rest else none

/-- The rest of a string that three single quotes opened, after a run of `count` quotes or
after a carriage return. -/
def literalLinesFrom (carriage : Bool) (count : Nat) : List Char → Scanned
  | [] =>
      if 3 ≤ count then some (List.replicate (count - 3) '\'', []) else none
  | c :: rest =>
      if carriage then
        if c = '\n' then (literalLinesFrom false 0 rest).push '\n' else none
      else if c = '\'' then
        if count = 4 then some (['\'', '\''], rest) else literalLinesFrom false (count + 1) rest
      else if 3 ≤ count then some (List.replicate (count - 3) '\'', c :: rest)
      else
        Scanned.pushQuotes '\'' count
          (if c = '\r' then literalLinesFrom true 0 rest
          else if c = '\n' ∨ isPlain c then (literalLinesFrom false 0 rest).push c
          else none)

def dropNewline : List Char → List Char
  | '\n' :: rest => rest
  | '\r' :: '\n' :: rest => rest
  | rest => rest

def Scanned.toString (scanned : Scanned) : Option (String × List Char) :=
  scanned.map fun (text, rest) => (String.ofList text, rest)

def lineString? : List Char → Option (String × List Char)
  | '"' :: rest => (basicFrom .plain rest).toString
  | '\'' :: rest => (literalFrom rest).toString
  | _ => none

def string? : List Char → Option (String × List Char)
  | '"' :: '"' :: '"' :: rest => (basicLinesFrom (.quotes 0) (dropNewline rest)).toString
  | '\'' :: '\'' :: '\'' :: rest => (literalLinesFrom false 0 (dropNewline rest)).toString
  | chars => lineString? chars

def isBareChar (c : Char) : Bool :=
  c.isAlphanum || c == '-' || c == '_'

def simpleKey? (chars : List Char) : Option (String × List Char) :=
  lineString? chars <|>
    match chars.takeWhile isBareChar with
    | [] => none
    | word => some (String.ofList word, chars.dropWhile isBareChar)

def moreParts? : Nat → List Char → Option (List String × List Char)
  | limit, chars =>
      match dropBlanks chars with
      | '.' :: rest =>
          match limit with
          | 0 => none
          | limit + 1 => do
              let (part, rest) ← simpleKey? (dropBlanks rest)
              let (parts, rest) ← moreParts? limit rest
              some (part :: parts, rest)
      | _ => some ([], chars)

def depthLimit : Nat := 79

structure DottedKey where
  path : List String
  name : String

def DottedKey.ofParts : String → List String → DottedKey
  | part, [] => ⟨[], part⟩
  | part, next :: rest =>
      let key := ofParts next rest
      ⟨part :: key.path, key.name⟩

def key? (chars : List Char) : Option (DottedKey × List Char) := do
  let (first, rest) ← simpleKey? chars
  let (parts, rest) ← moreParts? (depthLimit - 1) rest
  some (DottedKey.ofParts first parts, rest)

/-! ## Writing -/

def hexPadded (width n : Nat) : List Char :=
  let digits := Text.hexDigits n
  List.replicate (width - digits.length) '0' ++ digits

def escapeChar (c : Char) : List Char :=
  match c with
  | '"' => ['\\', '"']
  | '\\' => ['\\', '\\']
  | '\x08' => ['\\', 'b']
  | '\x0c' => ['\\', 'f']
  | '\n' => ['\\', 'n']
  | '\r' => ['\\', 'r']
  | '\t' => ['\\', 't']
  | c => if isPlain c then [c] else '\\' :: 'u' :: hexPadded 4 c.toNat

def quotedChars (text : String) : List Char :=
  '"' :: (text.toList.flatMap escapeChar ++ ['"'])

def isBare (text : String) : Bool :=
  !text.isEmpty && text.toList.all isBareChar

def keyChars (name : String) : List Char :=
  if isBare name then name.toList else quotedChars name

end Sequencer.Toml
