/-!
# Spans and source files

A span is a half-open byte range.  Nothing keeps it from ending before it starts; then it is
empty.  A file is a path and a text.  Positions are byte offsets into the text's UTF-8 form, so a
character counts for one to four of them.
-/

namespace Sequencer

structure Span where
  start : Nat
  stop : Nat
  deriving DecidableEq, Inhabited

namespace Span

def length (span : Span) : Nat :=
  span.stop - span.start

def isEmpty (span : Span) : Bool :=
  span.length == 0

def overlaps (span other : Span) : Bool :=
  span.start < other.stop && other.start < span.stop

def before (span other : Span) : Bool :=
  span.start < other.start || (span.start == other.start && span.stop < other.stop)

def text (span : Span) : String :=
  s!"{span.start}..{span.stop}"

theorem overlaps_comm (span other : Span) : span.overlaps other = other.overlaps span :=
  Bool.and_comm _ _

end Span

structure SourceFile where
  path : String
  text : String
  deriving DecidableEq, Inhabited

namespace SourceFile

def byteLength (chars : List Char) : Nat :=
  chars.foldr (fun c length => c.utf8Size + length) 0

/-- Matches of `needle` from `offset` on, leftmost first and apart; `skip` characters still
belong to the last match. -/
def matchesFrom (needle : List Char) : List Char → Nat → Nat → List Span
  | [], _, _ => []
  | c :: rest, offset, skip + 1 => matchesFrom needle rest (offset + c.utf8Size) skip
  | c :: rest, offset, 0 =>
      if needle.isPrefixOf (c :: rest) then
        ⟨offset, offset + byteLength needle⟩ ::
          matchesFrom needle rest (offset + c.utf8Size) (needle.length - 1)
      else
        matchesFrom needle rest (offset + c.utf8Size) 0

def findAll (file : SourceFile) (needle : String) : List Span :=
  if needle.isEmpty then [] else matchesFrom needle.toList file.text.toList 0 0

def newlinesBefore : List Char → Nat → Nat
  | [], _ => 0
  | c :: rest, offset =>
      if offset = 0 then 0
      else (if c = '\n' then 1 else 0) + newlinesBefore rest (offset - c.utf8Size)

/-- The line, counted from 1, that an offset is on; past the end it is the last one. -/
def lineOf (file : SourceFile) (offset : Nat) : Nat :=
  newlinesBefore file.text.toList offset + 1

def dropBytes : List Char → Nat → Option (List Char)
  | chars, 0 => some chars
  | [], _ + 1 => none
  | c :: rest, count + 1 =>
      if c.utf8Size ≤ count + 1 then dropBytes rest (count + 1 - c.utf8Size) else none

def takeBytes : List Char → Nat → Option (List Char)
  | _, 0 => some []
  | [], _ + 1 => none
  | c :: rest, count + 1 =>
      if c.utf8Size ≤ count + 1 then (takeBytes rest (count + 1 - c.utf8Size)).map (c :: ·)
      else none

/-- The text of a span that lies in the file and cuts no character. -/
def slice? (file : SourceFile) (span : Span) : Option String :=
  if span.start ≤ span.stop then
    ((dropBytes file.text.toList span.start).bind fun rest =>
      takeBytes rest (span.stop - span.start)).map String.ofList
  else
    none

end SourceFile

end Sequencer
