import Sequencer.Json.Basic
import Sequencer.Text.Decimal

/-!
# JSON numbers

`number?` reads the characters of a number token.  An integer is kept as one; any other
number is kept as written, unless it is so large that no reader has room for it.  The size
is measured as a reader that works with words and doubles measures it: the leading digits
that fit a word, times a power of ten, each of the two a double.
-/

namespace Sequencer.Json

structure NumberText where
  negative : Bool
  whole : List Char
  fraction : Option (List Char)
  exponent : Option (Bool × List Char)

def digitRun? (chars : List Char) : Option (List Char × List Char) :=
  match chars.takeWhile Char.isDigit with
  | [] => none
  | digits => some (digits, chars.dropWhile Char.isDigit)

def splitFraction? : List Char → Option (Option (List Char) × List Char)
  | '.' :: rest => (digitRun? rest).map fun (digits, rest) => (some digits, rest)
  | rest => some (none, rest)

def splitExponent? : List Char → Option (Option (Bool × List Char) × List Char)
  | c :: rest =>
      if c = 'e' ∨ c = 'E' then
        match rest with
        | '-' :: rest => (digitRun? rest).map fun (digits, rest) => (some (true, digits), rest)
        | '+' :: rest => (digitRun? rest).map fun (digits, rest) => (some (false, digits), rest)
        | rest => (digitRun? rest).map fun (digits, rest) => (some (false, digits), rest)
      else
        some (none, c :: rest)
  | [] => some (none, [])

def NumberText.of? (chars : List Char) : Option NumberText := do
  let (negative, chars) := match chars with
    | '-' :: rest => (true, rest)
    | rest => (false, rest)
  let (whole, chars) ← digitRun? chars
  if whole.head? = some '0' ∧ 1 < whole.length then none
  let (fraction, chars) ← splitFraction? chars
  let (exponent, chars) ← splitExponent? chars
  if chars.isEmpty then some { negative, whole, fraction, exponent } else none

def wordLimit : Nat := Nat.pow 2 64

/-- Take digits into a word up to the first for which it has no room, and count them. -/
def takeDigits (word : Nat) : List Char → Nat × Nat
  | [] => (word, 0)
  | c :: rest =>
      let longer := word * 10 + (c.toNat - '0'.toNat)
      if longer < wordLimit then
        let (word, count) := takeDigits longer rest
        (word, count + 1)
      else
        (word, 0)

structure Magnitude where
  word : Nat
  exponent : Int

/-- The size of a number, its sign apart.  A digit before the point that the word has no
room for counts as a power of ten, and so does every later one before the point; after the
point such digits are skipped. -/
def NumberText.magnitude (text : NumberText) : Magnitude :=
  let exponent : Int := match text.exponent with
    | none => 0
    | some (negative, digits) =>
        if negative then -(Text.digitsValue digits : Int) else Text.digitsValue digits
  let whole := takeDigits 0 text.whole
  let all := takeDigits whole.1 (text.fraction.getD [])
  ⟨all.1, exponent + (text.whole.length - whole.2 : Nat) - all.2⟩

def maxExponent : Nat := 308

/-- The product of word and power, both rounded to doubles, is finite. -/
def Magnitude.isFinite (magnitude : Magnitude) : Bool :=
  magnitude.word == 0 || magnitude.exponent < 0 ||
    (magnitude.exponent ≤ maxExponent &&
      Double.round magnitude.word * Double.round (Nat.pow 10 magnitude.exponent.toNat) < Double.limit)

def number? (chars : List Char) : Option Json :=
  (NumberText.of? chars).map fun text =>
    if !text.magnitude.isFinite then .unreadable
    else if text.fraction.isNone && text.exponent.isNone then
      let value := Text.digitsValue text.whole
      if text.negative then
        if value = 0 then .decimal (String.ofList chars) else .int (-value)
      else
        .int value
    else .decimal (String.ofList chars)

end Sequencer.Json
