import Sequencer.Text.Decimal
import Sequencer.Toml.Basic

/-!
# TOML scalars

Booleans, numbers, dates and times are written with letters, digits and a few signs.
`scalar?` reads one from all the characters it is made of.  Underscores may stand between
digits, and an integer has to fit sixty-four bits with a sign.
-/

namespace Sequencer.Toml

def isScalarChar (c : Char) : Bool :=
  c.isAlphanum || c == '+' || c == '-' || c == '.' || c == '_' || c == ':'

def hexDigit? (c : Char) : Option Nat :=
  if '0' ≤ c ∧ c ≤ '9' then some (c.toNat - '0'.toNat)
  else if 'a' ≤ c ∧ c ≤ 'f' then some (c.toNat - 'a'.toNat + 10)
  else if 'A' ≤ c ∧ c ≤ 'F' then some (c.toNat - 'A'.toNat + 10)
  else none

def digit? (base : Nat) (c : Char) : Option Nat :=
  (hexDigit? c).filter (· < base)

def isDigit (base : Nat) (c : Char) : Bool :=
  (digit? base c).isSome

/-- Digits after the first, with single underscores between them left out. -/
def moreDigits? (base : Nat) : List Char → Option (List Char)
  | [] => some []
  | '_' :: c :: rest => if isDigit base c then (moreDigits? base rest).map (c :: ·) else none
  | c :: rest => if isDigit base c then (moreDigits? base rest).map (c :: ·) else none

def digits? (base : Nat) : List Char → Option (List Char)
  | [] => none
  | c :: rest => if isDigit base c then (moreDigits? base rest).map (c :: ·) else none

def valueOf (base : Nat) (digits : List Char) : Nat :=
  digits.foldl (fun value c => value * base + (digit? base c).getD 0) 0

def plainDigits? (chars : List Char) : Option (List Char) :=
  (digits? 10 chars).filter fun digits => digits.length == 1 || digits.head? != some '0'

def splitSign : List Char → Bool × List Char
  | '-' :: rest => (true, rest)
  | '+' :: rest => (false, rest)
  | rest => (false, rest)

def integerLimit : Int := Int.pow 2 63

def inIntegerRange (value : Int) : Bool :=
  -integerLimit ≤ value && value < integerLimit

def integer? (chars : List Char) : Option Int :=
  let based (base : Nat) (digits : List Char) : Option Int :=
    (digits? base digits).map fun digits => (valueOf base digits : Int)
  let value := match chars with
    | '0' :: 'x' :: rest => based 16 rest
    | '0' :: 'o' :: rest => based 8 rest
    | '0' :: 'b' :: rest => based 2 rest
    | chars =>
        let (negative, digits) := splitSign chars
        (plainDigits? digits).map fun digits =>
          if negative then -(valueOf 10 digits : Int) else valueOf 10 digits
  value.filter inIntegerRange

def exponent? (chars : List Char) : Option Int :=
  let (negative, digits) := splitSign chars
  (digits? 10 digits).map fun digits =>
    if negative then -(valueOf 10 digits : Int) else valueOf 10 digits

def isExponentMark (c : Char) : Bool :=
  c == 'e' || c == 'E'

/-- A number with a fraction, an exponent or both.  One too large for a double is refused
unless it is negative. -/
def float? (chars : List Char) : Option Toml :=
  let (negative, body) := splitSign chars
  let mantissa := body.takeWhile fun c => !isExponentMark c
  let power := match body.dropWhile fun c => !isExponentMark c with
    | [] => some 0
    | _ :: rest => exponent? rest
  let whole := mantissa.takeWhile (· != '.')
  let fraction := match mantissa.dropWhile (· != '.') with
    | [] => some []
    | _ :: rest => digits? 10 rest
  match plainDigits? whole, fraction, power with
  | some whole, some fraction, some power =>
      let decimal : Text.Decimal := ⟨whole ++ fraction, power - fraction.length⟩
      if body.all (fun c => c != '.' && !isExponentMark c) then none
      else if negative || decimal.fitsDouble then some (.float (String.ofList chars))
      else none
  | _, _, _ => none

def specialFloat? (chars : List Char) : Option Toml :=
  let body := (splitSign chars).2
  if body = ['i', 'n', 'f'] ∨ body = ['n', 'a', 'n'] then some (.float (String.ofList chars))
  else none

def boolean? (chars : List Char) : Option Toml :=
  if chars = ['t', 'r', 'u', 'e'] then some (.boolean true)
  else if chars = ['f', 'a', 'l', 's', 'e'] then some (.boolean false)
  else none

/-! ## Dates and times -/

def fixedDigits? (count : Nat) (chars : List Char) : Option (Nat × List Char) :=
  let digits := chars.take count
  if digits.length = count ∧ digits.all Char.isDigit then
    some (Text.digitsValue digits, chars.drop count)
  else none

def expect? (c : Char) : List Char → Option (List Char)
  | d :: rest => if c = d then some rest else none
  | [] => none

def daysIn (year month : Nat) : Nat :=
  if month = 2 then
    if year % 4 = 0 ∧ (year % 100 ≠ 0 ∨ year % 400 = 0) then 29 else 28
  else if month = 4 ∨ month = 6 ∨ month = 9 ∨ month = 11 then 30
  else 31

def date? (chars : List Char) : Option (Date × List Char) := do
  let (year, chars) ← fixedDigits? 4 chars
  let chars ← expect? '-' chars
  let (month, chars) ← fixedDigits? 2 chars
  let chars ← expect? '-' chars
  let (day, chars) ← fixedDigits? 2 chars
  if 1 ≤ month ∧ month ≤ 12 ∧ 1 ≤ day ∧ day ≤ daysIn year month then
    some (⟨year, month, day⟩, chars)
  else none

/-- A fraction of a second in nanoseconds; further digits are cut off. -/
def fraction? : List Char → Option (Nat × List Char)
  | '.' :: rest =>
      let digits := rest.takeWhile Char.isDigit
      if digits.isEmpty then none
      else
        let kept := digits.take 9
        some (Text.digitsValue kept * Nat.pow 10 (9 - kept.length), rest.dropWhile Char.isDigit)
  | rest => some (0, rest)

def time? (chars : List Char) : Option (Time × List Char) := do
  let (hour, chars) ← fixedDigits? 2 chars
  let chars ← expect? ':' chars
  let (minute, chars) ← fixedDigits? 2 chars
  let chars ← expect? ':' chars
  let (second, chars) ← fixedDigits? 2 chars
  let (nanosecond, chars) ← fraction? chars
  if hour ≤ 23 ∧ minute ≤ 59 ∧ second ≤ 60 then some (⟨hour, minute, second, nanosecond⟩, chars)
  else none

def offset? (chars : List Char) : Option Offset :=
  match chars with
  | ['Z'] | ['z'] => some .utc
  | sign :: rest =>
      if sign = '+' ∨ sign = '-' then do
        let (hour, rest) ← fixedDigits? 2 rest
        let rest ← expect? ':' rest
        let (minute, rest) ← fixedDigits? 2 rest
        if hour ≤ 23 ∧ minute ≤ 59 ∧ rest.isEmpty then
          some (.minutes (sign == '-') (hour * 60 + minute))
        else none
      else none
  | [] => none

def dateTime? (date : Date) (chars : List Char) : Option Datetime := do
  let (time, chars) ← time? chars
  if chars.isEmpty then some ⟨some date, some time, none⟩
  else (offset? chars).map fun offset => ⟨some date, some time, some offset⟩

def datetime? (chars : List Char) : Option Datetime :=
  match date? chars with
  | some (date, []) => some ⟨some date, none, none⟩
  | some (date, mark :: rest) =>
      if mark = 'T' ∨ mark = 't' ∨ mark = ' ' then dateTime? date rest else none
  | none =>
      match time? chars with
      | some (time, []) => some ⟨none, some time, none⟩
      | _ => none

def scalar? (chars : List Char) : Option Toml :=
  boolean? chars <|> (integer? chars).map .integer <|> (datetime? chars).map .datetime <|>
    float? chars <|> specialFloat? chars

/-- Read the scalar at the start of a text.  A date and a time may be apart by a blank. -/
def scalarFront? (chars : List Char) : Option (Toml × List Char) :=
  let first := chars.takeWhile isScalarChar
  let rest := chars.dropWhile isScalarChar
  let joined := match rest with
    | ' ' :: after =>
        ((datetime? (first ++ ' ' :: after.takeWhile isScalarChar)).map fun datetime =>
          (Toml.datetime datetime, after.dropWhile isScalarChar))
    | _ => none
  joined <|> (scalar? first).map (·, rest)

end Sequencer.Toml
