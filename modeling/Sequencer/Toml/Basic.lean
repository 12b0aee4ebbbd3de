/-!
# TOML values

A document is a table.  Dates and times are kept as their parts; `Datetime.text` writes
them in the one form the standard gives them.
-/

namespace Sequencer.Toml

structure Date where
  year : Nat
  month : Nat
  day : Nat
  deriving DecidableEq

structure Time where
  hour : Nat
  minute : Nat
  second : Nat
  nanosecond : Nat
  deriving DecidableEq

inductive Offset where
  | utc
  | minutes (negative : Bool) (total : Nat)
  deriving DecidableEq

/-- A date, a time of day, or both, the latter perhaps with an offset. -/
structure Datetime where
  date : Option Date
  time : Option Time
  offset : Option Offset
  deriving DecidableEq

def padded (width n : Nat) : String :=
  let digits := toString n
  String.ofList (List.replicate (width - digits.length) '0') ++ digits

def Date.text (date : Date) : String :=
  s!"{padded 4 date.year}-{padded 2 date.month}-{padded 2 date.day}"

def fractionText (nanosecond : Nat) : String :=
  if nanosecond = 0 then ""
  else "." ++ String.ofList ((padded 9 nanosecond).toList.reverse.dropWhile (· == '0')).reverse

def Time.text (time : Time) : String :=
  s!"{padded 2 time.hour}:{padded 2 time.minute}:{padded 2 time.second}" ++
    fractionText time.nanosecond

def Offset.text : Offset → String
  | .utc => "Z"
  | .minutes negative total =>
      let sign := if negative && total != 0 then "-" else "+"
      s!"{sign}{padded 2 (total / 60)}:{padded 2 (total % 60)}"

def Datetime.text (datetime : Datetime) : String :=
  let date := (datetime.date.map Date.text).getD ""
  let time := (datetime.time.map Time.text).getD ""
  let mark := if datetime.date.isSome && datetime.time.isSome then "T" else ""
  date ++ mark ++ time ++ (datetime.offset.map Offset.text).getD ""

end Toml

inductive Toml where
  | string (text : String)
  | integer (value : Int)
  | float (text : String)
  | boolean (value : Bool)
  | datetime (value : Toml.Datetime)
  | array (items : List Toml)
  | table (entries : List (String × Toml))
  deriving Inhabited

end Sequencer
