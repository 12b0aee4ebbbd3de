/-!
# Decimal numerals and doubles

A numeral is a list of digits and a power of ten.  `Decimal.fitsDouble` says whether the double
nearest to it is finite.  What a double makes of a natural number is `Double.round`, which keeps
the 53 leading bits; from `Double.limit` on a number is taken for infinite.
-/

namespace Sequencer.Double

def precision : Nat := 53

/-- The least magnitude that rounds to infinity: half a unit above the largest double. -/
def limit : Nat := Nat.pow 2 1024 - Nat.pow 2 970

/-- The nearest multiple of `unit`; of two equally near, the one of an even factor. -/
def roundTo (unit n : Nat) : Nat :=
  let low := n / unit
  let twice := 2 * (n % unit)
  if unit < twice ∨ (twice = unit ∧ low % 2 = 1) then (low + 1) * unit else low * unit

def round (n : Nat) : Nat :=
  roundTo (Nat.pow 2 (n.log2 + 1 - precision)) n

theorem roundTo_one (n : Nat) : roundTo 1 n = n := by
  simp [roundTo, Nat.mod_one]

theorem round_of_lt {n : Nat} (small : n < Nat.pow 2 53) : round n = n := by
  have bits : n.log2 < precision := by
    by_cases zero : n = 0
    · subst zero
      decide
    · exact (Nat.log2_lt zero).2 small
  have unit : n.log2 + 1 - precision = 0 := by omega
  rw [round, unit]
  exact roundTo_one n

end Sequencer.Double

namespace Sequencer.Text

def digitsValue (digits : List Char) : Nat :=
  digits.foldl (fun value c => value * 10 + (c.toNat - '0'.toNat)) 0

structure Decimal where
  digits : List Char
  exponent : Int

namespace Decimal

def fitsDouble (decimal : Decimal) : Bool :=
  let digits := decimal.digits.dropWhile (· == '0')
  if digits.isEmpty then true
  else
    let magnitude := digits.length + decimal.exponent
    if magnitude < 300 then true
    else if 320 < magnitude then false
    else if 0 ≤ decimal.exponent then
      digitsValue digits * Nat.pow 10 decimal.exponent.toNat < Double.limit
    else
      digitsValue digits < Double.limit * Nat.pow 10 (-decimal.exponent).toNat

end Decimal

end Sequencer.Text
