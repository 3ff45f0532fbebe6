import Replication.Number.Double

/-!
# The shortest decimal text of a double

Every double is the nearest one to an interval of numbers around it.  Its text has
the fewest digits with which a decimal number lies in that interval, and among the
numbers with so many digits it is the nearest to the double, the upper one where two
are equally near.  It is enough to try, for each number of digits, the two neighbours
of the double on that decimal grid: if any point of the grid is in the interval, one
of them is.

The digits are written out in full, without an exponent, and without a point when
nothing stands after it.
-/

namespace Replication
namespace Double

/-- A quotient of natural numbers times a power of ten, as a quotient. -/
def timesTen (num den : Nat) (exponent : Int) : Nat × Nat :=
  if 0 ≤ exponent then (num * Nat.pow 10 exponent.toNat, den)
  else (num, den * Nat.pow 10 (-exponent).toNat)

/-- The place of the first digit of a positive quotient: the least power of ten above
it. -/
def magnitude (num den : Nat) : Int :=
  if den ≤ num then ((Nat.toDigits 10 (num / den)).length : Int)
  else 1 - ((Nat.toDigits 10 ((den - 1) / num)).length : Int)

/-- The interval of the numbers that round to a double, in quarters of the unit in its
last place: the lower end, the double and the upper end.  Below a power of two the
doubles are twice as dense. -/
def interval (m : Nat) (e : Int) : Nat × Nat × Nat :=
  if m = leastMantissa ∧ e ≠ minExponent then (4 * m - 1, 4 * m, 4 * m + 2)
  else (4 * m - 2, 4 * m, 4 * m + 2)

/-- Whether a point of a decimal grid rounds to the double.  All are given in units of
the grid, as numerators over one denominator.  The ends belong to the interval of a
double whose last bit is zero. -/
def inside (even : Bool) (lo hi den : Nat) (point : Nat) : Bool :=
  if even then decide (lo ≤ point * den) && decide (point * den ≤ hi)
  else decide (lo < point * den) && decide (point * den < hi)

/-- The point of a decimal grid that rounds to the double, the nearer one if there are
two, and the upper one if they are equally near. -/
def onGrid? (m : Nat) (e : Int) (grid : Int) : Option Nat :=
  let (lo, mid, hi) := interval m e
  let (unit, den) := scaled 1 1 (2 - e)
  let (unit, den) := timesTen unit den (-grid)
  let (lo, mid, hi) := (lo * unit, mid * unit, hi * unit)
  let below := mid / den
  let even := m % 2 == 0
  match inside even lo hi den below, inside even lo hi den (below + 1) with
  | true, true => some (if 2 * (mid % den) < den then below else below + 1)
  | true, false => some below
  | false, true => some (below + 1)
  | false, false => none

/-- The fewest digits that round to the double, from a given number of digits on, and
the power of ten of the last one. -/
def digitsFrom (m : Nat) (e : Int) (place : Int) : Nat → Nat → Nat × Int
  | 0, count => (0, place - count)
  | more + 1, count =>
      match onGrid? m e (place - count) with
      | some n => if n = Nat.pow 10 count then (1, place) else (n, place - count)
      | none => digitsFrom m e place more (count + 1)

/-- The shortest digits of a positive double and the power of ten of the last one.
Seventeen digits tell any two doubles apart. -/
def shortest (m : Nat) (e : Int) : Nat × Int :=
  let (num, den) := scaled m 1 (-e)
  digitsFrom m e (magnitude num den) 17 1

/-- Digits with a power of ten, written out. -/
def positional (digits : List Char) (exponent : Int) : List Char :=
  if 0 ≤ exponent then digits ++ List.replicate exponent.toNat '0'
  else
    let after := (-exponent).toNat
    if after < digits.length then
      digits.take (digits.length - after) ++ '.' :: digits.drop (digits.length - after)
    else '0' :: '.' :: List.replicate (after - digits.length) '0' ++ digits

/-- The text of a double. -/
def toText : Double → String
  | nan => "NaN"
  | infinite false => "inf"
  | infinite true => "-inf"
  | finite negative m e =>
      let body :=
        if m = 0 then ['0']
        else
          let (n, k) := shortest m e
          positional (Nat.toDigits 10 n) k
      String.ofList (if negative then '-' :: body else body)

end Double
end Replication
