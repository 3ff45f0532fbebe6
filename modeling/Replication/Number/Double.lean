import Replication.Number.Whole

/-!
# Doubles

A finite double is a whole number of at most 53 bits times a power of two, the least
power being `2 ^ -1074`.  A decimal number stands for the double nearest to it, of
two equally near ones for the one whose last bit is zero, and for infinity where
that would be too large.

The arithmetic is exact: a number is kept as a quotient until it is rounded, once.
Rounding a natural number to 53 significant bits takes the nearer of its two
neighbours, and of two equally near ones the one whose last bit is zero.
-/

namespace Replication

/-! ## Rounding -/

namespace Rounding

/-- The quotient rounded to the nearest whole number, a half to the even one. -/
def divNearest (n d : Nat) : Nat :=
  let q := n / d
  let r := n % d
  if d < 2 * r ∨ 2 * r = d ∧ q % 2 = 1 then q + 1 else q

/-- How many bits a number has. -/
def bitLength (n : Nat) : Nat :=
  if n = 0 then 0 else n.log2 + 1

/-- A natural number rounded to 53 significant bits. -/
def toDouble (n : Nat) : Nat :=
  let drop := bitLength n - 53
  divNearest n (Nat.pow 2 drop) * Nat.pow 2 drop

end Rounding

/-- A double.  The finite one is `mantissa * 2 ^ exponent`. -/
inductive Double where
  | nan
  | infinite (negative : Bool)
  | finite (negative : Bool) (mantissa : Nat) (exponent : Int)
  deriving DecidableEq, Repr

namespace Double

/-- The least exponent of a double. -/
def minExponent : Int := -1074

/-- The largest exponent of a double whose mantissa has 53 bits. -/
def maxExponent : Int := 971

/-- The bound of the numbers of 53 bits. -/
def mantissaLimit : Nat := 9007199254740992

/-- The least number of 53 bits. -/
def leastMantissa : Nat := 4503599627370496

/-- Zero. -/
def zero (negative : Bool) : Double := finite negative 0 minExponent

/-- A quotient divided by a power of two, as a quotient. -/
def scaled (num den : Nat) (exponent : Int) : Nat × Nat :=
  if 0 ≤ exponent then (num, den * Nat.pow 2 exponent.toNat)
  else (num * Nat.pow 2 (-exponent).toNat, den)

/-- The exponent with which the whole part of a positive quotient has 53 bits, or the
least one. -/
def exponentFor (num den : Nat) : Int :=
  let e := (Rounding.bitLength num : Int) - (Rounding.bitLength den : Int) - 53
  let (n, d) := scaled num den e
  max minExponent (if n / d < mantissaLimit then e else e + 1)

/-- The double nearest to a positive quotient. -/
def nearest (negative : Bool) (num den : Nat) : Double :=
  let e := exponentFor num den
  let (n, d) := scaled num den e
  let m := Rounding.divNearest n d
  let (m, e) := if m = mantissaLimit then (leastMantissa, e + 1) else (m, e)
  if maxExponent < e then infinite negative else finite negative m e

/-- The double nearest to a number with a decimal exponent.  Far beyond the range on
either side the power of ten is not computed. -/
def ofDecimal (negative : Bool) (digits : Nat) (exponent : Int) : Double :=
  let magnitude := ((Nat.toDigits 10 digits).length : Int) + exponent
  if digits = 0 then zero negative
  else if 310 < magnitude then infinite negative
  else if magnitude < -330 then zero negative
  else if 0 ≤ exponent then nearest negative (digits * Nat.pow 10 exponent.toNat) 1
  else nearest negative digits (Nat.pow 10 (-exponent).toNat)

/-! ## Reading -/

/-- The exponent at the end of a number, if there is one. -/
def readExponent : List Char → Option Int
  | [] => some 0
  | c :: cs => if c = 'e' ∨ c = 'E' then Digits.int? 10 cs else none

/-- A number without its sign: digits, a point with digits after or before it, and an
exponent. -/
def readUnsigned (negative : Bool) (cs : List Char) : Option Double :=
  let whole := cs.takeWhile Char.isDigit
  let rest := cs.dropWhile Char.isDigit
  let (fraction, rest) := match rest with
    | '.' :: rest => (rest.takeWhile Char.isDigit, rest.dropWhile Char.isDigit)
    | rest => ([], rest)
  match Digits.nat? 10 (whole ++ fraction), readExponent rest with
  | some n, some e => some (ofDecimal negative n (e - (fraction.length : Int)))
  | _, _ => none

/-- The double that a text stands for.  The words for infinity and for no number at
all may be in letters of either case. -/
def ofText? (s : String) : Option Double :=
  let (negative, cs) := Digits.splitSign s.toList
  let word := String.ofList (cs.map Char.toLower)
  if word = "inf" ∨ word = "infinity" then some (infinite negative)
  else if word = "nan" then some nan
  else readUnsigned negative cs

/-! ## Whole numbers -/

/-- Whether the double is zero, of either sign. -/
def isZero : Double → Bool
  | finite _ m _ => m == 0
  | _ => false

/-- The natural number nearest to the double, a half going up.  What is below zero
becomes zero, what is above the limit becomes the limit, and what is no number
becomes zero. -/
def toNat (limit : Nat) : Double → Nat
  | nan => 0
  | infinite negative => if negative then 0 else limit
  | finite negative m e =>
      if negative then 0
      else
        let (n, d) := scaled m 1 (-e)
        min limit ((2 * n + d) / (2 * d))

end Double

end Replication
