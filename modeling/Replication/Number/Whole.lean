/-!
# Whole numbers

Numbers that are stored or exchanged have a fixed number of bits.  How many different
values such a word has is the bound that its numbers stay below.

A whole number is written as a run of digits in some base, which must not be empty,
and may have a sign before it.  There are no blanks and no separators.
-/

namespace Replication
namespace Word

/-- How many values a word of 32 bits has. -/
def count32 : Nat := 4294967296

/-- How many values a word of 63 bits has: a word of 64 bits with a sign goes from minus
this number to just below it. -/
def count63 : Nat := 9223372036854775808

/-- How many values a word of 64 bits has. -/
def count64 : Nat := 18446744073709551616

/-- The largest number of 32 bits. -/
def max32 : Nat := 4294967295

/-- The largest number of 64 bits. -/
def max64 : Nat := 18446744073709551615

end Word

namespace Digits

/-- The value of a digit in a base up to sixteen, letters counting from ten on. -/
def value? (base : Nat) (c : Char) : Option Nat :=
  let d :=
    if '0' ≤ c ∧ c ≤ '9' then c.toNat - 48
    else if 'a' ≤ c ∧ c ≤ 'f' then c.toNat - 87
    else if 'A' ≤ c ∧ c ≤ 'F' then c.toNat - 55
    else base
  if d < base then some d else none

/-- Appends digits to a number that has been read. -/
def extend (base : Nat) (n : Nat) : List Char → Option Nat
  | [] => some n
  | c :: cs =>
      match value? base c with
      | some d => extend base (n * base + d) cs
      | none => none

/-- The number that a run of digits stands for. -/
def nat? (base : Nat) : List Char → Option Nat
  | [] => none
  | cs => extend base 0 cs

/-- A sign, if there is one, and what stands after it.  The flag says that the sign
is a minus. -/
def splitSign : List Char → Bool × List Char
  | '-' :: cs => (true, cs)
  | '+' :: cs => (false, cs)
  | cs => (false, cs)

/-- The number that digits stand for after a sign, if there is one. -/
def int? (base : Nat) (cs : List Char) : Option Int :=
  let (negative, ds) := splitSign cs
  (nat? base ds).map fun n => if negative then -(n : Int) else (n : Int)

/-- A whole number within the range of 64 bits with a sign. -/
def int64? (base : Nat) (cs : List Char) : Option Int :=
  match int? base cs with
  | some n => if -(Word.count63 : Int) ≤ n ∧ n < (Word.count63 : Int) then some n else none
  | none => none

/-- A natural number within the range of 64 bits, possibly with a plus. -/
def nat64? (cs : List Char) : Option Nat :=
  let ds := match cs with
    | '+' :: ds => ds
    | ds => ds
  match nat? 10 ds with
  | some n => if n < Word.count64 then some n else none
  | none => none

/-- The decimal text of a whole number. -/
def ofInt (n : Int) : List Char :=
  if n < 0 then '-' :: Nat.toDigits 10 n.natAbs else Nat.toDigits 10 n.natAbs

end Digits
end Replication
