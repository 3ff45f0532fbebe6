import Replication.Json.Basic
import Replication.Number.Double
import Replication.Number.Whole

/-!
# The smallest parts of JSON text

Reading is streaming: the first fault met from left to right is the one reported,
and there are three ways to go wrong.  The text may not be JSON, it may end too
early, or it may be JSON of another shape than the reader asks for.

A reader takes the rest of the text and gives what it read together with what is
left after it.
-/

namespace Replication
namespace Json

/-- Why reading stopped. -/
inductive Fault where
  /-- What stands there is not JSON. -/
  | malformed
  /-- The text ends before the value does. -/
  | truncated
  /-- The value is JSON, but not what was asked for. -/
  | mismatched
  deriving DecidableEq, Repr

/-- What a reader gives: a value and the rest of the text, or a fault. -/
abbrev Reading (α : Type) := Except Fault (α × List Char)

/-- Reads a value from the front of a text. -/
abbrev Reader (α : Type) := List Char → Reading α

/-- The four blanks of JSON. -/
def isBlank (c : Char) : Bool :=
  c == ' ' || c == '\n' || c == '\t' || c == '\r'

/-- A text without the blanks it begins with. -/
def skipBlanks (s : List Char) : List Char :=
  s.dropWhile isBlank

/-- The rest of a text after a given word. -/
def expect : List Char → List Char → Except Fault (List Char)
  | [], s => .ok s
  | _ :: _, [] => .error .truncated
  | c :: w, d :: s => if c = d then expect w s else .error .malformed

/-- How many bytes a text takes in UTF-8. -/
def byteLength (s : List Char) : Nat :=
  s.foldl (fun n c => n + c.utf8Size) 0

/-! ## Texts -/

/-- Four digits in base sixteen.  With less than four bytes left the text ends too
early, whatever they are. -/
def hexUnit (s : List Char) : Reading Nat :=
  match s with
  | a :: b :: c :: d :: rest =>
      match Digits.value? 16 a, Digits.value? 16 b, Digits.value? 16 c, Digits.value? 16 d with
      | some i, some j, some k, some l =>
          .ok (((i * 16 + j) * 16 + k) * 16 + l, rest)
      | _, _, _, _ => .error .malformed
  | _ => if byteLength s < 4 then .error .truncated else .error .malformed

/-- Whether a unit is the first half of a surrogate pair. -/
def isLeading (n : Nat) : Bool := decide (0xD800 ≤ n) && decide (n < 0xDC00)

/-- Whether a unit is the second half of a surrogate pair. -/
def isTrailing (n : Nat) : Bool := decide (0xDC00 ≤ n) && decide (n < 0xE000)

/-- The character that a pair of surrogates stands for. -/
def pairChar (leading trailing : Nat) : Char :=
  Char.ofNat (0x10000 + (leading - 0xD800) * 0x400 + (trailing - 0xDC00))

/-- The second half of a pair whose first half was read. -/
def trailingUnit (leading : Nat) (s : List Char) : Reading Char :=
  match expect ['\\', 'u'] s with
  | .error e => .error e
  | .ok rest =>
      match hexUnit rest with
      | .error e => .error e
      | .ok (n, rest) =>
          if isTrailing n then .ok (pairChar leading n, rest) else .error .malformed

/-- The letters after a backslash and what they stand for. -/
def escapeLetter? (c : Char) : Option Char :=
  if c = '"' then some '"'
  else if c = '\\' then some '\\'
  else if c = '/' then some '/'
  else if c = 'b' then some '\x08'
  else if c = 'f' then some '\x0c'
  else if c = 'n' then some '\n'
  else if c = 'r' then some '\r'
  else if c = 't' then some '\t'
  else none

/-- The character that an escape stands for, read after the backslash.  Surrogates
must come in pairs. -/
def escaped : Reader Char
  | [] => .error .truncated
  | c :: s =>
      match escapeLetter? c with
      | some d => .ok (d, s)
      | none =>
          if c = 'u' then
            match hexUnit s with
            | .error e => .error e
            | .ok (n, rest) =>
                if isTrailing n then .error .malformed
                else if isLeading n then trailingUnit n rest
                else .ok (Char.ofNat n, rest)
          else .error .malformed

/-- The characters of a text up to the closing quote, put before those already
read, last first.  The number bounds the characters looked at. -/
def textWithin : Nat → List Char → Reader (List Char)
  | 0, _, _ => .error .truncated
  | _ + 1, _, [] => .error .truncated
  | n + 1, done, c :: s =>
      if c = '"' then .ok (done.reverse, s)
      else if c = '\\' then
        match escaped s with
        | .error e => .error e
        | .ok (d, rest) => textWithin n (d :: done) rest
      else if c.toNat < 32 then .error .malformed
      else textWithin n (c :: done) s

/-- A text, read after its opening quote. -/
def textBody (s : List Char) : Reading (List Char) :=
  textWithin (s.length + 1) [] s

/-- The rest after an escape that nobody asks for: its unit may be half a pair. -/
def skipEscaped : List Char → Except Fault (List Char)
  | [] => .error .truncated
  | c :: s =>
      if (escapeLetter? c).isSome then .ok s
      else if c = 'u' then (hexUnit s).map Prod.snd
      else .error .malformed

/-- The rest after a text that nobody asks for. -/
def skipTextWithin : Nat → List Char → Except Fault (List Char)
  | 0, _ => .error .truncated
  | _ + 1, [] => .error .truncated
  | n + 1, c :: s =>
      if c = '"' then .ok s
      else if c = '\\' then
        match skipEscaped s with
        | .error e => .error e
        | .ok rest => skipTextWithin n rest
      else if c.toNat < 32 then .error .malformed
      else skipTextWithin n s

/-- The rest after a text that nobody asks for, from its opening quote on. -/
def skipTextBody (s : List Char) : Except Fault (List Char) :=
  skipTextWithin (s.length + 1) s

/-! ## Numbers -/

/-- A number as it is written. -/
structure Numeral where
  negative : Bool
  /-- The digits before the point, without a leading zero unless alone. -/
  whole : List Char
  /-- The digits after the point, if there is a point. -/
  fraction : Option (List Char)
  /-- The sign and digits of the exponent, if there is one. -/
  exponent : Option (Bool × List Char)
  deriving DecidableEq, Repr

namespace Numeral

/-- A run of digits and the rest. -/
def digits (s : List Char) : List Char × List Char :=
  (s.takeWhile Char.isDigit, s.dropWhile Char.isDigit)

/-- A run of digits that must not be empty. -/
def someDigits (s : List Char) : Reading (List Char) :=
  match digits s with
  | ([], []) => .error .truncated
  | ([], _ :: _) => .error .malformed
  | (d :: ds, rest) => .ok (d :: ds, rest)

/-- The digits before the point: a zero stands alone. -/
def readWhole (s : List Char) : Reading (List Char) :=
  match someDigits s with
  | .error e => .error e
  | .ok (ds, rest) =>
      match ds with
      | '0' :: _ :: _ => .error .malformed
      | _ => .ok (ds, rest)

/-- The digits after a point, if one follows. -/
def readFraction (s : List Char) : Reading (Option (List Char)) :=
  match s with
  | '.' :: s => (someDigits s).map fun r => (some r.1, r.2)
  | _ => .ok (none, s)

/-- The exponent, if one follows.  The flag says that it is negative. -/
def readExponent (s : List Char) : Reading (Option (Bool × List Char)) :=
  match s with
  | c :: s' =>
      if c = 'e' ∨ c = 'E' then
        match s' with
        | '-' :: s'' => (someDigits s'').map fun r => (some (true, r.1), r.2)
        | '+' :: s'' => (someDigits s'').map fun r => (some (false, r.1), r.2)
        | _ => (someDigits s').map fun r => (some (false, r.1), r.2)
      else .ok (none, s)
  | [] => .ok (none, s)

/-- A number, from its sign on. -/
def read (s : List Char) : Reading Numeral :=
  let (negative, s) := match s with
    | '-' :: s => (true, s)
    | _ => (false, s)
  match readWhole s with
  | .error e => .error e
  | .ok (whole, s) =>
      match readFraction s with
      | .error e => .error e
      | .ok (fraction, s) =>
          match readExponent s with
          | .error e => .error e
          | .ok (exponent, s) => .ok (⟨negative, whole, fraction, exponent⟩, s)

/-- The largest number that is kept exactly. -/
def limit : Nat := Word.max64

/-- The value of a digit. -/
def digitValue (c : Char) : Nat := c.toNat - 48

/-- Takes digits into a significand for as long as it stays within the limit, and
gives the digits that found no place. -/
def accumulate (m : Nat) : List Char → Nat × List Char
  | [] => (m, [])
  | d :: ds =>
      if m * 10 + digitValue d ≤ limit then accumulate (m * 10 + digitValue d) ds
      else (m, d :: ds)

/-- The significand and the decimal exponent of a number.  Digits before the point
that found no place raise the exponent; digits after it that found a place lower
it, and the others are dropped. -/
def parts (x : Numeral) : Nat × Int :=
  let (m, spare) := accumulate 0 x.whole
  let (m, e) := match x.fraction with
    | none => (m, (spare.length : Int))
    | some ds =>
        let (k, dropped) := accumulate m ds
        (k, (spare.length : Int) - ((ds.length - dropped.length : Nat) : Int))
  match x.exponent with
  | none => (m, e)
  | some (negative, ds) =>
      let k := (Nat.ofDigitChars 10 ds 0 : Int)
      (m, if negative then e - k else e + k)

/-- Whether a number is beyond the largest double: with a decimal exponent above
308, or where the product of the rounded significand and the rounded power of ten
would round to infinity. -/
def isTooLarge (x : Numeral) : Bool :=
  let (m, e) := x.parts
  if m = 0 then false
  else if e < 0 then false
  else if 308 < e then true
  else
    decide (Nat.pow 2 1024 - Nat.pow 2 970
      ≤ Rounding.toDouble m * Rounding.toDouble (Nat.pow 10 e.toNat))

/-- The value of a number that is a natural number within the limit and written as
one; other numbers within the range of a double have none. -/
def natural? (x : Numeral) : Except Fault (Option Nat) :=
  match x with
  | ⟨false, whole, none, none⟩ =>
      if Nat.ofDigitChars 10 whole 0 ≤ limit then .ok (some (Nat.ofDigitChars 10 whole 0))
      else if x.isTooLarge then .error .malformed
      else .ok none
  | _ => if x.isTooLarge then .error .malformed else .ok none

end Numeral

end Json
end Replication
