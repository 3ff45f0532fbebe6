/-!
# Classes of characters

A class of characters is stored as the increasing list of code points at which
membership changes: outside the class at first, inside from the first boundary
on, outside from the second, and so forth.  This is the usual compact form of a
character property, and it makes a table of a standard a plain list of numbers.

Blank characters are white space in the sense of the Unicode property of that name:
the ASCII blanks, the next-line control, the no-break space and the typographic
spaces.  A name that holds nothing else is as good as no name.
-/

namespace Replication
namespace Text

/-- A set of characters, given by the code points at which membership flips. -/
structure CharClass where
  boundaries : List Nat

namespace CharClass

/-- Whether a code point lies between an odd boundary and the even one after it,
counting from one. -/
def inside (n : Nat) : List Nat → Bool
  | [] => false
  | b :: bs => if n < b then false else !inside n bs

/-- Membership of a character in a class. -/
def contains (k : CharClass) (c : Char) : Bool :=
  inside c.toNat k.boundaries

end CharClass

/-! ## Blank characters -/

/-- White space of any script. -/
def CharClass.blank : CharClass where
  boundaries := [
    0x9, 0xe, 0x20, 0x21, 0x85, 0x86, 0xa0, 0xa1, 0x1680, 0x1681, 0x2000, 0x200b,
    0x2028, 0x202a, 0x202f, 0x2030, 0x205f, 0x2060, 0x3000, 0x3001]

/-- Whether a text has no character other than blanks. -/
def isBlank (s : String) : Bool :=
  s.toList.all CharClass.blank.contains

end Text
end Replication
