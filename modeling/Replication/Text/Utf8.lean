/-!
# Texts as bytes

UTF-8 writes a character in one to four bytes.  Reading is strict: a byte that
cannot stand where it stands makes the whole text invalid, and so does a character
that the bytes break off.  The fault names the offset of the character at fault
and, unless the bytes just end too early, how many bytes have to be passed over
before reading could go on.

Each text has exactly one form in bytes, so reading accepts nothing but what
writing produces.
-/

namespace Replication
namespace Text
namespace Utf8

/-- A byte from its value; the value is below 256 wherever this is used. -/
abbrev byte (n : Nat) : UInt8 := UInt8.ofNat n

/-- The bytes of a character. -/
def encodeChar (c : Char) : List UInt8 :=
  let n := c.toNat
  if n < 0x80 then [byte n]
  else if n < 0x800 then [byte (0xC0 + n / 64), byte (0x80 + n % 64)]
  else if n < 0x10000 then
    [byte (0xE0 + n / 4096), byte (0x80 + n / 64 % 64), byte (0x80 + n % 64)]
  else
    [byte (0xF0 + n / 262144), byte (0x80 + n / 4096 % 64),
      byte (0x80 + n / 64 % 64), byte (0x80 + n % 64)]

/-- The bytes of a text. -/
def encode (s : List Char) : List UInt8 :=
  s.flatMap encodeChar

/-- What is wrong with some bytes. -/
structure Fault where
  /-- Where the character at fault begins. -/
  index : Nat
  /-- How many bytes belong to the fault; nothing when the bytes end too early. -/
  length : Option Nat
  deriving DecidableEq, Repr

/-- The text of a fault. -/
def Fault.text (f : Fault) : String :=
  match f.length with
  | some k =>
      "invalid utf-8 sequence of " ++ toString k ++ " bytes from index "
        ++ toString f.index
  | none => "incomplete utf-8 byte sequence from index " ++ toString f.index

/-- Whether a byte can follow the first two of a character. -/
def isTail (b : UInt8) : Bool :=
  decide (0x80 ≤ b.toNat) && decide (b.toNat ≤ 0xBF)

/-- Whether a byte can follow the first of a character of three bytes.  After the
extremes of the range less is allowed, so that no character has a form longer than
it needs and no surrogate has one at all. -/
def isSecondOfThree (a b : UInt8) : Bool :=
  isTail b && (a != 0xE0 || decide (0xA0 ≤ b.toNat))
    && (a != 0xED || decide (b.toNat ≤ 0x9F))

/-- Whether a byte can follow the first of a character of four bytes. -/
def isSecondOfFour (a b : UInt8) : Bool :=
  isTail b && (a != 0xF0 || decide (0x90 ≤ b.toNat))
    && (a != 0xF4 || decide (b.toNat ≤ 0x8F))

/-- The six bits that a following byte carries. -/
def bits (b : UInt8) : Nat := b.toNat - 0x80

/-- Adds a character before the text that follows it. -/
def consOk (c : Char) : Except Fault (List Char) → Except Fault (List Char)
  | .ok cs => .ok (c :: cs)
  | .error e => .error e

/-- The text of some bytes that begin at an offset. -/
def decodeFrom (i : Nat) : List UInt8 → Except Fault (List Char)
  | [] => .ok []
  | a :: s =>
      if a.toNat < 0x80 then consOk (Char.ofNat a.toNat) (decodeFrom (i + 1) s)
      else if a.toNat < 0xC2 then .error ⟨i, some 1⟩
      else if a.toNat < 0xE0 then
        match s with
        | [] => .error ⟨i, none⟩
        | b :: s =>
            if isTail b then
              consOk (Char.ofNat ((a.toNat - 0xC0) * 64 + bits b)) (decodeFrom (i + 2) s)
            else .error ⟨i, some 1⟩
      else if a.toNat < 0xF0 then
        match s with
        | [] => .error ⟨i, none⟩
        | b :: s =>
            if isSecondOfThree a b then
              match s with
              | [] => .error ⟨i, none⟩
              | c :: s =>
                  if isTail c then
                    consOk
                      (Char.ofNat ((a.toNat - 0xE0) * 4096 + bits b * 64 + bits c))
                      (decodeFrom (i + 3) s)
                  else .error ⟨i, some 2⟩
            else .error ⟨i, some 1⟩
      else if a.toNat < 0xF5 then
        match s with
        | [] => .error ⟨i, none⟩
        | b :: s =>
            if isSecondOfFour a b then
              match s with
              | [] => .error ⟨i, none⟩
              | c :: s =>
                  if isTail c then
                    match s with
                    | [] => .error ⟨i, none⟩
                    | d :: s =>
                        if isTail d then
                          consOk
                            (Char.ofNat ((a.toNat - 0xF0) * 262144 + bits b * 4096
                              + bits c * 64 + bits d))
                            (decodeFrom (i + 4) s)
                        else .error ⟨i, some 3⟩
                  else .error ⟨i, some 2⟩
            else .error ⟨i, some 1⟩
      else .error ⟨i, some 1⟩

/-- The text of some bytes. -/
def decode (bs : List UInt8) : Except Fault (List Char) :=
  decodeFrom 0 bs

@[simp] theorem encode_nil : encode [] = [] := rfl

@[simp] theorem encode_cons (c : Char) (s : List Char) :
    encode (c :: s) = encodeChar c ++ encode s := by
  simp [encode]

end Utf8
end Text
end Replication
