import Replication.Json.Lexeme

/-!
# Values that nobody asks for

A member of an object that the reader does not know is passed over.  Its value has
to be JSON all the same, with two allowances: half a surrogate pair is let through
in a text, and a number may be of any size.  A number that breaks off is malformed
here, even at the end of the text.
-/

namespace Replication
namespace Json

/-- The rest after a number that nobody asks for. -/
def skipNumber (s : List Char) : Except Fault (List Char) :=
  match Numeral.read s with
  | .ok (_, rest) => .ok rest
  | .error _ => .error .malformed

mutual

/-- The rest after a value.  The number bounds the nesting and the length. -/
def skipWithin : Nat → List Char → Except Fault (List Char)
  | 0, _ => .error .truncated
  | n + 1, s =>
      match skipBlanks s with
      | [] => .error .truncated
      | c :: rest =>
          if c = 'n' then expect ['u', 'l', 'l'] rest
          else if c = 't' then expect ['r', 'u', 'e'] rest
          else if c = 'f' then expect ['a', 'l', 's', 'e'] rest
          else if c = '"' then skipTextBody rest
          else if c = '-' ∨ c.isDigit then skipNumber (c :: rest)
          else if c = '[' then
            match skipBlanks rest with
            | ']' :: rest => .ok rest
            | [] => .error .truncated
            | _ => skipItems n rest
          else if c = '\x7b' then
            match skipBlanks rest with
            | '\x7d' :: rest => .ok rest
            | [] => .error .truncated
            | _ => skipMembers n rest
          else .error .malformed

/-- The rest after the items of a list that has one at least. -/
def skipItems : Nat → List Char → Except Fault (List Char)
  | 0, _ => .error .truncated
  | n + 1, s =>
      match skipWithin n s with
      | .error e => .error e
      | .ok rest =>
          match skipBlanks rest with
          | [] => .error .truncated
          | ',' :: rest => skipItems n rest
          | ']' :: rest => .ok rest
          | _ :: _ => .error .malformed

/-- The rest after the members of an object that has one at least. -/
def skipMembers : Nat → List Char → Except Fault (List Char)
  | 0, _ => .error .truncated
  | n + 1, s =>
      match skipBlanks s with
      | [] => .error .truncated
      | '"' :: rest =>
          match skipTextBody rest with
          | .error e => .error e
          | .ok rest =>
              match skipBlanks rest with
              | [] => .error .truncated
              | ':' :: rest =>
                  match skipWithin n rest with
                  | .error e => .error e
                  | .ok rest =>
                      match skipBlanks rest with
                      | [] => .error .truncated
                      | ',' :: rest => skipMembers n rest
                      | '\x7d' :: rest => .ok rest
                      | _ :: _ => .error .malformed
              | _ :: _ => .error .malformed
      | _ :: _ => .error .malformed

end

/-- The rest after a value that nobody asks for. -/
def skipValue (s : List Char) : Except Fault (List Char) :=
  skipWithin (2 * s.length + 2) s

end Json
end Replication
