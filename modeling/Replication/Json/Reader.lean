import Replication.Json.Skip

/-!
# Readers of values

A reader knows what its value must look like.  A value of another kind is a
mismatch as soon as it is seen, although a number, text or word that stands in its
place is read to its end first, so that what is no JSON at all is reported as such.

A record is an object with known members.  Unknown members are passed over, a
known one may occur once, and one that may be left out may also be null.  A record
may be written as a list, too: its members in order, without their names, and only
those left out at the end that may be left out.
-/

namespace Replication
namespace Json

/-- The fault of a value that is not of the shape asked for. -/
def mismatch (s : List Char) : Fault :=
  match s with
  | [] => .truncated
  | c :: rest =>
      let after (r : Except Fault (List Char)) : Fault :=
        match r with
        | .error e => e
        | .ok _ => .mismatched
      if c = 'n' then after (expect ['u', 'l', 'l'] rest)
      else if c = 't' then after (expect ['r', 'u', 'e'] rest)
      else if c = 'f' then after (expect ['a', 'l', 's', 'e'] rest)
      else if c = '"' then after ((textBody rest).map Prod.snd)
      else if c = '-' ∨ c.isDigit then
        match Numeral.read s with
        | .error e => e
        | .ok (x, _) =>
            match x.natural? with
            | .error e => e
            | .ok _ => .mismatched
      else if c = '[' ∨ c = '\x7b' then .mismatched
      else .malformed

/-! ## Simple shapes -/

/-- A text. -/
def readText : Reader Json := fun s =>
  match skipBlanks s with
  | '"' :: rest =>
      match textBody rest with
      | .error e => .error e
      | .ok (cs, rest) => .ok (text (String.ofList cs), rest)
  | s => .error (mismatch s)

/-- A natural number up to a limit. -/
def readNumber (limit : Nat) : Reader Json := fun s =>
  match skipBlanks s with
  | [] => .error .truncated
  | c :: rest =>
      if c = '-' ∨ c.isDigit then
        match Numeral.read (c :: rest) with
        | .error e => .error e
        | .ok (x, rest) =>
            match x.natural? with
            | .error e => .error e
            | .ok none => .error .mismatched
            | .ok (some n) =>
                if n ≤ limit then .ok (number n, rest) else .error .mismatched
      else .error (mismatch (c :: rest))

/-- A flag. -/
def readFlag : Reader Json := fun s =>
  match skipBlanks s with
  | 't' :: rest => (expect ['r', 'u', 'e'] rest).map fun rest => (flag true, rest)
  | 'f' :: rest => (expect ['a', 'l', 's', 'e'] rest).map fun rest => (flag false, rest)
  | s => .error (mismatch s)

/-- Nothing but null. -/
def readNull : Reader Json := fun s =>
  match skipBlanks s with
  | 'n' :: rest => (expect ['u', 'l', 'l'] rest).map fun rest => (null, rest)
  | s => .error (mismatch s)

/-- Null, or a value of a shape. -/
def readNullable (r : Reader Json) : Reader Json := fun s =>
  match skipBlanks s with
  | 'n' :: rest => (expect ['u', 'l', 'l'] rest).map fun rest => (null, rest)
  | s => r s

/-- The name of one of several cases. -/
def readName (names : List String) : Reader Json := fun s =>
  match readText s with
  | .error e => .error e
  | .ok (text name, rest) =>
      if names.contains name then .ok (text name, rest) else .error .mismatched
  | .ok (_, _) => .error .mismatched

/-- The rest after the colon between a name and its value. -/
def expectColon (s : List Char) : Except Fault (List Char) :=
  match skipBlanks s with
  | [] => .error .truncated
  | ':' :: rest => .ok rest
  | _ :: _ => .error .malformed

/-- The name of one of several cases as a key, which must be a text. -/
def readCaseKey (names : List String) : Reader Json := fun s =>
  match skipBlanks s with
  | [] => .error .truncated
  | c :: rest => if c = '"' then readName names (c :: rest) else .error .malformed

/-- One of several cases, by its name or as the name of a member that is null. -/
def readCase (names : List String) : Reader Json := fun s =>
  match skipBlanks s with
  | [] => .error .truncated
  | c :: rest =>
      if c = '"' then readName names (c :: rest)
      else if c = '\x7b' then
        match readCaseKey names rest with
        | .error e => .error e
        | .ok (v, rest) =>
            match expectColon rest with
            | .error e => .error e
            | .ok rest =>
                match readNull rest with
                | .error e => .error e
                | .ok (_, rest) =>
                    match skipBlanks rest with
                    | [] => .error .truncated
                    | '\x7d' :: rest => .ok (v, rest)
                    | _ :: _ => .error .malformed
      else .error .malformed

/-! ## Lists -/

/-- Where the next item of a list stands, or nothing at the end of the list. -/
def nextItem (first : Bool) (s : List Char) : Except Fault (Option (List Char)) :=
  match skipBlanks s with
  | [] => .error .truncated
  | c :: rest =>
      if c = ']' then .ok none
      else if first then .ok (some (c :: rest))
      else if c = ',' then
        match skipBlanks rest with
        | [] => .error .truncated
        | d :: rest => if d = ']' then .error .malformed else .ok (some (d :: rest))
      else .error .malformed

/-- The rest after the end of a list. -/
def endArray (s : List Char) : Except Fault (List Char) :=
  match skipBlanks s with
  | [] => .error .truncated
  | ']' :: rest => .ok rest
  | _ :: _ => .error .malformed

/-- The items of a list, put before those already read, last first.  The number
bounds how many there are. -/
def itemsWithin (r : Reader Json) : Nat → Bool → List Json → Reader (List Json)
  | 0, _, _, _ => .error .truncated
  | n + 1, first, done, s =>
      match nextItem first s with
      | .error e => .error e
      | .ok none => .ok (done.reverse, s)
      | .ok (some s) =>
          match r s with
          | .error e => .error e
          | .ok (v, rest) => itemsWithin r n false (v :: done) rest

/-- A list of values of one shape. -/
def readArray (r : Reader Json) : Reader Json := fun s =>
  match skipBlanks s with
  | '[' :: rest =>
      match itemsWithin r (rest.length + 1) true [] rest with
      | .error e => .error e
      | .ok (vs, rest) =>
          match endArray rest with
          | .error e => .error e
          | .ok rest => .ok (array vs, rest)
  | s => .error (mismatch s)

/-! ## Objects -/

/-- Where the text of the next key stands, after its quote, or nothing at the end of
the object. -/
def nextKey (first : Bool) (s : List Char) : Except Fault (Option (List Char)) :=
  match skipBlanks s with
  | [] => .error .truncated
  | c :: rest =>
      if c = '\x7d' then .ok none
      else if first then
        if c = '"' then .ok (some rest) else .error .malformed
      else if c = ',' then
        match skipBlanks rest with
        | [] => .error .truncated
        | d :: rest => if d = '"' then .ok (some rest) else .error .malformed
      else .error .malformed

/-- The rest after the end of an object. -/
def endObject (s : List Char) : Except Fault (List Char) :=
  match skipBlanks s with
  | [] => .error .truncated
  | '\x7d' :: rest => .ok rest
  | _ :: _ => .error .malformed

/-- The members of an object whose values have one shape, put before those already
read, last first. -/
def membersWithin (r : Reader Json) :
    Nat → Bool → List (String × Json) → Reader (List (String × Json))
  | 0, _, _, _ => .error .truncated
  | n + 1, first, done, s =>
      match nextKey first s with
      | .error e => .error e
      | .ok none => .ok (done.reverse, s)
      | .ok (some s) =>
          match textBody s with
          | .error e => .error e
          | .ok (key, rest) =>
              match expectColon rest with
              | .error e => .error e
              | .ok rest =>
                  match r rest with
                  | .error e => .error e
                  | .ok (v, rest) =>
                      membersWithin r n false ((String.ofList key, v) :: done) rest

/-- An object with any keys and texts as values.  Repeated keys are all kept. -/
def readDictionary : Reader Json := fun s =>
  match skipBlanks s with
  | '\x7b' :: rest =>
      match membersWithin readText (rest.length + 1) true [] rest with
      | .error e => .error e
      | .ok (ms, rest) =>
          match endObject rest with
          | .error e => .error e
          | .ok rest => .ok (object ms, rest)
  | s => .error (mismatch s)

/-! ## Records -/

/-- A member that a record may have. -/
structure Member where
  name : String
  /-- Whether the record must have it. -/
  required : Bool
  read : Reader Json

/-- The members read, in the order in which the record has them; a mismatch when one
that must be there is missing. -/
def arrange (members : List Member) (found : List (String × Json)) :
    Except Fault (List (String × Json)) :=
  if members.all fun m => !m.required || (found.lookup m.name).isSome then
    .ok (members.filterMap fun m => (found.lookup m.name).map fun v => (m.name, v))
  else .error .mismatched

/-- The members of a record written as an object, together with those already
found. -/
def recordWithin (members : List Member) :
    Nat → Bool → List (String × Json) → Reader (List (String × Json))
  | 0, _, _, _ => .error .truncated
  | n + 1, first, found, s =>
      match nextKey first s with
      | .error e => .error e
      | .ok none => .ok (found, s)
      | .ok (some s) =>
          match textBody s with
          | .error e => .error e
          | .ok (key, rest) =>
              match members.find? fun m => m.name == String.ofList key with
              | none =>
                  match expectColon rest with
                  | .error e => .error e
                  | .ok rest =>
                      match skipValue rest with
                      | .error e => .error e
                      | .ok rest => recordWithin members n false found rest
              | some m =>
                  if (found.lookup m.name).isSome then .error .mismatched
                  else
                    match expectColon rest with
                    | .error e => .error e
                    | .ok rest =>
                        match m.read rest with
                        | .error e => .error e
                        | .ok (v, rest) =>
                            recordWithin members n false ((m.name, v) :: found) rest

/-- The members of a record written as a list. -/
def recordItems : List Member → Bool → Reader (List (String × Json))
  | [], _, s => .ok ([], s)
  | m :: ms, first, s =>
      match nextItem first s with
      | .error e => .error e
      | .ok none => if m.required then .error .mismatched else recordItems ms first s
      | .ok (some s) =>
          match m.read s with
          | .error e => .error e
          | .ok (v, rest) =>
              match recordItems ms false rest with
              | .error e => .error e
              | .ok (found, rest) => .ok ((m.name, v) :: found, rest)

/-- A record. -/
def readRecord (members : List Member) : Reader Json := fun s =>
  match skipBlanks s with
  | '\x7b' :: rest =>
      match recordWithin members (rest.length + 1) true [] rest with
      | .error e => .error e
      | .ok (found, rest) =>
          match arrange members found with
          | .error e => .error e
          | .ok found =>
              match endObject rest with
              | .error e => .error e
              | .ok rest => .ok (object found, rest)
  | '[' :: rest =>
      match recordItems members true rest with
      | .error e => .error e
      | .ok (found, rest) =>
          match endArray rest with
          | .error e => .error e
          | .ok rest => .ok (object found, rest)
  | s => .error (mismatch s)

/-! ## Whole texts -/

/-- The value of a whole text; nothing but blanks may follow it. -/
def readAll (r : Reader Json) (s : String) : Except Fault Json :=
  match r s.toList with
  | .error e => .error e
  | .ok (v, rest) =>
      match skipBlanks rest with
      | [] => .ok v
      | _ :: _ => .error .malformed

end Json
end Replication
