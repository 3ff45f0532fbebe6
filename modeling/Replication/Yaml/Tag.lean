import Replication.Number.Whole
import Replication.Yaml.Basic
import Replication.Yaml.Chars

/-!
# Tags and directives

A tag names the kind of a value: a handle, which stands for the first part of the
name, and a suffix.  The handle `!!` stands for the kinds of YAML itself.  A directive
before a document declares a further handle.
-/

namespace Replication
namespace Yaml

/-- What the handle `!!` stands for. -/
def coreMeaning : String := "tag:yaml.org,2002:"

namespace Tag

/-- The second byte of a character, escaped like the first. -/
def secondByte : List Char → Except Fault (Nat × List Char)
  | '%' :: a :: b :: rest =>
      match Digits.nat? 16 [a, b] with
      | some n => if 128 ≤ n ∧ n < 192 then .ok (n, rest) else .error .malformedTag
      | none => .error .malformedTag
  | _ => .error .malformedTag

/-- A character written by its bytes, each in two digits, read after the first percent
sign.  There are one or two bytes, and two of them make up a code point as they stand,
the first one being the upper byte. -/
def escaped : List Char → Except Fault (Char × List Char)
  | a :: b :: rest =>
      match Digits.nat? 16 [a, b] with
      | none => .error .malformedTag
      | some n =>
          if n < 128 then .ok (Char.ofNat n, rest)
          else if 192 ≤ n ∧ n < 224 then
            match secondByte rest with
            | .error e => .error e
            | .ok (m, rest) =>
                if (n * 256 + m).isValidChar then .ok (Char.ofNat (n * 256 + m), rest)
                else .error .malformedTag
          else .error .malformedTag
  | _ => .error .malformedTag

/-- The characters of an address that are in a class, escapes resolved.  The number
bounds them. -/
def address (isPart : Char → Bool) :
    Nat → List Char → Except Fault (List Char × List Char)
  | 0, cs => .ok ([], cs)
  | _ + 1, [] => .ok ([], [])
  | n + 1, c :: cs =>
      if !isPart c then .ok ([], c :: cs)
      else do
        let (d, rest) ← if c == '%' then escaped cs else .ok (c, cs)
        let (ds, rest) ← address isPart n rest
        return (d :: ds, rest)

/-- A handle: a name after an exclamation mark, and another mark if there is one. -/
def handle (cs : List Char) : List Char × List Char :=
  let name := cs.takeWhile isNameChar
  match cs.dropWhile isNameChar with
  | '!' :: rest => ('!' :: name ++ ['!'], rest)
  | rest => ('!' :: name, rest)

/-- Whether a handle is closed by a second mark. -/
def isClosed (handle : List Char) : Bool :=
  decide (2 ≤ handle.length) && handle.getLast? == some '!'

/-- A tag that is written out in full, read after `!<`. -/
def verbatim (cs : List Char) : Except Fault (Token × List Char) := do
  let (name, rest) ← address isUriChar (cs.length + 1) cs
  match rest with
  | '>' :: rest => return (.tag "" (String.ofList name), rest)
  | _ => throw .malformedTag

/-- A tag after its first mark.  A mark that is not followed by a handle's second one
begins a tag of the document's own; alone, it is a tag by itself. -/
def short (cs : List Char) : Except Fault (Token × List Char) := do
  let (h, rest) := handle cs
  let (suffix, rest) ← address isTagChar (rest.length + 1) rest
  if isClosed h then
    if suffix.isEmpty then throw .malformedTag
    return (.tag (String.ofList h) (String.ofList suffix), rest)
  else
    let suffix := h.tail ++ suffix
    if suffix.isEmpty then return (.tag "" "!", rest)
    else return (.tag "!" (String.ofList suffix), rest)

/-- A tag after its first mark.  A space has to follow it, or the notation of a flow
collection around it. -/
def read (inFlow : Bool) (cs : List Char) : Except Fault (Token × List Char) := do
  let (token, rest) ← match cs with
    | '<' :: rest => verbatim rest
    | _ => short cs
  if atGap rest || (inFlow && atFlow rest) then return (token, rest)
  else throw .malformedTag

end Tag

namespace Directive

/-- A number of the version of the notation. -/
def number (cs : List Char) : Except Fault (List Char) :=
  let ds := cs.takeWhile Char.isDigit
  if ds.isEmpty || decide (9 < ds.length) then .error .malformedDirective
  else .ok (cs.dropWhile Char.isDigit)

/-- The version of the notation: two numbers with a point between them. -/
def version (cs : List Char) : Except Fault (Token × List Char) := do
  let rest ← number (cs.dropWhile isBlank)
  match rest with
  | '.' :: rest => return (.version, ← number rest)
  | _ => throw .malformedDirective

/-- What a handle stands for: an address, or a mark for tags of the document's own. -/
def meaning (cs : List Char) : Except Fault (List Char × List Char) :=
  match cs with
  | '!' :: rest => do
      let (m, rest) ← Tag.address isUriChar (rest.length + 1) rest
      return ('!' :: m, rest)
  | c :: _ => if isTagChar c then Tag.address isUriChar (cs.length + 1) cs
      else .error .malformedDirective
  | [] => .error .malformedDirective

/-- The declaration of a handle. -/
def declaration (cs : List Char) : Except Fault (Token × List Char) := do
  match cs.dropWhile isBlank with
  | '!' :: rest =>
      let (h, rest) := Tag.handle rest
      if h.length ≠ 1 && !Tag.isClosed h then throw .malformedDirective
      let (m, rest) ← meaning (rest.dropWhile isBlank)
      unless atGap rest do throw .malformedDirective
      return (.handle (String.ofList h) (String.ofList m), rest)
  | _ => throw .malformedDirective

/-- A directive after its percent sign.  Directives that are not known say nothing, and
nothing but a comment may follow on the line. -/
def read (cs : List Char) : Except Fault (Token × List Char) := do
  let name := String.ofList (cs.takeWhile isNameChar)
  let rest := cs.dropWhile isNameChar
  if name.isEmpty || !atGap rest then throw .malformedDirective
  let (token, rest) ←
    if name = "YAML" then version rest
    else if name = "TAG" then declaration rest
    else .ok (.handle "" "", rest.dropWhile fun c => !isBreak c)
  let some rest := afterComment? rest | throw .crowdedComment
  unless atLineEnd rest do throw .malformedDirective
  return (token, rest)

end Directive

end Yaml
end Replication
