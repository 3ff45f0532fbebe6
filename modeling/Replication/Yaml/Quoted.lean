import Replication.Number.Whole
import Replication.Yaml.Gap

/-!
# Texts between quotes

Between single quotes every character stands for itself, and a quote is written
twice.  Between double quotes a backslash begins an escape.  In both, the blanks
around a line break do not count, and the break itself is folded; a backslash at the
end of a line between double quotes takes the break away altogether.
-/

namespace Replication
namespace Yaml
namespace Quoted

/-- The two kinds of quotes. -/
inductive Quote where
  | single
  | double
  deriving DecidableEq

/-- The character of a quote. -/
def Quote.char : Quote → Char
  | single => '\''
  | double => '"'

/-- The escapes of a single letter. -/
def letter? (c : Char) : Option Char :=
  match c with
  | '0' => some '\x00'
  | 'a' => some '\x07'
  | 'b' => some '\x08'
  | 't' => some '\t'
  | '\t' => some '\t'
  | 'n' => some '\n'
  | 'v' => some '\x0b'
  | 'f' => some '\x0c'
  | 'r' => some '\r'
  | 'e' => some '\x1b'
  | ' ' => some ' '
  | '"' => some '"'
  | '/' => some '/'
  | '\\' => some '\\'
  | 'N' => some '\u0085'
  | '_' => some '\u00a0'
  | 'L' => some '\u2028'
  | 'P' => some '\u2029'
  | _ => none

/-- How many digits give the code point after a letter. -/
def width? (c : Char) : Option Nat :=
  match c with
  | 'x' => some 2
  | 'u' => some 4
  | 'U' => some 8
  | _ => none

/-- The character with a code point, if there is one. -/
def charOfCode? (n : Nat) : Option Char :=
  if n.isValidChar then some (Char.ofNat n) else none

/-- The character that an escape stands for and the text after the escape, read after
the backslash. -/
def escape : List Char → Except Fault (Char × List Char)
  | [] => .error .unfinishedText
  | c :: cs =>
      match letter? c, width? c with
      | some d, _ => .ok (d, cs)
      | none, none => .error .unknownEscape
      | none, some w =>
          if cs.length < w then .error .unknownEscape
          else
            match (Digits.nat? 16 (cs.take w)).bind charOfCode? with
            | some d => .ok (d, cs.drop w)
            | none => .error .unknownEscape

/-- The part of a text up to the next space or quote, put before what was read, last
character first.  The flag says that a line break was taken away at the end.  The
number bounds the characters looked at. -/
def wordWithin (q : Quote) :
    Nat → List Char → List Char → Except Fault (List Char × Bool × List Char)
  | 0, _, _ => .error .unfinishedText
  | _ + 1, done, [] => .ok (done, false, [])
  | n + 1, done, c :: cs =>
      if isSpace c then .ok (done, false, c :: cs)
      else if c == q.char then
        if q = .single && cs.head? == some '\'' then
          wordWithin q n ('\'' :: done) cs.tail
        else .ok (done, false, c :: cs)
      else if q = .double && c == '\\' then
        match cs with
        | '\r' :: '\n' :: rest => .ok (done, true, rest)
        | d :: rest =>
            if isBreak d then .ok (done, true, rest)
            else
              match escape cs with
              | .error e => .error e
              | .ok (x, rest) => wordWithin q n (x :: done) rest
        | [] => .error .unfinishedText
      else wordWithin q n (c :: done) cs

/-- The space after a part of a text: the blanks in front of its first line break, how
many lines end in it, and the text after it.  No tab may be within the depth of a
line. -/
def space (depth : Nat) (isIndent : Bool) (cs : List Char) :
    Except Fault (List Char × Gap) :=
  let run := cs.takeWhile isSpace
  match Gap.scan false 0 .open isIndent 0 0 cs with
  | .error e => .error e
  | .ok gap =>
      if tabbed isIndent 0 run then .error .tabbedIndent
      else .ok (run.takeWhile isBlank, gap)
where
  /-- Whether a tab is within the depth of a line. -/
  tabbed (indent : Bool) (column : Nat) : List Char → Bool
    | [] => false
    | c :: cs =>
        if isBreak c then tabbed true 0 cs
        else (indent && c == '\t' && decide (column < depth)) || tabbed indent (column + 1) cs

/-- A text from its opening quote on, put before what was read, last character first.
The depth is that of the collection around it, and the column is that of the front
of a line, or nothing further along. -/
def bodyWithin (q : Quote) (depth : Nat) :
    Nat → Option Nat → List Char → List Char → Except Fault (List Char × List Char)
  | 0, _, _, _ => .error .unfinishedText
  | n + 1, column, done, cs =>
      if column = some 0 && atDocumentMark cs then .error .unfinishedText
      else if cs.isEmpty then .error .unfinishedText
      else if column.any (· < depth) then .error .shallowLine
      else
        match wordWithin q (cs.length + 1) done cs with
        | .error e => .error e
        | .ok (done, joined, rest) =>
            if rest.head? == some q.char then .ok (done.reverse, rest.tail)
            else
              match space depth joined rest with
              | .error e => .error e
              | .ok (blanks, gap) =>
                  let next := if joined || gap.breaks != 0 then some gap.column else none
                  if joined then
                    bodyWithin q depth n next
                      (List.replicate gap.breaks '\n' ++ done) gap.rest
                  else if gap.breaks = 0 then
                    bodyWithin q depth n next (blanks.reverse ++ done) gap.rest
                  else
                    bodyWithin q depth n next
                      ((Gap.fold gap.breaks).reverse ++ done) gap.rest

/-- A text after its opening quote, and what stands after its closing quote. -/
def body (q : Quote) (depth : Nat) (cs : List Char) :
    Except Fault (List Char × List Char) :=
  bodyWithin q depth (cs.length + 1) none [] cs

end Quoted
end Yaml
end Replication
