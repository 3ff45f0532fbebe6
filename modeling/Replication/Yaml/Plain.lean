import Replication.Yaml.Gap

/-!
# Texts without quotes

A plain text goes on until a colon that ends a key, a comment, the notation of a flow
collection around it, or a line that is not deep enough.  Its lines are folded like
those between quotes, and the space at its end is not part of it.
-/

namespace Replication
namespace Yaml
namespace Plain

/-- Whether a plain text ends before a character that is no space. -/
def endsBefore (inFlow : Bool) (c : Char) (cs : List Char) : Bool :=
  (c == ':' && (atGap cs || (inFlow && atFlow cs))) || (inFlow && isFlow c)

/-- A word and the text after it. -/
def word (inFlow : Bool) : List Char → List Char × List Char
  | [] => ([], [])
  | c :: cs =>
      if isSpace c || endsBefore inFlow c cs then ([], c :: cs)
      else
        let (w, rest) := word inFlow cs
        (c :: w, rest)

/-- What has been read of a plain text. -/
structure Extent where
  text : List Char
  /-- The text after it and after the space at its end. -/
  rest : List Char
  /-- Whether the space at its end holds a line break. -/
  endsLine : Bool

/-- A plain text from one of its words on.  The flag `inFlow` says that it is inside a
flow collection, and the depth is the number of columns in front of each of its
lines.  The column is that of the word, if it is the first on its line.  The number
bounds the words. -/
def wordsWithin (inFlow : Bool) (depth : Nat) :
    Nat → Option Nat → List Char → Except Fault Extent
  | 0, column, cs => .ok ⟨[], cs, column.isSome⟩
  | n + 1, column, cs =>
      if (column = some 0 && atDocumentMark cs) || cs.head? == some '#' then
        .ok ⟨[], cs, column.isSome⟩
      else if inFlow && cs.head? == some '-' && atFlow cs.tail then
        .error .misplacedIndicator
      else
        let (w, rest) := word inFlow cs
        if w.isEmpty then .ok ⟨[], rest, column.isSome⟩
        else if !(rest.head?.any isSpace) then .ok ⟨w, rest, false⟩
        else
          match Gap.scan false depth .open false 0 0 rest with
          | .error e => .error e
          | .ok gap =>
              let next := if gap.breaks = 0 then none else some gap.column
              if !inFlow && next.any (· < depth) then .ok ⟨w, gap.rest, true⟩
              else
                match wordsWithin inFlow depth n next gap.rest with
                | .error e => .error e
                | .ok more =>
                    let glue :=
                      if gap.breaks = 0 then rest.takeWhile isBlank
                      else Gap.fold gap.breaks
                    .ok
                      ⟨if more.text.isEmpty then w else w ++ glue ++ more.text, more.rest,
                        more.endsLine⟩

/-- The plain text at the front of a text. -/
def body (inFlow : Bool) (depth : Nat) (cs : List Char) : Except Fault Extent :=
  wordsWithin inFlow depth (cs.length + 1) none cs

end Plain
end Yaml
end Replication
