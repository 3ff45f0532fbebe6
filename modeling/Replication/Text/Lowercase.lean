import Replication.Text.CharClass.Cased
import Replication.Text.LowercaseTable

/-!
# Lower case of any script

Each character has a lower-case form of its own, mostly a single character.  Two
rules look further.  The dotted capital I becomes two characters, and a capital
sigma becomes the final form where it ends a word: a cased letter comes before it
and none after it, marks and the like being passed over.
-/

namespace Replication
namespace Text

namespace CaseRun

/-- Whether a code point is one of the capital letters of the run. -/
def covers (r : CaseRun) (n : Nat) : Bool :=
  decide (r.first ≤ n) && decide (n ≤ r.last) && (n - r.first) % r.step == 0

/-- The lower-case letter at the same place of the run. -/
def lowerOf (r : CaseRun) (n : Nat) : Char :=
  Char.ofNat (r.lower + (n - r.first))

end CaseRun

/-- The lower-case form of a character taken by itself. -/
def lowerChar (c : Char) : List Char :=
  if c.toNat < 128 then
    [c.toLower]
  else if c = '\u0130' then
    ['i', '\u0307']
  else
    match caseRuns.find? fun r => r.covers c.toNat with
    | some r => [r.lowerOf c.toNat]
    | none => [c]

/-- Whether a cased letter comes next once ignorable characters are passed over. -/
def meetsCased (s : List Char) : Bool :=
  match s.dropWhile CharClass.caseIgnorable.contains with
  | [] => false
  | c :: _ => CharClass.cased.contains c

/-- The lower-case sigma between the text before it, read backwards, and the text
after it. -/
def lowerSigma (before after : List Char) : Char :=
  if meetsCased before && !meetsCased after then 'ς' else 'σ'

/-- Lower case of the rest of a text whose beginning, read backwards, is given. -/
def lowerAfter (before : List Char) : List Char → List Char
  | [] => []
  | c :: cs =>
      (if c = 'Σ' then [lowerSigma before cs] else lowerChar c)
        ++ lowerAfter (c :: before) cs

/-- Lower case of a whole text. -/
def lowercase (s : String) : String :=
  String.ofList (lowerAfter [] s.toList)

end Text
end Replication
