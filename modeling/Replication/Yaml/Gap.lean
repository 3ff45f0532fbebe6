import Replication.Yaml.Basic
import Replication.Yaml.Chars

/-!
# The space between two parts of a text

Between two parts there may be blanks, line breaks and comments.  What comes next is
on a line of some depth, and only spaces may make up that depth: a tab within it is
refused unless nothing but a comment follows on its line.
-/

namespace Replication
namespace Yaml

/-- The space before the next part of a text. -/
structure Gap where
  /-- How many lines end in it. -/
  breaks : Nat
  /-- The column at which the next part begins. -/
  column : Nat
  /-- The text from the next part on. -/
  rest : List Char

namespace Gap

/-- Where in a line reading is. -/
inductive Place where
  /-- Before the next part, or after a part on the same line. -/
  | open
  /-- After a tab within the depth of the line. -/
  | tabbed
  /-- In a comment. -/
  | comment

/-- The space from some place on.  The depth is the number of columns that may not hold
a tab, the flag `comments` says whether comments count as space, and the flag `indent`
says that the line holds only blanks so far.  Where comments do not count, there may
be one after a tab, and its line does not count either. -/
def scan (comments : Bool) (depth : Nat) :
    Place → Bool → Nat → Nat → List Char → Except Fault Gap
  | _, _, breaks, column, [] => .ok ⟨breaks, column, []⟩
  | place, indent, breaks, column, c :: cs =>
      if c == '\r' && cs.head? == some '\n' then
        scan comments depth place indent breaks column cs
      else if isBreak c then
        let counts := match place with
          | .comment => comments
          | _ => true
        scan comments depth .open true (if counts then breaks + 1 else breaks) 0 cs
      else
        match place with
        | .comment => scan comments depth .comment indent breaks column cs
        | .tabbed =>
            if isBlank c then scan comments depth .tabbed indent breaks column cs
            else if c == '#' then scan comments depth .comment indent breaks column cs
            else .error .tabbedIndent
        | .open =>
            if c == '\t' && indent && decide (column < depth) then
              scan comments depth .tabbed indent breaks column cs
            else if isBlank c then
              scan comments depth .open indent breaks (column + 1) cs
            else if comments && c == '#' then
              scan comments depth .comment indent breaks column cs
            else .ok ⟨breaks, column, c :: cs⟩

/-- The text after spaces, line breaks and comments, from inside a comment or not.  Tabs
do not count as space. -/
def afterSpaces (inComment : Bool) : List Char → List Char
  | [] => []
  | c :: cs =>
      if isBreak c then afterSpaces false cs
      else if inComment || c == ' ' then afterSpaces inComment cs
      else if c == '#' then afterSpaces true cs
      else c :: cs

/-- How the line breaks between two lines of one text are read: a single one as a
space, of several ones all but the first. -/
def fold : Nat → List Char
  | 0 => []
  | 1 => [' ']
  | n + 2 => List.replicate (n + 1) '\n'

end Gap

end Yaml
end Replication
