/-!
# The characters of YAML

YAML is made of lines.  A line ends with a line feed, a carriage return, or both;
within a line, spaces and tabs are blank.  A few characters are indicators, which
mean something only where they stand alone or inside a flow collection.

A text ends at its first null character.
-/

namespace Replication
namespace Yaml

/-- Whether a character ends a line. -/
def isBreak (c : Char) : Bool := c == '\n' || c == '\r'

/-- Whether a character is blank within a line. -/
def isBlank (c : Char) : Bool := c == ' ' || c == '\t'

/-- Whether a character is blank or ends a line. -/
def isSpace (c : Char) : Bool := isBlank c || isBreak c

/-- Whether a word ends before the rest of a text. -/
def atGap : List Char → Bool
  | [] => true
  | c :: _ => isSpace c

/-- Whether a line ends before the rest of a text. -/
def atLineEnd : List Char → Bool
  | [] => true
  | c :: _ => isBreak c

/-- Whether a character belongs to the notation of flow collections. -/
def isFlow (c : Char) : Bool :=
  c == ',' || c == '[' || c == ']' || c == '\x7b' || c == '\x7d'

/-- Whether the notation of flow collections comes next. -/
def atFlow : List Char → Bool
  | [] => false
  | c :: _ => isFlow c

/-- Whether a character can be part of a name in a handle or a directive. -/
def isNameChar (c : Char) : Bool := c.isAlphanum || c == '_' || c == '-'

/-- Whether a character can be part of an address. -/
def isUriChar (c : Char) : Bool :=
  isNameChar c || "#;/?:@&=+$,.!~*'()[]%".toList.contains c

/-- Whether a character can be part of a tag. -/
def isTagChar (c : Char) : Bool := isUriChar c && !isFlow c && c != '!'

/-- Whether a character can be part of the name of an anchor. -/
def isAnchorChar (c : Char) : Bool :=
  !isSpace c && !isFlow c && c != '\ufeff'

/-- Whether a mark that separates documents stands at the front of a line. -/
def atMark (mark : Char) : List Char → Bool
  | a :: b :: c :: rest => a == mark && b == mark && c == mark && atGap rest
  | _ => false

/-- Whether a document begins or ends at the front of a line. -/
def atDocumentMark (s : List Char) : Bool := atMark '-' s || atMark '.' s

/-- The rest of a line after something that ended, without its blanks and its comment.
A comment needs a blank before it; without one there is no rest. -/
def afterComment? (s : List Char) : Option (List Char) :=
  match s.dropWhile isBlank with
  | '#' :: rest =>
      if (s.takeWhile isBlank).isEmpty then none
      else some (rest.dropWhile fun c => !isBreak c)
  | rest => some rest

/-- A text up to its first null character. -/
def untilNull (s : List Char) : List Char := s.takeWhile (· != '\x00')

end Yaml
end Replication
