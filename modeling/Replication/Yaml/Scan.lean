import Replication.Yaml.Block
import Replication.Yaml.Cursor
import Replication.Yaml.Plain
import Replication.Yaml.Quoted
import Replication.Yaml.Tag

/-!
# Cutting a text into its parts

A block collection goes on for as long as its lines are deep enough.  The collections
that are open at some place make up a stack of levels, each with the column of its
entries; a line that is less deep closes those above its own level.

Whether something is a key is known only from the colon after it.  Until then the
place where its parts begin is kept, and when the colon comes, the sign of the key is
put there, after the start of a new collection where the key is deeper than the
levels.  In a block collection a key is on one line, and not too long.

A key in a flow sequence makes a mapping of its own.  Unless braces or a question mark
have announced mappings before, such a key is on the line of its colon, the start of
the mapping is put before it, and the end of the mapping before the next comma or
closing bracket, even if that belongs to a collection inside the value.
-/

namespace Replication
namespace Yaml

/-- A level of depth.  Inside an entry whose content begins on another line, that
content is one column deeper, at a level that is no collection. -/
structure Level where
  column : Nat
  isBlock : Bool
  deriving DecidableEq

/-- A place where a key may have begun. -/
structure Candidate where
  /-- How many parts there are before it. -/
  position : Nat
  index : Nat
  line : Nat
  column : Nat
  /-- Whether nothing but a key can be there. -/
  required : Bool

/-- A text that has been cut up to some place. -/
structure Scan where
  cursor : Cursor
  tokens : Array Token := #[]
  /-- The levels of depth, the innermost first. -/
  levels : List Level := []
  /-- Whether a key may begin here. -/
  keyAllowed : Bool := true
  /-- Where a key may have begun in the innermost flow collection, or outside all. -/
  candidate : Option Candidate := none
  /-- The open flow collections, the innermost first, each by the place where a key may
  have begun around it. -/
  flows : List (Option Candidate) := []
  /-- Whether braces or a question mark have announced a mapping inside a flow
  collection, and no mapping without them has ended since. -/
  announced : Bool := false
  /-- Whether the last colon began a mapping that is not announced. -/
  unannounced : Bool := false
  /-- The place after a key that needs no blank behind its colon. -/
  adjacent : Nat := 0
  /-- How many parts there were after the last anchor or tag at the front of a line. -/
  margin : Option Nat := none

namespace Scan

/-- Whether the place is inside a flow collection. -/
def inFlow (s : Scan) : Bool := !s.flows.isEmpty

/-- The column of the innermost level. -/
def level? (s : Scan) : Option Nat := s.levels.head?.map Level.column

/-- How many columns a line must have in front of it. -/
def depth (s : Scan) : Nat := s.level?.getD 0

/-- Adds a part. -/
def emit (s : Scan) (t : Token) : Scan := { s with tokens := s.tokens.push t }

/-- Inserts parts before the one at a position. -/
def insertAt (s : Scan) (position : Nat) (ts : Array Token) : Scan :=
  { s with
    tokens :=
      s.tokens.extract 0 position ++ ts ++ s.tokens.extract position s.tokens.size }

/-- The scan at a later place. -/
def goto (s : Scan) (rest : List Char) : Scan := { s with cursor := s.cursor.goto rest }

/-! ## Levels -/

/-- Levels without the innermost ones that are no collections. -/
def dropLoose : List Level → List Level
  | [] => []
  | l :: ls => if l.isBlock then l :: ls else dropLoose ls

/-- Closes the levels that are deeper than a column; without one, all of them. -/
def closeLevels (column : Option Nat) : List Level → Array Token → List Level × Array Token
  | [], ts => ([], ts)
  | l :: ls, ts =>
      if column.all (· < l.column) then
        closeLevels column ls (if l.isBlock then ts.push .blockEnd else ts)
      else (l :: ls, ts)

/-- Closes the block collections that a column is not part of.  Inside a flow collection
depth has no meaning. -/
def closeBlocks (s : Scan) (column : Option Nat) : Scan :=
  if s.inFlow then s
  else
    let (levels, tokens) := closeLevels column s.levels s.tokens
    { s with levels, tokens }

/-- Opens a block collection at a column, unless it is open, with its start put before
the part at a position. -/
def openBlock (s : Scan) (column position : Nat) (start : Token) : Scan :=
  if s.inFlow then s
  else
    let levels :=
      if s.level?.all (· ≤ column) then
        match s.levels with
        | l :: ls => if l.isBlock then l :: ls else ls
        | [] => []
      else s.levels
    if (levels.head?.map Level.column).all (· < column) then
      { s with levels := ⟨column, true⟩ :: levels }.insertAt position #[start]
    else { s with levels }

/-- Inside an entry of the innermost block collection content is one column deeper. -/
def deepen (s : Scan) : Scan :=
  match s.levels with
  | l :: _ =>
      if !s.inFlow && l.isBlock then
        { s with levels := ⟨l.column + 1, false⟩ :: s.levels }
      else s
  | [] => s

/-! ## Keys -/

/-- Keeps this place as one where a key may begin. -/
def markKey (s : Scan) : Scan :=
  if s.keyAllowed then
    let required :=
      !s.inFlow && s.levels.head? == some ⟨s.cursor.column, true⟩
    { s with
      candidate :=
        some
          ⟨s.tokens.size, s.cursor.index, s.cursor.line, s.cursor.column, required⟩ }
  else s

/-- Gives up the place where a key may have begun. -/
def dropKey (s : Scan) : Except Fault Scan :=
  if s.candidate.any Candidate.required then .error .unfinishedKey
  else .ok { s with candidate := none }

/-- Gives it up where the key would span lines or be longer than 1024 characters. -/
def dropStaleKey (s : Scan) : Except Fault Scan :=
  let isStale (k : Candidate) : Bool :=
    !s.inFlow && (decide (k.line < s.cursor.line) || decide (k.index + 1024 < s.cursor.index))
  if s.candidate.any isStale then s.dropKey else .ok s

/-! ## Parts -/

/-- The space before the next part. -/
def skipSpace (s : Scan) : Except Fault Scan := do
  let depth := s.depth
  let gap ←
    Gap.scan true depth .open s.cursor.isIndent 0 s.cursor.column s.cursor.rest
  let s := s.goto gap.rest
  return if gap.breaks != 0 && !s.inFlow then { s with keyAllowed := true } else s

/-- The rest of a line after an indicator. -/
def skipLine (s : Scan) : Except Fault Scan :=
  match afterComment? s.cursor.rest with
  | some rest => .ok (s.goto rest)
  | none => .error .crowdedComment

/-- The place behind so many characters. -/
def pass (s : Scan) (n : Nat) : Scan := { s with cursor := s.cursor.pass n }

/-- The end of the text. -/
def finish (s : Scan) : Except Fault Scan :=
  if s.candidate.any Candidate.required
      || s.flows.any fun k => k.any Candidate.required then
    .error .unfinishedKey
  else .ok (s.closeBlocks none)

/-- A mark between documents. -/
def documentMark (s : Scan) (mark : Token) : Except Fault Scan := do
  let s ← (s.closeBlocks none).dropKey
  let s := ({ s with keyAllowed := false }.pass 3).emit mark
  if mark = .documentEnd then
    let s ← s.skipLine
    unless atLineEnd s.cursor.rest do throw .trailingContent
    return s
  return s

/-- A directive. -/
def directive (s : Scan) : Except Fault Scan := do
  let s ← (s.closeBlocks none).dropKey
  let (token, rest) ← Directive.read s.cursor.rest.tail
  return ({ s with keyAllowed := false }.goto rest).emit token

/-- The start of a flow collection, which may be a key. -/
def flowStart (s : Scan) (mark : Token) : Except Fault Scan := do
  let s := s.markKey.deepen
  if 255 ≤ s.flows.length then throw .tooDeep
  let s :=
    { s with
      flows := s.candidate :: s.flows
      candidate := none
      keyAllowed := true
      announced := s.announced || mark == Token.flowMapping }
  return (← (s.pass 1).skipLine).emit mark

/-- Ends the mapping that is not announced, if there is one. -/
def endUnannounced (s : Scan) : Scan :=
  if s.unannounced then
    { s with announced := false, unannounced := false }.emit .flowMappingEnd
  else s

/-- The end of a flow collection.  Whether there is one to end is left to those who put
the parts together. -/
def flowEnd (s : Scan) (mark : Token) : Except Fault Scan := do
  let s ← s.dropKey
  let candidate := s.flows.head?.join
  let s := { s with flows := s.flows.tail, candidate, keyAllowed := false }.endUnannounced
  let s ← (s.pass 1).skipLine
  return { s with adjacent := s.cursor.index }.emit mark

/-- A comma between the entries of a flow collection. -/
def comma (s : Scan) : Except Fault Scan := do
  let s ← s.dropKey
  let s ← ({ s with keyAllowed := true }.endUnannounced.pass 1).skipLine
  return s.emit .comma

/-- The dash before an entry of a block sequence. -/
def entry (s : Scan) : Except Fault Scan := do
  if s.inFlow || !s.keyAllowed then throw .misplacedIndicator
  if s.cursor.column = 0 && !s.levels.isEmpty && s.margin == some s.tokens.size then
    throw .shallowLine
  let column := s.cursor.column
  let s := (s.pass 1).openBlock column s.tokens.size .blockSequence
  let blanks := s.cursor.rest.takeWhile isBlank
  let s ← s.skipLine
  let rest := s.cursor.rest
  if blanks.contains '\t' && rest.head? == some '-' && atGap rest.tail then
    throw .tabbedIndent
  let s := if rest.head?.any isBreak || atFlow rest then s.deepen else s
  let s ← s.dropKey
  return { s with keyAllowed := true }.emit .entry

/-- The question mark before a key of any kind.  There must be space behind it, and no
tab before the key. -/
def questionMark (s : Scan) : Except Fault Scan := do
  if !s.inFlow && !s.keyAllowed then throw .misplacedIndicator
  let s := s.openBlock s.cursor.column s.tokens.size .blockMapping
  let s ← s.dropKey
  let s := { s with keyAllowed := !s.inFlow, announced := s.announced || s.inFlow }.pass 1
  let rest := Gap.afterSpaces false s.cursor.rest
  if s.cursor.rest.isEmpty || rest.head? == some '\t' then throw .misplacedIndicator
  return (s.goto rest).emit .key

/-- The colon after a key. -/
def colon (s : Scan) : Except Fault Scan := do
  let line := s.cursor.line
  let column := s.cursor.column
  let s := { s with unannounced := s.inFlow && !s.announced }.pass 1
  let s ←
    if s.cursor.rest.head? == some '\t' then do
      let blanks := s.cursor.rest.takeWhile isBlank
      let s ← s.skipLine
      if !blanks.contains ' ' && s.cursor.rest.head?.any isNameChar then
        throw .tabbedIndent
      pure s
    else pure s
  match s.candidate with
  | some k =>
      if s.unannounced && decide (k.line < line) then throw .misplacedIndicator
      let signs := if s.unannounced then #[.flowMapping, .key] else #[.key]
      let s := (s.insertAt k.position signs).openBlock k.column k.position .blockMapping
      return { s.deepen with candidate := none, keyAllowed := false }.emit .value
  | none =>
      let s := if s.unannounced then s.emit .flowMapping else s
      if !s.inFlow && !s.keyAllowed then throw .misplacedIndicator
      let s := (s.openBlock column s.tokens.size .blockMapping).deepen
      return { s with keyAllowed := !s.inFlow }.emit .value

/-- The name after an anchor or an alias. -/
def name (s : Scan) : Except Fault String :=
  match s.cursor.rest.tail.takeWhile isAnchorChar with
  | [] => .error .namelessAnchor
  | cs => .ok (String.ofList cs)

/-- An alias. -/
def reference (s : Scan) : Except Fault Scan := do
  let name ← s.name
  let s := { s.markKey with keyAllowed := false }
  return (s.pass (name.length + 1)).emit (.reference name)

/-- Adds a part that says something about the one after it. -/
def emitProperty (s : Scan) (t : Token) (column : Nat) : Scan :=
  { s.emit t with margin := if column = 0 then some (s.tokens.size + 1) else none }

/-- An anchor. -/
def anchor (s : Scan) : Except Fault Scan := do
  let name ← s.name
  let column := s.cursor.column
  let s := { s.markKey with keyAllowed := false }
  return (s.pass (name.length + 1)).emitProperty (.anchor name) column

/-- A tag. -/
def tag (s : Scan) : Except Fault Scan := do
  let column := s.cursor.column
  let s := { s.markKey with keyAllowed := false }
  let (token, rest) ← Tag.read s.inFlow s.cursor.rest.tail
  return (s.goto rest).emitProperty token column

/-- A block text. -/
def block (s : Scan) (literal : Bool) : Except Fault Scan := do
  let s := { s.markKey with keyAllowed := true }
  let s := { s with levels := dropLoose s.levels }
  let (text, rest) ← Block.body literal s.level? s.cursor.rest.tail
  return (s.goto rest).emit (.scalar false (String.ofList text))

/-- A text between quotes.  On its line only a comment may follow, the colon of a key,
or the notation of a flow collection around it. -/
def quoted (s : Scan) (q : Quoted.Quote) : Except Fault Scan := do
  let line := s.cursor.line
  let s := { s.markKey with keyAllowed := false }
  let (text, rest) ← Quoted.body q s.depth s.cursor.rest.tail
  let s ← (s.goto rest).skipLine
  let fits := match s.cursor.rest with
    | [] => true
    | c :: _ =>
        isBreak c
          || (c == ':' && (s.inFlow || s.cursor.line == line))
          || (s.inFlow && (c == ',' || c == ']' || c == '\x7d'))
  unless fits do throw .trailingContent
  let s ← s.skipSpace
  return { s with adjacent := s.cursor.index }.emit (.scalar false (String.ofList text))

/-- A text without quotes. -/
def plain (s : Scan) : Except Fault Scan := do
  let s := { s.markKey with keyAllowed := false }
  let s := { s with levels := dropLoose s.levels }
  let depth := (s.level?.map (· + 1)).getD 0
  if s.inFlow && decide (s.cursor.column < depth) then throw .shallowLine
  let extent ← Plain.body s.inFlow depth s.cursor.rest
  let s := (s.goto extent.rest).emit (.scalar true (String.ofList extent.text))
  return if extent.endsLine then { s with keyAllowed := true } else s

/-- The part that begins with some character. -/
def part (s : Scan) (c : Char) (cs : List Char) : Except Fault Scan :=
  match c with
  | '[' => s.flowStart .flowSequence
  | '\x7b' => s.flowStart .flowMapping
  | ']' => s.flowEnd .flowSequenceEnd
  | '\x7d' => s.flowEnd .flowMappingEnd
  | ',' => s.comma
  | '-' => if atGap cs then s.entry else s.plain
  | '?' => if atGap cs then s.questionMark else s.plain
  | ':' =>
      if atGap cs || (s.inFlow && (atFlow cs || s.cursor.index == s.adjacent)) then s.colon
      else s.plain
  | '*' => s.reference
  | '&' => s.anchor
  | '!' => s.tag
  | '|' => if s.inFlow then s.plain else s.block true
  | '>' => if s.inFlow then s.plain else s.block false
  | '\'' => s.quoted .single
  | '"' => s.quoted .double
  | '%' => .error .misplacedIndicator
  | '@' => .error .misplacedIndicator
  | '\x60' => .error .misplacedIndicator
  | _ => s.plain

/-- The next part, or nothing at the end of the text. -/
def step (s : Scan) : Except Fault (Option Scan) := do
  let s ← s.skipSpace
  let s ← s.dropStaleKey
  let s := s.closeBlocks (some s.cursor.column)
  match s.cursor.rest with
  | [] => return none
  | c :: cs =>
      let atMargin := s.cursor.column == 0
      if atMargin && c == '%' then return some (← s.directive)
      if atMargin && atMark '-' (c :: cs) then
        return some (← s.documentMark .documentStart)
      if atMargin && atMark '.' (c :: cs) then return some (← s.documentMark .documentEnd)
      if s.cursor.column < s.depth then throw .shallowLine
      return some (← s.part c cs)

/-- The parts of the rest of a text.  The number bounds them. -/
def run : Nat → Scan → Except Fault Scan
  | 0, s => s.finish
  | n + 1, s =>
      match s.step with
      | .error e => .error e
      | .ok none => s.finish
      | .ok (some s) => run n s

end Scan

/-- The parts of a text. -/
def tokens (text : List Char) : Except Fault (List Token) :=
  let text := untilNull text
  match Scan.run (text.length + 1) { cursor := { rest := text } } with
  | .error e => .error e
  | .ok s => .ok s.tokens.toList

end Yaml
end Replication
