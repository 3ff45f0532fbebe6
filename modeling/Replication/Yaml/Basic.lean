/-!
# The parts of a YAML text

A text is first cut into parts: the signs of its notation and the texts between them.
Where a block collection begins and ends follows from the depth of its lines; these
places are parts of their own, so that after the cut no line matters any more.

A text that breaks the rules has no meaning at all: reading stops at the first thing
that cannot stand where it stands.
-/

namespace Replication
namespace Yaml

/-- A part of a YAML text. -/
inductive Token where
  /-- The directive that gives the version of the notation. -/
  | version
  /-- The directive that says what a handle of tags stands for. -/
  | handle (name meaning : String)
  | documentStart
  | documentEnd
  | blockSequence
  | blockMapping
  | blockEnd
  | flowSequence
  | flowSequenceEnd
  | flowMapping
  | flowMappingEnd
  /-- The dash before an entry of a block sequence. -/
  | entry
  /-- The comma between the entries of a flow collection. -/
  | comma
  | key
  | value
  | reference (name : String)
  | anchor (name : String)
  | tag (handle suffix : String)
  /-- A text, with the flag that it stands there without quotes. -/
  | scalar (plain : Bool) (text : String)
  deriving DecidableEq, Repr

/-- What is wrong with a YAML text. -/
inductive Fault where
  /-- A text between quotes has no end. -/
  | unfinishedText
  /-- No such escape exists in a text between double quotes. -/
  | unknownEscape
  /-- Something else follows on the line after a text between quotes. -/
  | trailingContent
  /-- A comment follows something else without a blank. -/
  | crowdedComment
  /-- A tab stands where the depth of a line is counted. -/
  | tabbedIndent
  /-- A line is not as deep as the collection it belongs to. -/
  | shallowLine
  /-- A block text is announced wrongly, or its lines do not agree. -/
  | malformedBlock
  /-- An indicator stands where it has no meaning. -/
  | misplacedIndicator
  /-- A key without its colon. -/
  | unfinishedKey
  /-- A directive that makes no sense. -/
  | malformedDirective
  /-- A tag that makes no sense, or whose handle is not declared. -/
  | malformedTag
  /-- An anchor or an alias without a name. -/
  | namelessAnchor
  /-- An alias of nothing. -/
  | unknownAnchor
  /-- A mapping with a key that it has already. -/
  | repeatedKey
  /-- Collections are nested too deeply. -/
  | tooDeep
  /-- Two parts that do not fit together. -/
  | unexpectedToken
  /-- More than one document. -/
  | severalDocuments
  deriving DecidableEq, Repr

end Yaml
end Replication
