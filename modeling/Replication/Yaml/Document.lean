import Replication.Yaml.Node
import Replication.Yaml.Scan

/-!
# Documents

The parts of a text make up documents, of which a text read here may have one at most.
A value may carry an anchor, by which an alias refers to it later in the document; an
alias inside the very value it refers to has nothing to stand for yet.
-/

namespace Replication
namespace Yaml

/-- The parts that are left, and what has been learned from those before. -/
structure Remainder where
  tokens : List Token
  /-- What the declared handle stands for, if there is one. -/
  handles : List (String × String) := []
  /-- The places of the anchors, the latest first. -/
  anchors : List (String × Nat) := []
  /-- The values at these places, once they are complete. -/
  values : List (Nat × Node) := []

namespace Remainder

/-- The next part. -/
def head? (r : Remainder) : Option Token := r.tokens.head?

/-- What follows the next part. -/
def tail (r : Remainder) : Remainder := { r with tokens := r.tokens.tail }

/-- What is left when a value that carries an anchor is complete. -/
def complete (r : Remainder) (place : Option Nat) (v : Node) : Remainder :=
  match place with
  | none => r
  | some i => { r with values := (i, v) :: r.values }

/-- The value that an alias stands for. -/
def valueOf (r : Remainder) (name : String) : Except Fault Node :=
  match r.anchors.lookup name with
  | none => .error .unknownAnchor
  | some i => .ok ((r.values.lookup i).getD .unfit)

/-- The kind that a tag names, if it is one of YAML itself. -/
def kindOf (r : Remainder) (handle suffix : String) : Except Fault (Option String) :=
  match r.handles.lookup handle with
  | some meaning => .ok (if meaning = coreMeaning then some suffix else none)
  | none =>
      if handle = "!!" then .ok (some suffix)
      else if Tag.isClosed handle.toList then .error .malformedTag
      else .ok none

/-- What is said about a value before it. -/
structure Properties where
  /-- The place of its anchor. -/
  place : Option Nat := none
  isTagged : Bool := false
  /-- The kind that its tag names, if it is one of YAML itself. -/
  kind : Option String := none

/-- An anchor in front of a value. -/
def anchored (r : Remainder) (name : String) : Nat × Remainder :=
  let place := r.anchors.length
  (place, { r.tail with anchors := (name, place) :: r.anchors })

/-- The anchor and the tag in front of a value, in either order. -/
def properties (r : Remainder) : Except Fault (Properties × Remainder) :=
  match r.head? with
  | some (.anchor name) =>
      let (place, r) := r.anchored name
      match r.head? with
      | some (.tag handle suffix) =>
          match r.kindOf handle suffix with
          | .error e => .error e
          | .ok kind => .ok (⟨some place, true, kind⟩, r.tail)
      | _ => .ok (⟨some place, false, none⟩, r)
  | some (.tag handle suffix) =>
      match r.kindOf handle suffix with
      | .error e => .error e
      | .ok kind =>
          let r := r.tail
          match r.head? with
          | some (.anchor name) =>
              let (place, r) := r.anchored name
              .ok (⟨some place, true, kind⟩, r)
          | _ => .ok (⟨none, true, kind⟩, r)
  | _ => .ok ({}, r)

/-- What a text stands for. -/
def Properties.scalar (p : Properties) (plain : Bool) (s : String) : Node :=
  if !plain then .text s
  else if !p.isTagged then .ofPlain s
  else
    match p.kind with
    | some kind => .ofTagged kind s
    | none => .text s

/-- Whether a value of a block mapping is left out. -/
def isNextKey : Option Token → Bool
  | some .key => true
  | some .value => true
  | some .blockEnd => true
  | _ => false

/-- The mapping whose keys and values have been read, the latest first. -/
def mapped (done : List Node) (r : Remainder) : Except Fault (Node × Remainder) :=
  match Node.ofPairs? done.reverse with
  | some v => .ok (v, r)
  | none => .error .repeatedKey

mutual

/-- A value.  The flag `block` says that block collections may begin here, the flag
`bare` that an entry does so.  The number bounds the steps, here and below. -/
def node (block bare : Bool) : Nat → Remainder → Except Fault (Node × Remainder)
  | 0, _ => .error .tooDeep
  | n + 1, r =>
      match r.head? with
      | some (.reference name) =>
          match r.valueOf name with
          | .error e => .error e
          | .ok v => .ok (v, r.tail)
      | _ =>
          match r.properties with
          | .error e => .error e
          | .ok (p, r) =>
              match content block bare p n r with
              | .error e => .error e
              | .ok (v, r) => .ok (v, r.complete p.place v)

/-- A value after its anchor and its tag.  With either of them it may be left out. -/
def content (block bare : Bool) (p : Properties) :
    Nat → Remainder → Except Fault (Node × Remainder)
  | 0, _ => .error .tooDeep
  | n + 1, r =>
      match r.head? with
      | some (.scalar plain s) => .ok (p.scalar plain s, r.tail)
      | some .flowSequence => flowSequence n true [] r.tail
      | some .flowMapping => flowMapping n true [] r.tail
      | t =>
          if bare && t == some .entry then bareSequence n [] r
          else if block && t == some .blockSequence then blockSequence n [] r.tail
          else if block && t == some .blockMapping then blockMapping n [] r.tail
          else if p.isTagged || p.place.isSome then .ok (p.scalar true "", r)
          else .error .unexpectedToken

/-- The entries of a block sequence and its end. -/
def blockSequence : Nat → List Node → Remainder → Except Fault (Node × Remainder)
  | 0, _, _ => .error .tooDeep
  | n + 1, done, r =>
      match r.head? with
      | some .blockEnd => .ok (.sequence done.reverse, r.tail)
      | some .entry =>
          let r := r.tail
          if r.head? == some .entry || r.head? == some .blockEnd then
            blockSequence n (.null :: done) r
          else
            match node true false n r with
            | .error e => .error e
            | .ok (v, r) => blockSequence n (v :: done) r
      | _ => .error .unexpectedToken

/-- The entries of a sequence that is no deeper than its key.  It has no end of its
own. -/
def bareSequence : Nat → List Node → Remainder → Except Fault (Node × Remainder)
  | 0, _, _ => .error .tooDeep
  | n + 1, done, r =>
      match r.head? with
      | some .entry =>
          let r := r.tail
          if r.head? == some .entry || isNextKey r.head? then
            bareSequence n (.null :: done) r
          else
            match node true false n r with
            | .error e => .error e
            | .ok (v, r) => bareSequence n (v :: done) r
      | _ => .ok (.sequence done.reverse, r)

/-- A key or a value of a block mapping after its sign.  It may be left out. -/
def blockItem : Nat → Remainder → Except Fault (Node × Remainder)
  | 0, _ => .error .tooDeep
  | n + 1, r => if isNextKey r.head? then .ok (.null, r) else node true true n r

/-- The value of a block mapping, which may be left out with its sign. -/
def blockValue : Nat → Remainder → Except Fault (Node × Remainder)
  | 0, _ => .error .tooDeep
  | n + 1, r =>
      match r.head? with
      | some .value => blockItem n r.tail
      | _ => .ok (.null, r)

/-- The keys and values of a block mapping, and its end. -/
def blockMapping : Nat → List Node → Remainder → Except Fault (Node × Remainder)
  | 0, _, _ => .error .tooDeep
  | n + 1, done, r =>
      match r.head? with
      | some .blockEnd => mapped done r.tail
      | some .key =>
          match blockItem n r.tail with
          | .error e => .error e
          | .ok (k, r) =>
              match blockValue n r with
              | .error e => .error e
              | .ok (v, r) => blockMapping n (v :: k :: done) r
      | some .value =>
          match blockValue n r with
          | .error e => .error e
          | .ok (v, r) => blockMapping n (v :: .null :: done) r
      | _ => .error .unexpectedToken

/-- A key or a value of a flow collection after its sign.  It is left out where the
next sign or an end follows. -/
def flowItem (ends : List Token) : Nat → Remainder → Except Fault (Node × Remainder)
  | 0, _ => .error .tooDeep
  | n + 1, r =>
      if r.head?.any ends.contains then .ok (.null, r) else node false false n r

/-- The value of a flow mapping, which may be left out with its sign. -/
def flowValue (ends : List Token) : Nat → Remainder → Except Fault (Node × Remainder)
  | 0, _ => .error .tooDeep
  | n + 1, r =>
      match r.head? with
      | some .value => flowItem ends n r.tail
      | _ => .ok (.null, r)

/-- The keys and values of a flow mapping, and its end.  The flag says that none has
been read: every other is after a comma. -/
def flowMapping : Nat → Bool → List Node → Remainder → Except Fault (Node × Remainder)
  | 0, _, _, _ => .error .tooDeep
  | n + 1, first, done, r =>
      if r.head? == some .flowMappingEnd then mapped done r.tail
      else if !first && r.head? != some .comma then .error .unexpectedToken
      else
        let r := if first then r else r.tail
        match r.head? with
        | some .flowMappingEnd => mapped done r.tail
        | some .key =>
            match flowItem [.value, .comma, .flowMappingEnd] n r.tail with
            | .error e => .error e
            | .ok (k, r) =>
                match flowValue [.comma, .flowMappingEnd] n r with
                | .error e => .error e
                | .ok (v, r) => flowMapping n false (v :: k :: done) r
        | some .value =>
            match flowValue [.comma, .flowMappingEnd] n r with
            | .error e => .error e
            | .ok (v, r) => flowMapping n false (v :: .null :: done) r
        | _ =>
            match node false false n r with
            | .error e => .error e
            | .ok (k, r) => flowMapping n false (.null :: k :: done) r

/-- A key in a flow sequence after its sign.  Where it is left out, the part that shows
it is passed over, be it an end. -/
def soleKey : Nat → Remainder → Except Fault (Node × Remainder)
  | 0, _ => .error .tooDeep
  | n + 1, r =>
      if r.head?.any [Token.value, .comma, .flowSequenceEnd].contains then
        .ok (.null, r.tail)
      else node false false n r

/-- The entries of a flow sequence, and its end.  An entry with a key is a mapping by
itself. -/
def flowSequence : Nat → Bool → List Node → Remainder → Except Fault (Node × Remainder)
  | 0, _, _, _ => .error .tooDeep
  | n + 1, first, done, r =>
      if r.head? == some .flowSequenceEnd then .ok (.sequence done.reverse, r.tail)
      else if !first && r.head? != some .comma then .error .unexpectedToken
      else
        let r := if first then r else r.tail
        match r.head? with
        | some .flowSequenceEnd => .ok (.sequence done.reverse, r.tail)
        | some .key =>
            match soleKey n r.tail with
            | .error e => .error e
            | .ok (k, r) =>
                match flowValue [.comma, .flowSequenceEnd] n r with
                | .error e => .error e
                | .ok (v, r) =>
                    flowSequence n false (.mapping (Node.pairUp [k, v]) :: done) r
        | _ =>
            match node false false n r with
            | .error e => .error e
            | .ok (v, r) => flowSequence n false (v :: done) r

end

/-- What is left without the ends of documents in front. -/
def skipEnds (r : Remainder) : Remainder :=
  { r with tokens := r.tokens.dropWhile (· == .documentEnd) }

/-- The directives in front of a document, the flag saying that the version was given.
It may be given once.  Each directive takes the place of the one before it, so that
only the last one declares a handle. -/
def directives (given : Bool) (handles : List (String × String)) :
    List Token → Except Fault (List (String × String) × List Token)
  | .version :: ts =>
      if given then .error .malformedDirective else directives true [] ts
  | .handle name meaning :: ts => directives given [(name, meaning)] ts
  | ts => .ok (handles, ts)

/-- The start of a document: directives need a mark after them. -/
def start (r : Remainder) : Except Fault (Bool × Remainder) := do
  let (handles, tokens) ← directives false [] r.tokens
  match tokens with
  | .documentStart :: ts => return (true, { r with tokens := ts, handles })
  | ts =>
      if ts.length = r.tokens.length then return (false, r)
      else throw .unexpectedToken

/-- The value of a document.  After a mark it may be left out. -/
def document (r : Remainder) : Except Fault (Node × Remainder) := do
  let (isMarked, r) ← r.start
  let isLeftOut := match r.head? with
    | none => true
    | some .documentEnd => true
    | some .documentStart => true
    | some .version => true
    | some (.handle _ _) => true
    | _ => false
  if isMarked && isLeftOut then return (.null, r)
  else node true false (4 * r.tokens.length + 4) r

end Remainder

/-- The value of a text, if there is one: a text of nothing but space and comments has
none. -/
def read (text : String) : Except Fault (Option Node) := do
  let r := Remainder.skipEnds { tokens := ← tokens text.toList }
  if r.tokens.isEmpty then return none
  let (v, r) ← r.document
  if r.skipEnds.tokens.isEmpty then return some v
  else throw .severalDocuments

end Yaml
end Replication
