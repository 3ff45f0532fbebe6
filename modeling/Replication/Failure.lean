/-!
# Failures

A failure says what went wrong in a form that a caller can act on.  A single
failure has a kind, a fixed description and perhaps a detail that names the
thing at fault.  Work that goes on after a first mishap ends in several failures
at once, so failures also aggregate, to any depth.

An aggregate is read through its leaves: its kinds are the kinds of its leaves
from left to right, and its detail is the first detail among them.  Two failures
*agree* when a caller that looks only at shape, kind and presence of a detail
cannot tell them apart; the wording does not count.
-/

namespace Replication

namespace Failure

/-- The category of a failure, by which callers decide what to do. -/
inductive Kind where
  /-- A setting is missing or wrong. -/
  | config
  /-- A listing does not follow its format. -/
  | listingCorrupted
  /-- A plan was asked for that no listing can have. -/
  | invalidPlan
  /-- The operation does not apply to this table. -/
  | unsupportedOperation
  /-- A location has no counterpart in the replica. -/
  | invalidLocation
  /-- The messaging channel refused a notification. -/
  | publishFailed
  /-- A location was not accepted for deletion. -/
  | cleanupFailed
  /-- The catalog refused the report of deprecated locations. -/
  | catalogListenerFailed
  /-- Reading or writing failed. -/
  | inputOutput
  /-- A value could not be written as, or read from, text. -/
  | serialization
  /-- An argument is out of range. -/
  | invalidData
  /-- Nothing is known, as of an empty aggregate. -/
  | unknown
  deriving DecidableEq, Repr

namespace Kind

/-- Every kind, in the order of the declaration. -/
def all : List Kind :=
  [config, listingCorrupted, invalidPlan, unsupportedOperation, invalidLocation,
    publishFailed, cleanupFailed, catalogListenerFailed, inputOutput,
    serialization, invalidData, unknown]

/-- The name under which a kind is reported. -/
def name : Kind → String
  | config => "ConfigError"
  | listingCorrupted => "ListingCorrupted"
  | invalidPlan => "InvalidPlan"
  | unsupportedOperation => "UnsupportedOperation"
  | invalidLocation => "InvalidLocation"
  | publishFailed => "PublishFailed"
  | cleanupFailed => "CleanupFailed"
  | catalogListenerFailed => "CatalogListenerFailed"
  | inputOutput => "IoError"
  | serialization => "SerializationError"
  | invalidData => "InvalidData"
  | unknown => "Unknown"

/-- The kind with a given name. -/
def ofName? (s : String) : Option Kind :=
  all.find? fun k => k.name == s

end Kind

end Failure

/-- What went wrong: one failure, or several in the order in which they arose. -/
inductive Failure where
  | single (kind : Failure.Kind) (description : String) (detail : Option String)
  | many (parts : List Failure)
  deriving Repr

namespace Failure

/-- A failure described by a fixed text alone. -/
def plain (kind : Kind) (description : String) : Failure :=
  single kind description none

/-- A failure that also names the thing at fault. -/
def detailed (kind : Kind) (description detail : String) : Failure :=
  single kind description (some detail)

/-- The kind of a failure is that of its first part; an empty aggregate has none
to offer. -/
def kind : Failure → Kind
  | single k _ _ => k
  | many [] => .unknown
  | many (f :: _) => f.kind

mutual

/-- The kinds of all leaves, from left to right. -/
def kinds : Failure → List Kind
  | single k _ _ => [k]
  | many fs => kindsAll fs

/-- The kinds of all leaves of a list of failures. -/
def kindsAll : List Failure → List Kind
  | [] => []
  | f :: fs => f.kinds ++ kindsAll fs

end

mutual

/-- The detail of the leftmost leaf that has one. -/
def detail? : Failure → Option String
  | single _ _ d => d
  | many fs => firstDetail? fs

/-- The first detail in a list of failures. -/
def firstDetail? : List Failure → Option String
  | [] => none
  | f :: fs => f.detail?.or (firstDetail? fs)

end

mutual

/-- The text of a failure.  An aggregate of one reads as its part; a longer one
numbers its parts from one, each on a line of its own. -/
def render : Failure → String
  | single k s none => k.name ++ ": " ++ s
  | single k s (some d) => k.name ++ ": " ++ s ++ " -> " ++ d
  | many [] => "Multiple errors occurred (empty)"
  | many [f] => f.render
  | many (f :: g :: fs) =>
      "Multiple errors occurred (" ++ toString (fs.length + 2) ++ " total):"
        ++ renderNumbered 1 (f :: g :: fs)

/-- The lines of an aggregate, numbered from the given number on. -/
def renderNumbered : Nat → List Failure → String
  | _, [] => ""
  | i, f :: fs =>
      "\n  " ++ toString i ++ ": " ++ f.render ++ renderNumbered (i + 1) fs

end

mutual

/-- Whether two failures have the same shape and, leaf by leaf, the same kind and
both or neither a detail. -/
def agrees : Failure → Failure → Bool
  | single k _ d, single l _ e => k == l && d.isSome == e.isSome
  | many fs, many gs => agreesAll fs gs
  | single _ _ _, many _ => false
  | many _, single _ _ _ => false

/-- Whether two lists of failures agree part by part. -/
def agreesAll : List Failure → List Failure → Bool
  | [], [] => true
  | f :: fs, g :: gs => agrees f g && agreesAll fs gs
  | [], _ :: _ => false
  | _ :: _, [] => false

end

instance : BEq Failure := ⟨agrees⟩

/-- The outcome of work that collected failures on its way: none is success, one
is returned bare, and several are returned together. -/
def ofList : List Failure → Except Failure Unit
  | [] => .ok ()
  | [f] => .error f
  | f :: g :: fs => .error (many (f :: g :: fs))

theorem kinds_many (fs : List Failure) : (many fs).kinds = fs.flatMap kinds := by
  induction fs with
  | nil => simp [kinds, kindsAll]
  | cons f fs ih =>
      simp only [kinds, kindsAll, List.flatMap_cons] at ih ⊢
      rw [ih]

/-- Work that collected no failures is a success. -/
theorem ofList_eq_ok_iff {fs : List Failure} : ofList fs = .ok () ↔ fs = [] := by
  rcases fs with _ | ⟨f, _ | ⟨g, fs⟩⟩ <;> simp [ofList]

/-- Failures that are returned together keep their kinds and the order of these. -/
theorem kinds_of_ofList_eq_error {fs : List Failure} {f : Failure}
    (h : ofList fs = .error f) : f.kinds = fs.flatMap kinds := by
  rcases fs with _ | ⟨g, _ | ⟨g', fs⟩⟩
  · cases h
  · cases h
    exact (List.flatMap_singleton kinds f).symm
  · cases h
    exact kinds_many _

theorem detail?_many (fs : List Failure) :
    (many fs).detail? = fs.findSome? detail? := by
  induction fs with
  | nil => simp [detail?, firstDetail?]
  | cons f fs ih =>
      simp only [detail?, firstDetail?, List.findSome?_cons] at ih ⊢
      cases f.detail? with
      | none => simpa using ih
      | some d => rfl

end Failure

end Replication
