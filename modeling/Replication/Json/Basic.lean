import Replication.Text.Quoted

/-!
# JSON values and their compact text

The values that messages and settings are made of: texts, natural numbers, flags,
and lists and objects of these.  An object keeps its members in the order in
which they are written.

The compact text of a value has no blanks.  Inside a text only the quote, the
backslash and the characters below the space are escaped; everything else stands
for itself.
-/

namespace Replication

/-- A JSON value. -/
inductive Json where
  | null
  | flag (b : Bool)
  | number (n : Nat)
  | text (s : String)
  | array (items : List Json)
  | object (members : List (String × Json))
  deriving Repr

namespace Json

/-- One character as it stands inside a text. -/
def escape (c : Char) : List Char :=
  if c = '"' then ['\\', '"']
  else if c = '\\' then ['\\', '\\']
  else if c = '\x08' then ['\\', 'b']
  else if c = '\x0c' then ['\\', 'f']
  else if c = '\n' then ['\\', 'n']
  else if c = '\r' then ['\\', 'r']
  else if c = '\t' then ['\\', 't']
  else if c.toNat < 32 then
    ['\\', 'u', '0', '0', Text.hexDigit (c.toNat / 16), Text.hexDigit (c.toNat % 16)]
  else [c]

/-- A text between quotes. -/
def renderText (s : List Char) : List Char :=
  '"' :: s.flatMap escape ++ ['"']

/-- The decimal digits of a number. -/
def renderNumber (n : Nat) : List Char :=
  Nat.toDigits 10 n

mutual

/-- The compact text of a value. -/
def render : Json → List Char
  | null => ['n', 'u', 'l', 'l']
  | flag true => ['t', 'r', 'u', 'e']
  | flag false => ['f', 'a', 'l', 's', 'e']
  | number n => renderNumber n
  | text s => renderText s.toList
  | array [] => ['[', ']']
  | array (v :: vs) => '[' :: v.render ++ renderItems vs
  | object [] => ['\x7b', '\x7d']
  | object ((k, v) :: ms) =>
      '\x7b' :: renderText k.toList ++ ':' :: v.render ++ renderMembers ms

/-- The items after the first, each after a comma, and the end of the list. -/
def renderItems : List Json → List Char
  | [] => [']']
  | v :: vs => ',' :: v.render ++ renderItems vs

/-- The members after the first, each after a comma, and the end of the object. -/
def renderMembers : List (String × Json) → List Char
  | [] => ['\x7d']
  | (k, v) :: ms =>
      ',' :: renderText k.toList ++ ':' :: v.render ++ renderMembers ms

end

/-- The compact text of a value, as a string. -/
def toText (v : Json) : String :=
  String.ofList v.render

/-- A list of texts. -/
def texts (ss : List String) : Json :=
  array (ss.map text)

/-- An object whose values are texts. -/
def dictionary (pairs : List (String × String)) : Json :=
  object (pairs.map fun p => (p.1, text p.2))

/-- A member that is left out when there is nothing to say. -/
def optionalMember (name : String) (v : Option Json) : List (String × Json) :=
  match v with
  | none => []
  | some v => [(name, v)]

/-- The value of a member; one that is absent or null has none. -/
def member? (v : Json) (name : String) : Option Json :=
  match v with
  | object ms =>
      match ms.lookup name with
      | some null => none
      | other => other
  | _ => none

/-- The text, if the value is one. -/
def asText? : Json → Option String
  | text s => some s
  | _ => none

/-- The number, if the value is one. -/
def asNumber? : Json → Option Nat
  | number n => some n
  | _ => none

/-- The flag, if the value is one. -/
def asFlag? : Json → Option Bool
  | flag b => some b
  | _ => none

/-- The items, if the value is a list. -/
def asArray? : Json → Option (List Json)
  | array vs => some vs
  | _ => none

/-- The members, if the value is an object of texts. -/
def asDictionary? : Json → Option (List (String × String))
  | object ms => ms.mapM fun m => m.2.asText?.map fun s => (m.1, s)
  | _ => none

/-- The texts, if the value is a list of texts. -/
def asTexts? (v : Json) : Option (List String) :=
  v.asArray?.bind fun vs => vs.mapM asText?

/-! ## What was put in comes out -/

theorem bind_map {α β : Type} {f : β → Option α} {g : α → β} (h : ∀ a, f (g a) = some a)
    (o : Option α) : (o.map g).bind f = o := by
  cases o with
  | none => rfl
  | some a => exact h a

theorem mapM_map {α β : Type} {f : β → Option α} {g : α → β} (h : ∀ a, f (g a) = some a)
    (as : List α) : (as.map g).mapM f = some as := by
  induction as with
  | nil => rfl
  | cons a as ih =>
      rw [List.map_cons, List.mapM_cons, h, ih]
      rfl

theorem asDictionary?_dictionary (ps : List (String × String)) :
    (dictionary ps).asDictionary? = some ps := by
  rw [dictionary, asDictionary?]
  refine mapM_map (fun p => ?_) ps
  rfl

theorem asTexts?_texts (ss : List String) : (texts ss).asTexts? = some ss := by
  rw [texts, asTexts?, asArray?, Option.bind_some]
  refine mapM_map (fun s => ?_) ss
  rfl

end Json

end Replication
