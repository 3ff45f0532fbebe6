import Replication.Proofs.Json.Reader

/-!
# How long the text of a value is

What a channel limits is the length of a text in UTF-8, and not its number of characters.  The
compact text of an object is made up of its members, and each of them is preceded by one
character, a bracket or a comma.  So a member counts for the same number of bytes wherever it
stands, and an object is as long as its members together, with one byte for its end.

* `size_object`: the length of an object is a sum over its members.
* `two_le_size_array`, `size_array_eq_two_iff`: of all lists the empty one has the shortest text.
-/

namespace Replication
namespace Json

/-- The number of bytes of some characters. -/
def textSize : List Char → Nat
  | [] => 0
  | c :: s => c.utf8Size + textSize s

@[simp] theorem textSize_nil : textSize [] = 0 := rfl

@[simp] theorem textSize_cons (c : Char) (s : List Char) :
    textSize (c :: s) = c.utf8Size + textSize s := rfl

@[simp] theorem textSize_append (s t : List Char) :
    textSize (s ++ t) = textSize s + textSize t := by
  induction s with
  | nil => rw [List.nil_append, textSize_nil, Nat.zero_add]
  | cons c s ih => rw [List.cons_append, textSize_cons, textSize_cons, ih, Nat.add_assoc]

theorem utf8ByteSize_ofList (s : List Char) : (String.ofList s).utf8ByteSize = textSize s := by
  induction s with
  | nil => rw [String.ofList_nil, String.utf8ByteSize_empty, textSize_nil]
  | cons c s ih =>
    rw [← List.singleton_append, String.ofList_append, String.utf8ByteSize_append, ih,
      ← String.singleton_eq_ofList, String.utf8ByteSize_singleton, List.singleton_append,
      textSize_cons]

/-- The number of bytes of the compact text of a value. -/
def size (v : Json) : Nat :=
  textSize v.render

theorem utf8ByteSize_toText (v : Json) : v.toText.utf8ByteSize = v.size :=
  utf8ByteSize_ofList v.render

theorem one_le_size (v : Json) : 1 ≤ v.size := by
  obtain ⟨c, s, h, -⟩ := render_eq_cons v
  rw [size, h, textSize_cons]
  exact Nat.le_add_right_of_le c.utf8Size_pos

/-! ## Objects -/

/-- The number of bytes of a member: its name, its value, the colon between the two, and the
bracket or the comma in front of it. -/
def memberSize (p : String × Json) : Nat :=
  textSize (renderText p.1.toList) + p.2.size + 2

/-- The number of bytes of some members. -/
def membersSize : List (String × Json) → Nat
  | [] => 0
  | p :: ms => memberSize p + membersSize ms

@[simp] theorem membersSize_nil : membersSize [] = 0 := rfl

@[simp] theorem membersSize_cons (p : String × Json) (ms : List (String × Json)) :
    membersSize (p :: ms) = memberSize p + membersSize ms := rfl

@[simp] theorem membersSize_append (ms ns : List (String × Json)) :
    membersSize (ms ++ ns) = membersSize ms + membersSize ns := by
  induction ms with
  | nil => rw [List.nil_append, membersSize_nil, Nat.zero_add]
  | cons p ms ih => rw [List.cons_append, membersSize_cons, membersSize_cons, ih, Nat.add_assoc]

theorem textSize_renderMembers (ms : List (String × Json)) :
    textSize (renderMembers ms) = membersSize ms + 1 := by
  induction ms with
  | nil => simp [renderMembers, Char.utf8Size]
  | cons p ms ih =>
    obtain ⟨k, v⟩ := p
    have hcomma : (',' : Char).utf8Size = 1 := by decide
    have hcolon : (':' : Char).utf8Size = 1 := by decide
    simp only [renderMembers, textSize_append, textSize_cons, ih, membersSize_cons, memberSize,
      size, hcomma, hcolon]
    omega

/-- **An object is as long as its members**, and one byte for its end. -/
theorem size_object {ms : List (String × Json)} (h : ms ≠ []) :
    (object ms).size = membersSize ms + 1 := by
  obtain ⟨⟨k, v⟩, ms, rfl⟩ := List.exists_cons_of_ne_nil h
  have hopen : ('\x7b' : Char).utf8Size = 1 := by decide
  have hcolon : (':' : Char).utf8Size = 1 := by decide
  simp only [size, render, textSize_append, textSize_cons, textSize_renderMembers,
    membersSize_cons, memberSize, hopen, hcolon]
  omega

/-! ## Lists -/

theorem size_array_nil : (array []).size = 2 := by
  simp [size, render, Char.utf8Size]

theorem size_array_cons (v : Json) (vs : List Json) : 2 < (array (v :: vs)).size := by
  have hopen : ('[' : Char).utf8Size = 1 := by decide
  have hv := one_le_size v
  have hrest : 1 ≤ textSize (renderItems vs) := by
    cases vs with
    | nil => simp [renderItems, Char.utf8Size]
    | cons w ws =>
      simp only [renderItems, List.cons_append, textSize_cons]
      exact Nat.le_add_right_of_le (Char.utf8Size_pos _)
  rw [size] at hv ⊢
  rw [render, textSize_append, textSize_cons, hopen]
  omega

theorem two_le_size_array (vs : List Json) : 2 ≤ (array vs).size := by
  cases vs with
  | nil => exact Nat.le_of_eq size_array_nil.symm
  | cons v vs => exact Nat.le_of_lt (size_array_cons v vs)

theorem size_array_eq_two_iff {vs : List Json} : (array vs).size = 2 ↔ vs = [] := by
  cases vs with
  | nil => exact iff_of_true size_array_nil rfl
  | cons v vs => exact iff_of_false (Nat.ne_of_gt (size_array_cons v vs)) (List.cons_ne_nil v vs)

end Json
end Replication
