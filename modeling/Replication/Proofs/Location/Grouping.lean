import Replication.Proofs.Location.Stripping

/-!
# Joining is associative

A child may itself be a location to which something was joined.  Joining cuts the parent at its
end and the child at its beginning, so the text in the middle of three is cut once at each end,
whichever of the two joins comes first: what is left of it is the text trimmed.  The case to
look at is a middle text of nothing but slashes.  Then the first join leaves the parent as it
is, and the other way round the child is joined to a location of slashes, which are lost again
when that is joined to the parent.

A `Grouping` says in which order a number of locations are joined.  The joins of a grouping may
be carried out one after the other from the left instead, and so all groupings of the same
texts reach the same location.

* `join_join`: the law for three texts.
* `joining_is_associative`: the law for three texts, and for any number of them.
-/

namespace Replication
namespace Location

variable {s t : List Char} {l m : Location} {child : String}

/-- A text loses the slashes of its first part, and those of its second part if nothing else
is before them. -/
theorem trimStart_append (s t : List Char) :
    trimStart (s ++ t) = if trimStart s = [] then trimStart t else trimStart s ++ t := by
  rw [trimStart, trimStart, trimStart, List.dropWhile_append]
  by_cases h : s.dropWhile (· == '/') = []
  · rw [if_pos (List.isEmpty_iff.2 h), if_pos h]
  · rw [if_neg (mt List.isEmpty_iff.1 h), if_neg h]

theorem trim_eq_nil_iff : trim s = [] ↔ trimStart s = [] := by
  rw [← trimEnd_trimStart]
  constructor
  · intro h
    cases hs : trimStart s with
    | nil => rfl
    | cons c cs =>
      rw [hs, trimEnd_eq_nil_iff] at h
      exact absurd (h c List.mem_cons_self) (head_ne_of_trimStart_eq_cons hs)
  · intro h
    rw [h, trimEnd_nil]

theorem ext_toList (h : l.text.toList = m.text.toList) : l = m := by
  cases l
  cases m
  exact congrArg Location.mk (String.toList_inj.1 h)

/-! ## What is left of a joined location -/

theorem text_join (h : trimStart child.toList ≠ []) (l : Location) :
    (l.join child).text.toList = trimEnd l.text.toList ++ '/' :: trimStart child.toList := by
  obtain ⟨c, cs, hchild⟩ := List.exists_cons_of_ne_nil h
  rw [join, hchild]
  exact String.toList_ofList

/-- As a parent, a joined location ends where the child ends, or where the parent does if
nothing of the child is left. -/
theorem trimEnd_text_join (l : Location) (child : String) :
    trimEnd (l.join child).text.toList =
      if trim child.toList = [] then trimEnd l.text.toList
      else trimEnd l.text.toList ++ '/' :: trim child.toList := by
  by_cases h : trimStart child.toList = []
  · rw [join_of_trimStart_eq_nil h, if_pos (trim_eq_nil_iff.2 h)]
  · have hcons : trimEnd ('/' :: trimStart child.toList) = '/' :: trim child.toList := by
      have happend := trimEnd_append ['/'] (trimStart child.toList)
      rwa [trimEnd_trimStart, if_neg (mt trim_eq_nil_iff.1 h)] at happend
    rw [text_join h, trimEnd_append, hcons, if_neg (List.cons_ne_nil _ _),
      if_neg (mt trim_eq_nil_iff.1 h)]

/-- As a child, a joined location begins where the parent begins, or where the child does if
the parent is slashes. -/
theorem trimStart_text_join (h : trimStart child.toList ≠ []) (l : Location) :
    trimStart (l.join child).text.toList =
      if trim l.text.toList = [] then trimStart child.toList
      else trim l.text.toList ++ '/' :: trimStart child.toList := by
  have hidem : trimStart (trimStart child.toList) = trimStart child.toList :=
    List.dropWhile_idempotent _ _
  rw [text_join h, trimStart_append, trimStart_slash, hidem]
  rfl

/-- **Three texts** are joined to one location, whichever two are joined first. -/
theorem join_join (l : Location) (b c : String) :
    (l.join b).join c = l.join ((Location.mk b).join c).text := by
  by_cases hc : trimStart c.toList = []
  · rw [join_of_trimStart_eq_nil hc, join_of_trimStart_eq_nil hc]
  · have hinner := trimStart_text_join hc ⟨b⟩
    have hne : trimStart ((Location.mk b).join c).text.toList ≠ [] := by
      rw [hinner]
      split
      · exact hc
      · exact List.append_ne_nil_of_right_ne_nil _ (List.cons_ne_nil _ _)
    refine ext_toList ?_
    rw [text_join hc, text_join hne, hinner, trimEnd_text_join]
    split
    · rfl
    · rw [List.append_assoc, List.cons_append]

/-! ## Any number of texts -/

/-- Texts and the joins between them, in the order in which they are carried out. -/
inductive Grouping where
  | text (s : String)
  | join (parent child : Grouping)

namespace Grouping

/-- The location that the joins of a grouping lead to. -/
def location : Grouping → Location
  | text s => ⟨s⟩
  | join p c => p.location.join c.location.text

/-- The leftmost text of a grouping. -/
def first : Grouping → String
  | text s => s
  | join p _ => p.first

/-- The texts of a grouping behind the leftmost one, from left to right. -/
def rest : Grouping → List String
  | text _ => []
  | join p c => p.rest ++ c.first :: c.rest

end Grouping

/-- Children that are joined one after the other may be joined to one another first. -/
theorem foldl_join (l : Location) (s : String) (cs : List String) :
    (s :: cs).foldl join l = l.join (cs.foldl join ⟨s⟩).text := by
  induction cs generalizing s with
  | nil => rfl
  | cons c cs ih =>
    have hjoin : (⟨s⟩ : Location).join c = ⟨((⟨s⟩ : Location).join c).text⟩ := rfl
    rw [List.foldl_cons, List.foldl_cons, join_join, List.foldl_cons, hjoin, ← ih,
      List.foldl_cons]

/-- **The joins of a grouping** may be carried out one after the other. -/
theorem Grouping.location_eq_foldl (g : Grouping) :
    g.location = g.rest.foldl Location.join ⟨g.first⟩ := by
  induction g with
  | text s => rfl
  | join p c ihp ihc =>
    rw [location, rest, first, List.foldl_append, foldl_join, ← ihp, ← ihc]

/-- **Joining is associative.**  This holds of any three texts, and so the location that is
reached from a text by joining children to it does not depend on how the joins are grouped. -/
theorem joining_is_associative :
    (∀ a b c : String, ((Location.mk a).join b).join c =
      (Location.mk a).join ((Location.mk b).join c).text) ∧
    ∀ g : Grouping, g.location = g.rest.foldl join ⟨g.first⟩ := by
  refine ⟨fun a b c => ?_, fun g => ?_⟩
  · exact join_join ⟨a⟩ b c
  · exact g.location_eq_foldl

end Location
end Replication
