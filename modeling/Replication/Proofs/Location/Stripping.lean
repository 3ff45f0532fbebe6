import Replication.Proofs.Location.Below

/-!
# Stripping undoes joining

Stripping and joining both cut slashes: joining those at the end of the parent and at the
beginning of the child, stripping those at the end of the root and at the end of the location.
What survives is the text of the child *trimmed* at both ends, whatever slashes the two sides
bring along.

A location `Extends` a root by all that stands behind the text of the root, slashes included.
Stripping and joining are both said by it: `below?_eq_some_iff` reads a path off what a location
extends the root by, and `exists_extends_join` says what a child extends its parent by.

* `below?_join`: stripping what was joined gives the child, trimmed.
* `join_eq_join_iff`: two children are joined to one location if they differ by the slashes they
  begin with, and only then.
-/

namespace Replication
namespace Location

/-- A text without the slashes it begins or ends with. -/
def trim (s : List Char) : List Char :=
  trimStart (trimEnd s)

/-- The text of the location is that of the root without the slashes at its end, followed by
some more that is empty or begins with a slash. -/
def Extends (l root : Location) (more : List Char) : Prop :=
  l.text.toList = trimEnd root.text.toList ++ more ∧ ∀ c ∈ more.head?, c = '/'

variable {s more : List Char} {l root : Location} {child a b path : String} {c : Char}

/-! ## Slashes at both ends -/

theorem trimStart_cons_of_ne (h : c ≠ '/') (s : List Char) : trimStart (c :: s) = c :: s :=
  List.dropWhile_cons_of_neg (by simpa using h)

theorem trimStart_eq_nil_iff : trimStart s = [] ↔ ∀ c ∈ s, c = '/' := by
  simp [trimStart, List.dropWhile_eq_nil_iff]

theorem trimEnd_eq_nil_iff : trimEnd s = [] ↔ ∀ c ∈ s, c = '/' := by
  simp [trimEnd, List.dropWhile_eq_nil_iff]

theorem head_ne_of_trimStart_eq_cons (h : trimStart s = c :: more) : c ≠ '/' := by
  rintro rfl
  have hhead := List.head?_dropWhile_not (· == '/') s
  rw [show s.dropWhile (· == '/') = '/' :: more from h] at hhead
  simp at hhead

theorem trimEnd_trimStart (s : List Char) : trimEnd (trimStart s) = trim s := by
  rw [trim]
  induction s with
  | nil => rfl
  | cons c s ih =>
    have hcons : trimEnd (c :: s) = if trimEnd s = [] then trimEnd [c] else c :: trimEnd s :=
      trimEnd_append [c] s
    by_cases hc : c = '/'
    · subst hc
      rw [trimStart_slash, ih, hcons]
      by_cases hs : trimEnd s = []
      · rw [if_pos hs, hs]
        rfl
      · rw [if_neg hs, trimStart_slash]
    · have hone : trimEnd [c] = [c] := trimEnd_of_notMem (by simpa using Ne.symm hc)
      rw [trimStart_cons_of_ne hc, hcons, hone]
      split <;> rw [trimStart_cons_of_ne hc]

@[simp] theorem trim_trimEnd (s : List Char) : trim (trimEnd s) = trim s := by
  rw [trim, trimEnd_trimEnd, trim]

theorem trim_tail (h : ∀ c ∈ more.head?, c = '/') : trim more.tail = trim more := by
  cases more with
  | nil => rfl
  | cons c cs =>
    rw [h c rfl, ← trimEnd_trimStart, ← trimEnd_trimStart, trimStart_slash, List.tail_cons]

/-! ## Stripping -/

theorem below_iff_extends : l.Below root ↔ ∃ more, l.Extends root more :=
  below_iff

theorem Extends.below (h : l.Extends root more) : l.Below root :=
  below_iff_extends.2 ⟨more, h⟩

/-- There is only one text by which a location extends a root. -/
theorem Extends.more_unique {more' : List Char} (h : l.Extends root more)
    (h' : l.Extends root more') : more = more' :=
  List.append_cancel_left (h.1.symm.trans h'.1)

/-- **The path below a root** is what the location extends the root by, without the slash in
front and without the slashes at the end. -/
theorem Extends.below?_eq (h : l.Extends root more) :
    l.below? root = some (String.ofList (trimEnd more.tail)) := by
  obtain ⟨hmore, hhead⟩ := h
  rw [below?, List.isPrefixOf?_eq_some_iff_append_eq.2 hmore.symm]
  cases more with
  | nil => rfl
  | cons c cs => exact if_pos (hhead c rfl)

theorem below?_eq_some_iff :
    l.below? root = some path ↔
      ∃ more, l.Extends root more ∧ path.toList = trimEnd more.tail := by
  constructor
  · intro h
    have hbelow : l.Below root := by rw [Below, h, Option.isSome_some]
    obtain ⟨more, hmore⟩ := below_iff_extends.1 hbelow
    refine ⟨more, hmore, ?_⟩
    rw [← Option.some.inj (hmore.below?_eq.symm.trans h), String.toList_ofList]
  · rintro ⟨more, hmore, hpath⟩
    rw [hmore.below?_eq, ← hpath, String.ofList_toList]

/-! ## Joining -/

/-- What a child extends its parent by: the child without the slashes it begins with behind a
single slash, or nothing but slashes if nothing of the child is left. -/
theorem exists_extends_join (l : Location) (child : String) :
    ∃ more, (l.join child).Extends l more ∧ trimStart more = trimStart child.toList ∧
      trimEnd more.tail = trim child.toList := by
  rw [← trimEnd_trimStart child.toList]
  cases hchild : trimStart child.toList with
  | nil =>
    -- the location stays as it is, and it extends itself by the slashes at its end
    obtain ⟨more, hmore, hslash⟩ := exists_slashes l.text.toList
    rw [join_of_trimStart_eq_nil hchild]
    refine ⟨more, ⟨hmore, fun c hc => hslash c (List.mem_of_mem_head? hc)⟩, ?_, ?_⟩
    · exact trimStart_eq_nil_iff.2 hslash
    · exact trimEnd_eq_nil_iff.2 fun c hc => hslash c (List.mem_of_mem_tail hc)
  | cons c cs =>
    refine ⟨'/' :: c :: cs, ⟨?_, ?_⟩, ?_, rfl⟩
    · rw [join, hchild]
      exact String.toList_ofList
    · intro x hx
      exact (Option.some.inj hx).symm
    · rw [trimStart_slash, trimStart_cons_of_ne (head_ne_of_trimStart_eq_cons hchild)]

/-- **Stripping undoes joining**, up to the slashes at the two ends of the child. -/
theorem below?_join (l : Location) (child : String) :
    (l.join child).below? l = some (String.ofList (trim child.toList)) := by
  obtain ⟨more, hmore, -, htrim⟩ := exists_extends_join l child
  rw [hmore.below?_eq, htrim]

/-- **Joining is injective**, up to the slashes that the children begin with. -/
theorem join_eq_join_iff :
    l.join a = l.join b ↔ trimStart a.toList = trimStart b.toList := by
  constructor
  · intro h
    obtain ⟨more, hmore, ha, -⟩ := exists_extends_join l a
    obtain ⟨more', hmore', hb, -⟩ := exists_extends_join l b
    rw [h] at hmore
    rw [← ha, ← hb, hmore.more_unique hmore']
  · intro h
    rw [join, join, h]

end Location
end Replication
