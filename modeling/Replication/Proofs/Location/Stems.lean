import Replication.Proofs.Location.Grouping

/-!
# Stems

In stripping, the slashes that a location ends in never count, be it the root, or the location
below it.  What counts is its *stem*, the text before them.  A location has a path below a root if its stem
is the stem of the root with the path behind it: behind a slash, or with nothing between the two
if the path is empty.

This is one equation between texts, and what is true of stripping is read off it.  Slashes more or
less at the ends leave the stems as they are, so they leave the path as it is.  And where a root
lies below another one, its stem is replaced by that of the other and its own path, so that two
paths come to stand behind one another.  Slashes elsewhere are part of the stem: a path may begin
with some, and a doubled one in the middle of a location is doubled in its path.

* `below?_eq_some_iff_trimEnd`: a path is what the stems differ by.
* `below?_slashed`: stripping does not see the slashes at the ends.
* `below?_trans`: roots below roots.
* `stripping_is_exact_and_transitive`: the statement, for all locations, roots and children.
-/

namespace Replication
namespace Location

/-- So many slashes. -/
def slashes (n : Nat) : String :=
  String.ofList (List.replicate n '/')

/-- The location with slashes added at its end. -/
def slashed (l : Location) (n : Nat) : Location :=
  ⟨l.text ++ slashes n⟩

/-- The last character of a text is a slash. -/
def EndsInSlash (s : String) : Prop :=
  s.toList.getLast? = some '/'

/-- The location without the slashes at its end. -/
structure IsStem (stem l : Location) : Prop where
  bare : ¬ EndsInSlash stem.text
  eq_slashed : ∃ n, l = stem.slashed n

/-- The text without the slashes at its beginning and at its end. -/
structure IsCore (core text : String) : Prop where
  head_ne : core.toList.head? ≠ some '/'
  bare : ¬ EndsInSlash core
  eq_append : ∃ m n, text = slashes m ++ core ++ slashes n

/-- What a path puts behind the stem of its root: itself behind a slash, or nothing. -/
def behind (path : List Char) : List Char :=
  if path = [] then [] else '/' :: path

/-- Two paths one after the other, with a slash between them unless one of them is empty. -/
def pathThrough (t s : String) : String :=
  if s = "" then t else if t = "" then s else t ++ "/" ++ s

variable {s t more : List Char} {l m root stem : Location} {path core text : String} {n : Nat}

/-! ## What is left between the slashes -/

@[simp] theorem toList_slashes (n : Nat) : (slashes n).toList = List.replicate n '/' :=
  String.toList_ofList

@[simp] theorem text_slashed (l : Location) (n : Nat) :
    (l.slashed n).text.toList = l.text.toList ++ List.replicate n '/' := by
  rw [slashed, String.toList_append, toList_slashes]

theorem trimEnd_eq_self_iff : trimEnd s = s ↔ s.getLast? ≠ some '/' := by
  refine List.rdropWhile_eq_self_iff.trans ?_
  cases hs : s.getLast? with
  | none => simp [List.getLast?_eq_none_iff.1 hs]
  | some c =>
    obtain ⟨front, rfl⟩ := List.getLast?_eq_some_iff.1 hs
    simp

theorem trimStart_eq_self_iff : trimStart s = s ↔ s.head? ≠ some '/' := by
  refine List.dropWhile_eq_self_iff.trans ?_
  cases s <;> simp

@[simp] theorem trimEnd_append_replicate (s : List Char) (n : Nat) :
    trimEnd (s ++ List.replicate n '/') = trimEnd s := by
  rw [trimEnd_append, if_pos (trimEnd_eq_nil_iff.2 fun _ hc => List.eq_of_mem_replicate hc)]

@[simp] theorem trimStart_replicate_append (n : Nat) (s : List Char) :
    trimStart (List.replicate n '/' ++ s) = trimStart s := by
  rw [trimStart_append,
    if_pos (trimStart_eq_nil_iff.2 fun _ hc => List.eq_of_mem_replicate hc)]

/-- **The text before the slashes at the end** is told by two things: it does not end in a slash,
and what follows it is slashes. -/
theorem trimEnd_eq_iff :
    trimEnd s = t ↔ t.getLast? ≠ some '/' ∧ ∃ n, s = t ++ List.replicate n '/' := by
  constructor
  · rintro rfl
    obtain ⟨more, hmore, hslash⟩ := exists_slashes s
    refine ⟨trimEnd_eq_self_iff.1 (trimEnd_trimEnd s), more.length, ?_⟩
    rwa [← List.eq_replicate_length.2 hslash]
  · rintro ⟨hbare, n, rfl⟩
    rw [trimEnd_append_replicate, trimEnd_eq_self_iff.2 hbare]

/-- **The text behind the slashes at the beginning** is told likewise. -/
theorem trimStart_eq_iff :
    trimStart s = t ↔ t.head? ≠ some '/' ∧ ∃ n, s = List.replicate n '/' ++ t := by
  constructor
  · rintro rfl
    have hslash : ∀ c ∈ s.takeWhile (· == '/'), c = '/' := by
      intro c hc
      have hbeq := List.mem_takeWhile_imp hc
      exact beq_iff_eq.1 hbeq
    refine ⟨trimStart_eq_self_iff.1 (List.dropWhile_idempotent _ _),
      (s.takeWhile (· == '/')).length, ?_⟩
    rw [← List.eq_replicate_length.2 hslash, trimStart, List.takeWhile_append_dropWhile]
  · rintro ⟨hhead, n, rfl⟩
    rw [trimStart_replicate_append, trimStart_eq_self_iff.2 hhead]

/-- **The text between the slashes at the ends** is told by three things. -/
theorem trim_eq_iff :
    trim s = t ↔ t.head? ≠ some '/' ∧ t.getLast? ≠ some '/' ∧
      ∃ m n, s = List.replicate m '/' ++ t ++ List.replicate n '/' := by
  constructor
  · intro h
    obtain ⟨hhead, m, hm⟩ := trimStart_eq_iff.1 h
    obtain ⟨-, n, hn⟩ := trimEnd_eq_iff.1 (Eq.refl (trimEnd s))
    refine ⟨hhead, trimEnd_eq_self_iff.1 ?_, m, n, ?_⟩
    · rw [← h, ← trimEnd_trimStart, trimEnd_trimEnd]
    · rwa [← hm]
  · rintro ⟨hhead, hbare, m, n, rfl⟩
    rw [trim, trimEnd_append_replicate, ← trim, ← trimEnd_trimStart,
      trimStart_replicate_append, trimStart_eq_self_iff.2 hhead, trimEnd_eq_self_iff.2 hbare]

/-! ## Stems of locations -/

theorem eq_slashed_iff : l = stem.slashed n ↔
    l.text.toList = stem.text.toList ++ List.replicate n '/' := by
  rw [← text_slashed]
  exact ⟨fun h => congrArg (·.text.toList) h, ext_toList⟩

theorem isStem_iff : IsStem stem l ↔ trimEnd l.text.toList = stem.text.toList := by
  rw [trimEnd_eq_iff]
  constructor
  · rintro ⟨hbare, n, hn⟩
    exact ⟨hbare, n, eq_slashed_iff.1 hn⟩
  · rintro ⟨hbare, n, hn⟩
    exact ⟨hbare, n, eq_slashed_iff.2 hn⟩

theorem isCore_iff : IsCore core text ↔ trim text.toList = core.toList := by
  have happend (m n : Nat) : text = slashes m ++ core ++ slashes n ↔
      text.toList = List.replicate m '/' ++ core.toList ++ List.replicate n '/' := by
    rw [← String.toList_inj, String.toList_append, String.toList_append, toList_slashes,
      toList_slashes]
  rw [trim_eq_iff]
  constructor
  · rintro ⟨hhead, hbare, m, n, hmn⟩
    exact ⟨hhead, hbare, m, n, (happend m n).1 hmn⟩
  · rintro ⟨hhead, hbare, m, n, hmn⟩
    exact ⟨hhead, hbare, m, n, (happend m n).2 hmn⟩

/-! ## Paths between stems -/

@[simp] theorem tail_behind (p : List Char) : (behind p).tail = p := by
  cases p <;> rfl

theorem head_behind (p : List Char) : ∀ c ∈ (behind p).head?, c = '/' := by
  cases p <;> simp [behind]

theorem behind_append (t s : String) :
    behind t.toList ++ behind s.toList = behind (pathThrough t s).toList := by
  unfold behind pathThrough
  by_cases hs : s = "" <;> by_cases ht : t = "" <;> simp [hs, ht]

/-- What a location extends a root by is, up to the slashes at its end, the path behind it. -/
theorem trimEnd_eq_behind (h : ∀ c ∈ more.head?, c = '/') :
    trimEnd more = behind (trimEnd more.tail) := by
  cases more with
  | nil => rfl
  | cons c cs =>
    have hcons := trimEnd_append ['/'] cs
    rw [h c rfl, behind, List.tail_cons, ← List.singleton_append, hcons]
    rfl

theorem Extends.trimEnd_text (h : l.Extends root more) :
    trimEnd l.text.toList = trimEnd root.text.toList ++ behind (trimEnd more.tail) := by
  rw [h.1, trimEnd_append, trimEnd_trimEnd, ← trimEnd_eq_behind h.2]
  split
  · next hnil => rw [hnil, List.append_nil]
  · rfl

/-- **A path is what the stems differ by.**  A location has a path below a root if, and only if,
its stem is that of the root with the path behind it. -/
theorem below?_eq_some_iff_trimEnd : l.below? root = some path ↔
    trimEnd l.text.toList = trimEnd root.text.toList ++ behind path.toList := by
  constructor
  · intro h
    obtain ⟨more, hmore, hpath⟩ := below?_eq_some_iff.1 h
    rw [hmore.trimEnd_text, hpath]
  · intro hstem
    -- the location lies below the root since its stem does; the path is then known already
    have hcontinues : Continues (trimEnd root.text.toList) (trimEnd l.text.toList) :=
      ⟨_, hstem, head_behind _⟩
    have hbelow : l.Below root := below_iff.2 (hcontinues.trans (continues_trimEnd _))
    obtain ⟨more, hmore⟩ := below_iff_extends.1 hbelow
    rw [hmore.trimEnd_text] at hstem
    have hpath := congrArg List.tail (List.append_cancel_left hstem)
    rw [tail_behind, tail_behind] at hpath
    exact below?_eq_some_iff.2 ⟨more, hmore, hpath.symm⟩

/-- **Slashes at the ends** of a location and of a root are not seen. -/
theorem below?_slashed (l root : Location) (m n : Nat) :
    (l.slashed m).below? (root.slashed n) = l.below? root := by
  ext path
  rw [below?_eq_some_iff_trimEnd, below?_eq_some_iff_trimEnd, text_slashed, text_slashed,
    trimEnd_append_replicate, trimEnd_append_replicate]

/-- **Roots below roots.**  The path of a location below a root is its path below a location in
between, behind the path of that one. -/
theorem below?_trans {s t : String} (h₁ : l.below? m = some s) (h₂ : m.below? root = some t) :
    l.below? root = some (pathThrough t s) := by
  rw [below?_eq_some_iff_trimEnd] at h₁ h₂ ⊢
  rw [h₁, h₂, List.append_assoc, behind_append]

theorem getLast?_append_behind (h : s.getLast? ≠ some '/') (p : List Char) :
    (s ++ behind p).getLast? = some '/' ↔ p.getLast? = some '/' := by
  rw [behind]
  split
  · next hnil => simp [h, hnil]
  · next hne => simp [List.getLast?_cons, List.getLast?_eq_some_getLast hne]

/-- A stem, a path behind it and slashes.  If the path is empty, the slash that parts the two is
one of those, and there may be none. -/
theorem exists_eq_append_behind_iff :
    (∃ n, l.text.toList = stem.text.toList ++ behind path.toList ++ List.replicate n '/') ↔
      l = stem ∧ path = "" ∨ ∃ n, l = slashed ⟨stem.text ++ "/" ++ path⟩ n := by
  have hslash (n : Nat) : l = slashed ⟨stem.text ++ "/" ++ path⟩ n ↔
      l.text.toList = stem.text.toList ++ '/' :: path.toList ++ List.replicate n '/' := by
    rw [eq_slashed_iff]
    simp
  simp only [hslash]
  by_cases hpath : path = ""
  · subst hpath
    simp only [String.toList_empty, behind, if_true, List.append_nil, and_true]
    constructor
    · rintro ⟨n, hn⟩
      cases n with
      | zero => exact .inl (ext_toList (by simpa using hn))
      | succ n => exact .inr ⟨n, by simpa [List.replicate_succ] using hn⟩
    · rintro (rfl | ⟨n, hn⟩)
      · exact ⟨0, by simp⟩
      · exact ⟨n + 1, by simpa [List.replicate_succ] using hn⟩
  · have hne : path.toList ≠ [] := mt String.toList_eq_nil_iff.1 hpath
    simp only [behind, hne, hpath, if_false, and_false, false_or]

/-- **The locations below a root.**  Those at a path have the stem of the root, a slash and the
path, and then slashes; at the empty path there is the stem of the root as well. -/
theorem IsStem.below?_eq_some_iff (h : IsStem stem root) : l.below? root = some path ↔
    ¬ EndsInSlash path ∧
      (l = stem ∧ path = "" ∨ ∃ n, l = slashed ⟨stem.text ++ "/" ++ path⟩ n) := by
  rw [below?_eq_some_iff_trimEnd, isStem_iff.1 h, trimEnd_eq_iff, Ne,
    getLast?_append_behind h.bare, exists_eq_append_behind_iff]
  rfl

/-- **Stripping is exact and transitive.**

Stripping a root from what was joined to it gives the child without the slashes at its ends.
Stripping a root from a location gives a path just where the path does not end in a slash and the
location is the stem of the root, a slash, the path and any number of slashes, or else the path is
empty and the location is the stem of the root.  Slashes at the ends of the location and of the
root change nothing.  And where a location has a path below another one, which has a path below a
root, the location has below the root the second path followed by the first. -/
theorem stripping_is_exact_and_transitive :
    (∀ (root : Location) (child : String), ∃ core, IsCore core child ∧
      (root.join child).below? root = some core) ∧
    (∀ root : Location, ∃ stem, IsStem stem root ∧ ∀ (l : Location) (path : String),
      l.below? root = some path ↔ ¬ EndsInSlash path ∧
        (l = stem ∧ path = "" ∨ ∃ n, l = slashed ⟨stem.text ++ "/" ++ path⟩ n)) ∧
    (∀ (l root : Location) (m n : Nat), (l.slashed m).below? (root.slashed n) = l.below? root) ∧
    ∀ (l m root : Location) (s t : String), l.below? m = some s → m.below? root = some t →
      l.below? root = some (pathThrough t s) := by
  refine ⟨fun root child => ?_, fun root => ?_, below?_slashed, fun l m root s t => ?_⟩
  · refine ⟨_, isCore_iff.2 ?_, below?_join root child⟩
    rw [String.toList_ofList]
  · have hstem : IsStem ⟨String.ofList (trimEnd root.text.toList)⟩ root :=
      isStem_iff.2 String.toList_ofList.symm
    exact ⟨_, hstem, fun l path => hstem.below?_eq_some_iff⟩
  · exact below?_trans

/-- Doubled slashes in the middle are kept on the way through two roots, those at the ends are
not. -/
theorem doubled_slashes_pass_two_roots :
    below? ⟨"s3://a/t//x///y=1//"⟩ ⟨"s3://a/t//x/"⟩ = some "//y=1" ∧
      below? ⟨"s3://a/t//x/"⟩ ⟨"s3://a/t///"⟩ = some "/x" ∧
      below? ⟨"s3://a/t//x///y=1//"⟩ ⟨"s3://a/t///"⟩ = some "/x///y=1" := by
  have houter : below? ⟨"s3://a/t//x///y=1//"⟩ ⟨"s3://a/t//x/"⟩ = some "//y=1" := by decide
  have hinner : below? ⟨"s3://a/t//x/"⟩ ⟨"s3://a/t///"⟩ = some "/x" := by decide
  obtain ⟨-, -, -, htrans⟩ := stripping_is_exact_and_transitive
  have hpath : pathThrough "/x" "//y=1" = "/x///y=1" := by decide
  exact ⟨houter, hinner, hpath ▸ htrans _ _ _ _ _ houter hinner⟩

end Location
end Replication
