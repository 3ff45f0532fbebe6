import Mathlib.Data.List.DropRight
import Replication.Location

/-!
# Locations below others

A location lies below a root if its text goes on from that of the root at a slash, or does not
go on at all.  The slashes at the end of the root do not count, and those at the end of the
location may be as many as they like.  What matters is then where one text *continues* another,
and this is a preorder on texts that do not end in slashes.

* `Location.below_iff`: what it means to lie below a location, by the texts alone.
* `Location.Below.refl`, `Location.Below.trans`: lying below is reflexive and transitive,
  whatever slashes the locations end in.
* `Location.below_join`: what is joined to a location lies below it.
* `Location.Below.eq_of_segments`: nothing lies below two different segments of one location.
-/

namespace Replication
namespace Location

/-- The text goes on from another one at a slash, or does not go on. -/
def Continues (front text : List Char) : Prop :=
  ∃ more, text = front ++ more ∧ ∀ c ∈ more.head?, c = '/'

/-- The location lies below a root, or is the root. -/
def Below (l root : Location) : Prop :=
  (l.below? root).isSome = true

instance (l root : Location) : Decidable (l.Below root) :=
  inferInstanceAs (Decidable ((l.below? root).isSome = true))

/-- A child that is a single step: it has a name, and there is no slash in it. -/
structure IsSegment (child : String) : Prop where
  nonempty : child ≠ ""
  slashless : '/' ∉ child.toList

variable {front text s t : List Char} {l m root x : Location} {child : String}

/-! ## Slashes at the end -/

@[simp] theorem trimEnd_trimEnd (s : List Char) : trimEnd (trimEnd s) = trimEnd s :=
  List.rdropWhile_idempotent _ s

/-- A text loses the slashes of its second part, and those of its first part if nothing else
is behind them. -/
theorem trimEnd_append (s t : List Char) :
    trimEnd (s ++ t) = if trimEnd t = [] then trimEnd s else s ++ trimEnd t := by
  simp only [trimEnd, List.reverse_append, List.dropWhile_append, List.isEmpty_iff,
    List.reverse_eq_nil_iff]
  by_cases h : t.reverse.dropWhile (· == '/') = []
  · rw [if_pos h, if_pos h]
  · rw [if_neg h, if_neg h, List.reverse_append, List.reverse_reverse]

theorem trimEnd_of_notMem (h : '/' ∉ s) : trimEnd s = s := by
  refine List.rdropWhile_eq_self_iff.2 ?_
  intro hne hslash
  rw [beq_iff_eq] at hslash
  exact h (hslash ▸ List.getLast_mem hne)

theorem exists_slashes (s : List Char) : ∃ more, s = trimEnd s ++ more ∧ ∀ c ∈ more, c = '/' := by
  refine ⟨s.rtakeWhile (· == '/'), List.rdropWhile_append_rtakeWhile.symm, ?_⟩
  intro c hc
  have hslash := List.mem_rtakeWhile_imp hc
  exact beq_iff_eq.1 hslash

/-! ## Texts that continue others -/

theorem Continues.refl (s : List Char) : Continues s s :=
  ⟨[], (List.append_nil s).symm, by simp⟩

theorem Continues.trans (h₁ : Continues s t) (h₂ : Continues t text) : Continues s text := by
  obtain ⟨m, rfl, hm⟩ := h₁
  obtain ⟨n, rfl, hn⟩ := h₂
  refine ⟨m ++ n, List.append_assoc _ _ _, ?_⟩
  cases m with
  | nil => exact hn
  | cons c cs => exact hm

theorem continues_trimEnd (s : List Char) : Continues (trimEnd s) s := by
  obtain ⟨more, hmore, hslash⟩ := exists_slashes s
  exact ⟨more, hmore, fun c hc => hslash c (List.mem_of_mem_head? hc)⟩

/-- A text that continues another one still does without the slashes at its end, unless they
belong to the other one. -/
theorem Continues.trimEnd (h : Continues (trimEnd s) text) :
    Continues (trimEnd s) (trimEnd text) := by
  obtain ⟨m, rfl, hm⟩ := h
  rw [trimEnd_append, trimEnd_trimEnd]
  by_cases hnil : Location.trimEnd m = []
  · rw [if_pos hnil]
    exact Continues.refl _
  · rw [if_neg hnil]
    refine ⟨_, rfl, ?_⟩
    obtain ⟨c, cs, hcs⟩ := List.exists_cons_of_ne_nil hnil
    obtain ⟨n, hn⟩ : Location.trimEnd m <+: m := List.rdropWhile_prefix _ _
    rw [hcs] at hn ⊢
    rw [← hn] at hm
    exact hm

/-- Behind the same text no two different words without slashes are continued by one text. -/
theorem Continues.eq_of_notMem {c d : List Char} (hc : '/' ∉ c) (hd : '/' ∉ d)
    (h₁ : Continues (front ++ c) text) (h₂ : Continues (front ++ d) text) : c = d := by
  have word : ∀ {w more : List Char}, '/' ∉ w → (∀ x ∈ more.head?, x = '/') →
      (w ++ more).takeWhile (· != '/') = w := by
    intro w more hw hmore
    have hall : ∀ x ∈ w, (x != '/') = true := by
      intro x hx
      exact bne_iff_ne.2 fun heq => hw (heq ▸ hx)
    rw [List.takeWhile_append_of_pos hall]
    cases more with
    | nil => rw [List.takeWhile_nil, List.append_nil]
    | cons y ys =>
      rw [hmore y rfl, List.takeWhile_cons_of_neg (by decide), List.append_nil]
  obtain ⟨m, rfl, hm⟩ := h₁
  obtain ⟨n, heq, hn⟩ := h₂
  rw [List.append_assoc, List.append_assoc] at heq
  rw [← word hc hm, List.append_cancel_left heq, word hd hn]

/-! ## Locations -/

/-- **A location lies below a root** if its text continues that of the root, the slashes at
the end of the root left aside. -/
theorem below_iff : l.Below root ↔ Continues (trimEnd root.text.toList) l.text.toList := by
  rw [Below, below?]
  constructor
  · intro h
    cases hm : List.isPrefixOf? (trimEnd root.text.toList) l.text.toList with
    | none => simp [hm] at h
    | some more =>
      refine ⟨more, (List.append_eq_of_isPrefixOf?_eq_some hm).symm, ?_⟩
      cases more with
      | nil => simp
      | cons c cs => simpa [hm] using h
  · rintro ⟨more, hmore, hhead⟩
    rw [List.isPrefixOf?_eq_some_iff_append_eq.2 hmore.symm]
    cases more with
    | nil => rfl
    | cons c cs => simp [hhead c rfl]

theorem Below.refl (l : Location) : l.Below l :=
  below_iff.2 (continues_trimEnd _)

/-- **Lying below is transitive.**  The location in the middle may end in slashes: as a root
it is taken without them. -/
theorem Below.trans (h₁ : l.Below m) (h₂ : m.Below root) : l.Below root := by
  have hmiddle := (below_iff.1 h₂).trimEnd
  exact below_iff.2 (hmiddle.trans (below_iff.1 h₁))

/-- **What is joined to a location lies below it.** -/
theorem below_join (l : Location) (child : String) : (l.join child).Below l := by
  rw [join]
  split
  · exact Below.refl l
  · next c cs _ =>
    refine below_iff.2 ⟨'/' :: c :: cs, ?_, ?_⟩
    · rw [String.toList_ofList]
    · intro x hx
      exact (Option.some.inj hx).symm

theorem IsSegment.text_join (h : IsSegment child) (l : Location) :
    (l.join child).text.toList = trimEnd l.text.toList ++ '/' :: child.toList := by
  have hall : ∀ (c : Char) (cs : List Char), child.toList = c :: cs → (c == '/') = false := by
    intro c cs hcs
    refine beq_eq_false_iff_ne.2 ?_
    rintro rfl
    exact h.slashless (hcs ▸ List.mem_cons_self)
  rw [join, trimStart]
  cases hcs : child.toList with
  | nil => exact absurd (String.toList_eq_nil_iff.1 hcs) h.nonempty
  | cons c cs =>
    rw [List.dropWhile_cons_of_neg (by simp [hall c cs hcs])]
    exact String.toList_ofList

theorem IsSegment.trimEnd_text_join (h : IsSegment child) (l : Location) :
    trimEnd (l.join child).text.toList = trimEnd l.text.toList ++ '/' :: child.toList := by
  have hne : child.toList ≠ [] := fun h0 => h.nonempty (String.toList_eq_nil_iff.1 h0)
  rw [h.text_join, ← List.singleton_append, ← List.append_assoc, trimEnd_append,
    trimEnd_of_notMem h.slashless, if_neg hne]

/-- **Nothing lies below two different segments** of one location. -/
theorem Below.eq_of_segments {c d : String} (hc : IsSegment c) (hd : IsSegment d)
    (h₁ : x.Below (l.join c)) (h₂ : x.Below (l.join d)) : c = d := by
  rw [below_iff, hc.trimEnd_text_join, ← List.singleton_append, ← List.append_assoc] at h₁
  rw [below_iff, hd.trimEnd_text_join, ← List.singleton_append, ← List.append_assoc] at h₂
  exact String.toList_inj.1 (h₁.eq_of_notMem hc.slashless hd.slashless h₂)

end Location
end Replication
