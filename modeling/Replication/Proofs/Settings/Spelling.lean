import Mathlib.Data.List.TakeWhile
import Replication.Proofs.Settings.Layering
import Replication.Proofs.Text.Lowercase

/-!
# Paths and their texts

A path of keys is written with a point between each two of them, and so a key that is set may be
a path.  Its text is lower-cased and then read.  A key alone is found whatever is in it, but
between points only letters and digits of ASCII, blanks, underscores and hyphens make keys; a text
with anything else is no path, and it is set as one key.

* `Path.ofText?_dotted` and `Path.ofText?_dotted_eq_none`: which texts are read as paths.
* `Path.lowercase_dotted`: the text of a path in lower case does not change.
* `Path.apart_place`: where two paths lead by their texts does not get in each other's way, when
  the paths do not.
-/

namespace Replication
namespace Settings

/-- A key that may stand anywhere in the text of a path. -/
structure StepKey (key : String) : Prop where
  nonempty : key ≠ ""
  isKeyChar : ∀ c ∈ key.toList, Path.isKeyChar c = true

instance (key : String) : Decidable (StepKey key) :=
  decidable_of_iff (key ≠ "" ∧ key.toList.all Path.isKeyChar = true)
    ⟨fun h => ⟨h.1, List.all_eq_true.1 h.2⟩, fun h => ⟨h.nonempty, List.all_eq_true.2 h.isKeyChar⟩⟩

theorem StepKey.toList_ne_nil {key : String} (h : StepKey key) : key.toList ≠ [] :=
  fun hnil => h.nonempty (String.toList_eq_nil_iff.1 hnil)

/-- A path whose text is read as it is meant. -/
def WellSpelled (path : List String) : Prop :=
  path.length = 1 ∨ ∀ key ∈ path, StepKey key

instance (path : List String) : Decidable (WellSpelled path) :=
  inferInstanceAs (Decidable (path.length = 1 ∨ ∀ key ∈ path, StepKey key))

/-- None of two paths leads through the end of the other. -/
def Apart (p q : List String) : Prop :=
  ¬p <+: q ∧ ¬q <+: p

instance : Std.Symm Apart := ⟨fun _ _ h => h.symm⟩

namespace Path

/-- Keys with a point between each two. -/
def dots : List (List Char) → List Char
  | [] => []
  | k :: ks => k ++ ks.flatMap fun k => '.' :: k

/-- The text of the path that some keys make up. -/
def dotted (path : List String) : String :=
  String.ofList (dots (path.map String.toList))

/-- Where a path leads by its text.  One that is badly spelled is a single key. -/
def place (path : List String) : List String :=
  if WellSpelled path then path else [dotted path]

variable {k rest : List Char} {ks : List String} {c : Char}

/-! ## Which texts are read as paths -/

/-- Where a key cannot begin, none of its characters is read. -/
theorem takeWhile_and_dropWhile (h : ∀ c ∈ rest.head?, isKeyChar c = false) :
    rest.takeWhile isKeyChar = [] ∧ rest.dropWhile isKeyChar = rest := by
  cases rest with
  | nil => exact ⟨rfl, rfl⟩
  | cons c cs =>
    have hc : ¬isKeyChar c = true := Bool.eq_false_iff.1 (h c rfl)
    exact ⟨List.takeWhile_cons_of_neg hc, List.dropWhile_cons_of_neg hc⟩

/-- A key is read up to where it ends. -/
theorem key?_append (hne : k ≠ []) (hk : ∀ c ∈ k, isKeyChar c = true)
    (hrest : ∀ c ∈ rest.head?, isKeyChar c = false) :
    key? (k ++ rest) = some (String.ofList k, rest) := by
  obtain ⟨htake, hdrop⟩ := takeWhile_and_dropWhile hrest
  obtain ⟨c, cs, rfl⟩ := List.exists_cons_of_ne_nil hne
  rw [key?, List.takeWhile_append_of_pos hk, List.dropWhile_append_of_pos hk, htake, hdrop,
    List.append_nil]

theorem head?_flatMap_point (ks : List (List Char)) :
    ∀ c ∈ (ks.flatMap fun k => '.' :: k).head?, c = '.' := by
  intro c hc
  cases ks with
  | nil => cases hc
  | cons k ks => exact (Option.some.inj hc).symm

theorem isKeyChar_head?_flatMap_point (ks : List (List Char)) :
    ∀ c ∈ (ks.flatMap fun k => '.' :: k).head?, isKeyChar c = false :=
  fun c hc => head?_flatMap_point ks c hc ▸ rfl

/-- The keys behind the first one are read as steps. -/
theorem stepsWithin_flatMap_point {n : Nat} (hks : ∀ k ∈ ks, StepKey k)
    (hn : ((ks.map String.toList).flatMap fun k => '.' :: k).length ≤ n) :
    stepsWithin n ((ks.map String.toList).flatMap fun k => '.' :: k) = some (ks.map .key) := by
  induction ks generalizing n with
  | nil =>
    rw [List.map_nil, List.flatMap_nil, stepsWithin]
    rfl
  | cons k ks ih =>
    obtain ⟨hk, hks⟩ := List.forall_mem_cons.1 hks
    rw [List.map_cons, List.flatMap_cons, List.cons_append] at hn ⊢
    cases n with
    | zero => cases hn
    | succ n =>
      have hlen := Nat.le_of_succ_le_succ hn
      rw [List.length_append] at hlen
      have hrest := ih hks (Nat.le_trans (Nat.le_add_left _ _) hlen)
      rw [stepsWithin, if_pos rfl,
        key?_append hk.toList_ne_nil hk.isKeyChar (isKeyChar_head?_flatMap_point _)]
      simp only [hrest, String.ofList_toList]
      rfl

/-- **A path of keys is read back from its text.** -/
theorem ofText?_dotted {key : String} (hkey : StepKey key) (hks : ∀ k ∈ ks, StepKey k) :
    ofText? (dotted (key :: ks)) = some ⟨key, ks.map .key⟩ := by
  rw [ofText?, dotted, String.toList_ofList, List.map_cons, dots,
    key?_append hkey.toList_ne_nil hkey.isKeyChar (isKeyChar_head?_flatMap_point _)]
  simp only [stepsWithin_flatMap_point hks (Nat.le_refl _), String.ofList_toList]
  rfl

/-- A key with other characters is read up to one of these, if it is read at all, and there are
no steps from there. -/
theorem stepsWithin_of_key?_append {key name : String} {cs : List Char} (hplain : PlainKey key)
    (hkey : ¬StepKey key) (hrest : ∀ c ∈ rest.head?, isKeyChar c = false)
    (h : key? (key.toList ++ rest) = some (name, cs)) (n : Nat) : stepsWithin n cs = none := by
  have hcs : cs = (key.toList ++ rest).dropWhile isKeyChar := by
    rw [key?] at h
    split at h
    · cases h
    · exact (Prod.ext_iff.1 (Option.some.inj h)).2.symm
  cases hdrop : key.toList.dropWhile isKeyChar with
  | nil =>
    -- nothing but characters of a key: then there are none, and nothing is read
    have hall : ∀ c ∈ key.toList, isKeyChar c = true := List.dropWhile_eq_nil_iff.1 hdrop
    have hempty : key = "" := by
      by_contra hne
      exact hkey ⟨hne, hall⟩
    rw [hempty, String.toList_empty, List.nil_append, key?,
      (takeWhile_and_dropWhile hrest).1] at h
    cases h
  | cons c ds =>
    have hc : c ∈ key.toList :=
      (List.dropWhile_sublist isKeyChar).subset (hdrop ▸ List.mem_cons_self)
    have hstop : cs = c :: (ds ++ rest) := by
      rw [hcs, List.dropWhile_append, hdrop]
      rfl
    rw [hstop]
    exact stepsWithin_cons_of_ne (fun he => hplain.noPoint (he ▸ hc))
      (fun he => hplain.noBracket (he ▸ hc)) n _

/-- Where one of the keys behind the first is badly spelled, there are no steps. -/
theorem stepsWithin_flatMap_point_eq_none (hplain : ∀ k ∈ ks, PlainKey k)
    (hbad : ∃ k ∈ ks, ¬StepKey k) (n : Nat) :
    stepsWithin n ((ks.map String.toList).flatMap fun k => '.' :: k) = none := by
  induction ks generalizing n with
  | nil =>
    obtain ⟨k, hk, -⟩ := hbad
    cases hk
  | cons k ks ih =>
    obtain ⟨hk, hplain⟩ := List.forall_mem_cons.1 hplain
    rw [List.map_cons, List.flatMap_cons, List.cons_append]
    cases n with
    | zero => rfl
    | succ n =>
      have hhead := isKeyChar_head?_flatMap_point (ks.map String.toList)
      rw [stepsWithin, if_pos rfl]
      by_cases hstep : StepKey k
      · have hrest : ∃ j ∈ ks, ¬StepKey j := by
          obtain ⟨j, hj, hbad⟩ := hbad
          exact ⟨j, (List.mem_cons.1 hj).resolve_left fun he => hbad (he ▸ hstep), hbad⟩
        rw [key?_append hstep.toList_ne_nil hstep.isKeyChar hhead]
        simp only [ih hplain hrest]
        rfl
      · split
        · next hkey => rw [stepsWithin_of_key?_append hk hstep hhead hkey, Option.map_none]
        · rfl

/-- **Only well-spelled paths are read** from their texts. -/
theorem ofText?_dotted_eq_none (hplain : ∀ k ∈ ks, PlainKey k) (hbad : ¬WellSpelled ks) :
    ofText? (dotted ks) = none := by
  obtain ⟨-, hbad⟩ := not_or.1 hbad
  rw [ofText?, dotted, String.toList_ofList]
  cases ks with
  | nil => rfl
  | cons k ks =>
    obtain ⟨hk, hplain⟩ := List.forall_mem_cons.1 hplain
    have hhead := isKeyChar_head?_flatMap_point (ks.map String.toList)
    rw [List.map_cons, dots]
    by_cases hstep : StepKey k
    · have hrest : ∃ j ∈ ks, ¬StepKey j := by
        rw [List.forall_mem_cons, not_and] at hbad
        simpa using hbad hstep
      rw [key?_append hstep.toList_ne_nil hstep.isKeyChar hhead]
      simp only [stepsWithin_flatMap_point_eq_none hplain hrest]
      rfl
    · split
      · next hkey => rw [stepsWithin_of_key?_append hk hstep hhead hkey, Option.map_none]
      · rfl

/-! ## Where a text leads -/

theorem mem_dotted (h : c ∈ (dotted ks).toList) : c = '.' ∨ ∃ k ∈ ks, c ∈ k.toList := by
  rw [dotted, String.toList_ofList] at h
  cases ks with
  | nil => cases h
  | cons k ks =>
    rw [List.map_cons, dots, List.mem_append, List.mem_flatMap] at h
    rcases h with h | ⟨l, hl, h⟩
    · exact Or.inr ⟨k, List.mem_cons_self, h⟩
    · obtain ⟨j, hj, rfl⟩ := List.mem_map.1 hl
      exact (List.mem_cons.1 h).imp id fun h => ⟨j, List.mem_cons_of_mem _ hj, h⟩

theorem dotted_singleton (key : String) : dotted [key] = key := by
  rw [dotted, List.map_singleton, dots, List.flatMap_nil, List.append_nil, String.ofList_toList]

theorem lowercase_dotted (hlower : ∀ k ∈ ks, Text.lowercase k = k) :
    Text.lowercase (dotted ks) = dotted ks := by
  rw [Text.lowercase_eq_self_iff]
  intro c hc
  rcases mem_dotted hc with rfl | ⟨k, hk, hc⟩
  · decide
  · exact (Text.lowercase_eq_self_iff k).1 (hlower k hk) c hc

/-- Texts without points are told apart by what follows them, if that begins with one. -/
theorem append_inj_of_point {k l r r' : List Char} (hk : '.' ∉ k) (hl : '.' ∉ l)
    (hr : ∀ c ∈ r.head?, c = '.') (hr' : ∀ c ∈ r'.head?, c = '.') (h : k ++ r = l ++ r') :
    k = l ∧ r = r' := by
  induction k generalizing l with
  | nil =>
    cases l with
    | nil => exact ⟨rfl, h⟩
    | cons c l =>
      rw [List.nil_append, List.cons_append] at h
      have hc : c = '.' := hr c (by rw [h]; rfl)
      exact absurd (hc ▸ List.mem_cons_self) hl
  | cons c k ih =>
    cases l with
    | nil =>
      rw [List.nil_append, List.cons_append] at h
      have hc : c = '.' := hr' c (by rw [← h]; rfl)
      exact absurd (hc ▸ List.mem_cons_self) hk
    | cons d l =>
      obtain ⟨rfl, htail⟩ := List.cons.inj h
      obtain ⟨rfl, hrest⟩ :=
        ih (fun hmem => hk (List.mem_cons_of_mem _ hmem))
          (fun hmem => hl (List.mem_cons_of_mem _ hmem)) htail
      exact ⟨rfl, hrest⟩

/-- The keys behind the first one are told apart by their text. -/
theorem flatMap_point_inj {ls : List String} (hks : ∀ k ∈ ks, PlainKey k)
    (hls : ∀ k ∈ ls, PlainKey k)
    (h : ((ks.map String.toList).flatMap fun k => '.' :: k) =
      (ls.map String.toList).flatMap fun k => '.' :: k) : ks = ls := by
  induction ks generalizing ls with
  | nil =>
    cases ls with
    | nil => rfl
    | cons l ls => cases h
  | cons k ks ih =>
    cases ls with
    | nil => cases h
    | cons l ls =>
      obtain ⟨hk, hks⟩ := List.forall_mem_cons.1 hks
      obtain ⟨hl, hls⟩ := List.forall_mem_cons.1 hls
      obtain ⟨hkey, hrest⟩ := append_inj_of_point hk.noPoint hl.noPoint (head?_flatMap_point _)
        (head?_flatMap_point _) (List.cons.inj h).2
      rw [String.toList_inj.1 hkey, ih hks hls hrest]

/-- **Paths of plain keys are told apart by their texts.** -/
theorem dotted_inj {ls : List String} (hks : ∀ k ∈ ks, PlainKey k) (hls : ∀ k ∈ ls, PlainKey k)
    (hne : ks ≠ []) (hne' : ls ≠ []) (h : dotted ks = dotted ls) : ks = ls := by
  obtain ⟨k, ks, rfl⟩ := List.exists_cons_of_ne_nil hne
  obtain ⟨l, ls, rfl⟩ := List.exists_cons_of_ne_nil hne'
  obtain ⟨hk, hks⟩ := List.forall_mem_cons.1 hks
  obtain ⟨hl, hls⟩ := List.forall_mem_cons.1 hls
  obtain ⟨hkey, hrest⟩ := append_inj_of_point hk.noPoint hl.noPoint (head?_flatMap_point _)
    (head?_flatMap_point _) (String.ofList_injective h)
  rw [String.toList_inj.1 hkey, flatMap_point_inj hks hls hrest]

theorem point_mem_dotted (hbad : ¬WellSpelled ks) : '.' ∈ (dotted ks).toList := by
  rw [dotted, String.toList_ofList]
  match ks, hbad with
  | [], hbad => exact absurd (Or.inr fun key hkey => by cases hkey) hbad
  | [k], hbad => exact absurd (Or.inl rfl) hbad
  | k :: l :: ks, _ => exact List.mem_append_right _ List.mem_cons_self

/-- A key with a point is apart from all paths of plain keys. -/
theorem apart_singleton {key : String} (hkey : '.' ∈ key.toList) (hks : ∀ k ∈ ks, PlainKey k)
    (hne : ks ≠ []) : Apart [key] ks := by
  obtain ⟨k, ks, rfl⟩ := List.exists_cons_of_ne_nil hne
  have hk : key ≠ k := fun he => (hks k List.mem_cons_self).noPoint (he ▸ hkey)
  exact ⟨fun h => hk (List.cons_prefix_cons.1 h).1, fun h => hk (List.cons_prefix_cons.1 h).1.symm⟩

/-- **Where paths are apart, their places are.** -/
theorem apart_place {ls : List String} (hks : ∀ k ∈ ks, PlainKey k) (hls : ∀ k ∈ ls, PlainKey k)
    (hne : ks ≠ []) (hne' : ls ≠ []) (h : Apart ks ls) : Apart (place ks) (place ls) := by
  rw [place, place]
  split
  · split
    · exact h
    · next hbad => exact (apart_singleton (point_mem_dotted hbad) hks hne).symm
  · next hbad =>
    split
    · exact apart_singleton (point_mem_dotted hbad) hls hne'
    · have hdotted : dotted ks ≠ dotted ls := fun he =>
        h.1 (dotted_inj hks hls hne hne' he ▸ List.prefix_rfl)
      exact ⟨fun hle => hdotted (List.cons_prefix_cons.1 hle).1,
        fun hle => hdotted (List.cons_prefix_cons.1 hle).1.symm⟩

theorem dotted_place (path : List String) : dotted (place path) = dotted path := by
  rw [place]
  split
  · rfl
  · exact dotted_singleton _

theorem place_ne_nil {path : List String} (h : path ≠ []) : place path ≠ [] := by
  rw [place]
  split
  · exact h
  · exact List.cons_ne_nil _ _

theorem lowercase_of_mem_place (hlower : ∀ k ∈ ks, Text.lowercase k = k) :
    ∀ k ∈ place ks, Text.lowercase k = k := by
  rw [place]
  split
  · exact hlower
  · exact List.forall_mem_singleton.2 (lowercase_dotted hlower)

end Path

end Settings
end Replication
