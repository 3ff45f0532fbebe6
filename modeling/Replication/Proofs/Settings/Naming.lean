import Mathlib.Data.List.Infix
import Mathlib.Data.List.Pairwise
import Replication.Proofs.Settings.Spelling
import Replication.Settings.Variables

/-!
# The places that variables name

Behind its prefix the name of a variable is a path with pairs of underscores for points, and so
it names a place in the tree of settings: cut at these pairs, it is the list of the keys that
lead there.  A single underscore belongs to a key.  That the variable is set in this place is a
matter of spelling; a name that is badly spelled is a single key.

* `Value.assign_dotted`: to set a leaf by the text of a path is to lay a tree over that holds
  nothing else.
* `Variable.apart_places` and `Variable.agree_places`: what is apart and agrees by the names does
  so by the places.
* `Variable.leaf?_overlay_layer`: so variables are as many layers as there are, and they are
  laid over a tree leaf by leaf.
-/

namespace Replication
namespace Settings

namespace Variable

/-- A text cut at its pairs of underscores, from left to right. -/
def cut : List Char → List (List Char)
  | '_' :: '_' :: cs => [] :: cut cs
  | c :: cs =>
      match cut cs with
      | [] => [[c]]
      | piece :: pieces => (c :: piece) :: pieces
  | [] => [[]]

/-- The keys that the name of a variable is made of, if it names a place. -/
def path? (name : String) : Option (List String) :=
  match (Text.lowercase name).toList with
  | 'a' :: 'p' :: 'p' :: '_' :: cs => some ((cut cs).map String.ofList)
  | _ => none

/-- The place that a variable names, if it names one. -/
def place? (name : String) : Option (List String) :=
  (path? name).map Path.place

/-- The paths that variables name. -/
def paths (vars : List (String × String)) : List (List String) :=
  vars.filterMap fun v => path? v.1

/-- The places of the leaves that variables set. -/
def places (vars : List (String × String)) : List (List String) :=
  vars.filterMap fun v => place? v.1

/-- The keys in the names of variables are plain. -/
def HavePlainKeys (vars : List (String × String)) : Prop :=
  ∀ v ∈ vars, ∀ ks ∈ path? v.1, ∀ k ∈ ks, PlainKey k

/-- The leaf that variables set in a place, if one of them does. -/
def leaf? (listKeys : List String) (vars : List (String × String)) (path : List String) :
    Option Value :=
  (vars.find? fun v => place? v.1 == some path).map fun v =>
    value listKeys (Path.dotted path) v.2

end Variable

/-! ## Leaves at the ends of some paths -/

/-- What leaves at the ends of some paths say of a path: there is a leaf, or a table that leads to
one. -/
def outlineOf (ends : List (List String)) (path : List String) : Option Bool :=
  if path ∈ ends then some false
  else if ∃ p ∈ ends, path <+: p then some true
  else none

section Ends

variable {ends : List (List String)} {q : List String} {n : List String → Option Bool} {b : Bool}

/-- When the ends are apart, each of them decides what is said on the way to it. -/
theorem outlineOf_eq_some_iff (hapart : ends.Pairwise Apart) :
    outlineOf ends q = some b ↔ ∃ p ∈ ends, q <+: p ∧ (b = false ↔ q = p) := by
  rw [outlineOf]
  constructor
  · intro h
    split at h
    · next hmem =>
      exact ⟨q, hmem, List.prefix_rfl, fun _ => rfl, fun _ => (Option.some.inj h).symm⟩
    · next hnew =>
      split at h
      · next hway =>
        obtain ⟨p, hp, hway⟩ := hway
        obtain rfl : true = b := Option.some.inj h
        exact ⟨p, hp, hway, fun he => Bool.noConfusion he, fun he => absurd (he ▸ hp) hnew⟩
      · cases h
  · rintro ⟨p, hp, hway, hb⟩
    by_cases hq : q = p
    · rw [if_pos (hq ▸ hp), hb.2 hq]
    · have hnew : q ∉ ends := fun hq' => (hapart.forall hq' hp hq).1 hway
      have htrue : b = true := Bool.ne_false_iff.1 fun he => hq (hb.1 he)
      rw [if_neg hnew, if_pos ⟨p, hp, hway⟩, htrue]

/-- To agree with leaves at the ends of some paths is to have no leaf on the way to one and no
table at its end. -/
theorem agree_outlineOf_iff (hapart : ends.Pairwise Apart) :
    Agree (outlineOf ends) n ↔ ∀ p ∈ ends, ∀ q ∈ p.inits, ∀ b ∈ n q, b = false ↔ q = p := by
  constructor
  · intro h p hp q hq b hb
    have hsaid : outlineOf ends q = some (decide (q ≠ p)) :=
      (outlineOf_eq_some_iff hapart).2
        ⟨p, hp, (List.mem_inits q p).1 hq, by rw [decide_eq_false_iff_not, not_not]⟩
    rw [← h q _ hsaid b hb, decide_eq_false_iff_not, not_not]
  · intro h q a ha b hb
    obtain ⟨p, hp, hway, ha⟩ := (outlineOf_eq_some_iff hapart).1 ha
    have hfalse := ha.trans (h p hp q ((List.mem_inits q p).2 hway) b hb).symm
    exact Bool.eq_iff_iff.2 (by simpa using not_congr hfalse)

/-- What some of the ends say of a path, all of them say. -/
theorem outlineOf_of_sublist {ends' : List (List String)} (hsub : ends'.Sublist ends)
    (hapart : ends.Pairwise Apart) (h : outlineOf ends' q = some b) :
    outlineOf ends q = some b := by
  obtain ⟨p, hp, hq⟩ := (outlineOf_eq_some_iff (hapart.sublist hsub)).1 h
  exact (outlineOf_eq_some_iff hapart).2 ⟨p, hsub.subset hp, hq⟩

end Ends

/-! ## Trees that hold one leaf -/

namespace Value

variable {t u x : Value} {key : String} {path : List String}

/-- The entries that lead to a leaf and nowhere else. -/
def nest (x : Value) : List String → List (String × Value)
  | [] => []
  | [key] => [(key, x)]
  | key :: k :: path => [(key, table (nest x (k :: path)))]

/-- What a value is set in counts only by its entries. -/
theorem set_congr (h : t.entries = u.entries) (key : String) (v : Value) :
    t.set key v = u.set key v := by
  have hget : ∀ k, t.get? k = u.get? k := by
    intro k
    rw [get?, get?, h]
  rw [set_eq, set_eq, hget, put, put, h]

theorem merge_nest_congr (h : t.entries = u.entries) (hpath : path ≠ []) (x : Value) :
    t.merge (nest x path) = u.merge (nest x path) := by
  rcases path with _ | ⟨key, _ | ⟨k, path⟩⟩
  · exact absurd rfl hpath
  · simp only [nest, merge]
    exact set_congr h key x
  · simp only [nest, merge]
    exact set_congr h key _

/-- To set a leaf at a path is to lay a tree over that holds nothing else. -/
theorem setAt_eq_merge (hpath : path ≠ []) (hlower : ∀ k ∈ path, Text.lowercase k = k)
    (t x : Value) : setAt x (path.map .key) t = t.merge (nest x path) := by
  induction path generalizing t with
  | nil => exact absurd rfl hpath
  | cons key path ih =>
    obtain ⟨hkey, hlower⟩ := List.forall_mem_cons.1 hlower
    cases path with
    | nil => rw [List.map_singleton, setAt, nest, merge, merge]
    | cons k path =>
      have hne : k :: path ≠ [] := List.cons_ne_nil _ _
      have hnone : nil.merge (nest x (k :: path)) = (table []).merge (nest x (k :: path)) :=
        merge_nest_congr (t := nil) (u := table []) rfl hne x
      rw [List.map_cons, List.map_cons, setAt, ← List.map_cons, ih hne hlower, nest, merge, merge,
        set, hkey]
      · cases t.get? key with
        | none => rw [Option.getD_none, Option.getD_none, hnone]
        | some v => rfl
      · exact List.cons_ne_nil _ _

/-- A leaf set at a well-spelled path is a layer that holds nothing else. -/
theorem assign_of_wellSpelled (hpath : path ≠ []) (hplain : ∀ k ∈ path, PlainKey k)
    (hspelled : WellSpelled path) (t x : Value) :
    t.assign (Path.dotted path) x = t.merge (nest x path) := by
  rcases hspelled with hone | hsteps
  · obtain ⟨key, rfl⟩ := List.length_eq_one_iff.1 hone
    rw [Path.dotted_singleton, assign_of_plainKey (hplain key List.mem_cons_self), nest, merge,
      merge]
  · have hlower : ∀ k ∈ path, Text.lowercase k = k := fun k hk => (hplain k hk).lower
    obtain ⟨key, ks, rfl⟩ := List.exists_cons_of_ne_nil hpath
    obtain ⟨hkey, hks⟩ := List.forall_mem_cons.1 hsteps
    rw [assign, Path.lowercase_dotted hlower, Path.ofText?_dotted hkey hks]
    exact setAt_eq_merge hpath hlower t x

/-- **A leaf set at a path** is laid over in the place of the path. -/
theorem assign_dotted (hpath : path ≠ []) (hplain : ∀ k ∈ path, PlainKey k) (t x : Value) :
    t.assign (Path.dotted path) x = t.merge (nest x (Path.place path)) := by
  have hlower : ∀ k ∈ path, Text.lowercase k = k := fun k hk => (hplain k hk).lower
  rw [Path.place]
  split
  · next hspelled => exact assign_of_wellSpelled hpath hplain hspelled t x
  · next hbad =>
    rw [assign, Path.lowercase_dotted hlower, Path.ofText?_dotted_eq_none hplain hbad, nest, merge,
      merge]

theorem WellKeyed.singleton (hkey : Text.lowercase key = key) (hx : x.WellKeyed) :
    (table [(key, x)]).WellKeyed where
  lower := .table (List.forall_mem_singleton.2 hkey) (List.forall_mem_singleton.2 hx.lower)
  distinct := .table (List.pairwise_singleton _ key) (List.forall_mem_singleton.2 hx.distinct)

theorem wellKeyed_nest (hx : x.isTable = false) (hpath : path ≠ [])
    (hlower : ∀ k ∈ path, Text.lowercase k = k) : (table (nest x path)).WellKeyed := by
  induction path with
  | nil => exact absurd rfl hpath
  | cons key path ih =>
    obtain ⟨hkey, hlower⟩ := List.forall_mem_cons.1 hlower
    cases path with
    | nil => exact .singleton hkey ⟨.leaf hx, .leaf hx⟩
    | cons k path => exact .singleton hkey (ih (List.cons_ne_nil _ _) hlower)

theorem standing_nest (hx : x.isTable = false) (hpath : path ≠ []) (q : List String) :
    (table (nest x path)).standing q =
      if q = path then some (some x) else if q <+: path then some none else none := by
  induction path generalizing q with
  | nil => exact absurd rfl hpath
  | cons key path ih =>
    rcases q with _ | ⟨k, q⟩
    · rw [if_neg (List.cons_ne_nil _ _).symm, if_pos List.nil_prefix]
      rfl
    · have hget : (table (nest x (key :: path))).get? k =
          if k = key then some (if path = [] then x else table (nest x path)) else none := by
        cases path <;> by_cases hk : k = key <;> simp [get?, nest, hk]
      rw [standing_cons, hget]
      simp only [List.cons_prefix_cons, List.cons.injEq]
      by_cases hk : k = key
      · subst hk
        simp only [if_true, true_and, Option.bind_some]
        cases path with
        | nil =>
          cases q with
          | nil => rw [if_pos rfl, if_pos rfl, standing_nil, hx]; rfl
          | cons c q => rw [if_pos rfl, standing_cons_of_leaf hx]; simp
        | cons c path => rw [if_neg (List.cons_ne_nil _ _), ih (List.cons_ne_nil _ _)]
      · simp [hk]

theorem leaf?_nest (hx : x.isTable = false) (hpath : path ≠ []) (q : List String) :
    (table (nest x path)).leaf? q = if q = path then some x else none := by
  rw [leaf?_eq, standing_nest hx hpath]
  split
  · rfl
  · split <;> rfl

theorem outline_nest (hx : x.isTable = false) (hpath : path ≠ []) :
    (table (nest x path)).outline = outlineOf [path] := by
  funext q
  rw [outline_eq, standing_nest hx hpath, outlineOf]
  simp only [List.mem_singleton, exists_eq_left]
  split
  · rfl
  · split <;> rfl

theorem prefix_of_outline_nest (hx : x.isTable = false) (hpath : path ≠ []) {q : List String}
    {b : Bool} (h : (table (nest x path)).outline q = some b) :
    q <+: path ∧ (b = false ↔ q = path) := by
  rw [outline_nest hx hpath, outlineOf_eq_some_iff (List.pairwise_singleton _ _)] at h
  obtain ⟨p, hp, h⟩ := h
  exact List.mem_singleton.1 hp ▸ h

/-- Trees whose leaves are apart agree: they share tables only. -/
theorem agree_nest {p q : List String} {y : Value} (hx : x.isTable = false)
    (hy : y.isTable = false) (hp : p ≠ []) (hq : q ≠ []) (h : Apart p q) :
    Agree (table (nest x p)).outline (table (nest y q)).outline := by
  intro r a ha b hb
  obtain ⟨hrp, ha⟩ := prefix_of_outline_nest hx hp ha
  obtain ⟨hrq, hb⟩ := prefix_of_outline_nest hy hq hb
  have hap : a ≠ false := fun he => h.1 (ha.1 he ▸ hrq)
  have hbq : b ≠ false := fun he => h.2 (hb.1 he ▸ hrp)
  rw [Bool.ne_false_iff] at hap hbq
  rw [hap, hbq]

theorem outline_singleton_eq_none {es : List (String × Value)} (hes : (table es).HasPlainKeys)
    (hkey : '.' ∈ key.toList) : (table es).outline [key] = none := by
  have hget : (table es).get? key = none := by
    rw [get?, entries_table, List.lookup_eq_none_iff]
    intro e he
    exact bne_iff_ne.2 fun heq => (hes.entries.1 e he).noPoint (heq ▸ hkey)
  rw [outline, at?, hget]
  rfl

end Value

/-! ## Variables as layers -/

namespace Variable

variable {listKeys : List String} {vars : List (String × String)} {path q : List String}

theorem cut_ne_nil (cs : List Char) : cut cs ≠ [] := by
  fun_cases cut cs <;> simp_all

/-- Turning pairs of underscores into points is cutting at them and putting points between the
pieces. -/
theorem points_eq (cs : List Char) : points cs = Path.dots (cut cs) := by
  fun_induction points cs with
  | case1 cs ih =>
    obtain ⟨k, ks, hcut⟩ := List.exists_cons_of_ne_nil (cut_ne_nil cs)
    rw [cut, ih, hcut]
    rfl
  | case2 c cs h ih =>
    obtain ⟨k, ks, hcut⟩ := List.exists_cons_of_ne_nil (cut_ne_nil cs)
    rw [ih, hcut, cut, hcut]
    · rfl
    · exact h
  | case3 => rfl

/-- **The key that a variable sets** is the text of the path that its name is cut into. -/
theorem key?_eq (name : String) : key? name = (path? name).map Path.dotted := by
  have hback : String.toList ∘ String.ofList = id := funext fun _ => String.toList_ofList
  have hdotted : ∀ cs, Path.dotted ((cut cs).map String.ofList) = String.ofList (points cs) := by
    intro cs
    rw [Path.dotted, List.map_map, hback, List.map_id, points_eq]
  rw [key?.eq_def, path?.eq_def]
  split <;> simp_all

theorem ne_nil_of_path?_eq_some {name : String} {ks : List String} (h : path? name = some ks) :
    ks ≠ [] := by
  rw [path?.eq_def] at h
  split at h
  · rw [← Option.some.inj h]
    exact fun hnil => cut_ne_nil _ (List.map_eq_nil_iff.1 hnil)
  · cases h

theorem ne_nil_of_place?_eq_some {name : String} (h : place? name = some path) : path ≠ [] := by
  obtain ⟨ks, hks, rfl⟩ := Option.map_eq_some_iff.1 h
  exact Path.place_ne_nil (ne_nil_of_path?_eq_some hks)

theorem isTable_value (listKeys : List String) (key s : String) :
    (value listKeys key s).isTable = false := by
  unfold value
  dsimp only
  repeat' split
  all_goals rfl

/-- **Where the names of variables are apart, their places are.** -/
theorem apart_places (hplain : HavePlainKeys vars) (hapart : (paths vars).Pairwise Apart) :
    (places vars).Pairwise Apart := by
  rw [places, List.pairwise_filterMap]
  rw [paths, List.pairwise_filterMap] at hapart
  refine hapart.imp_of_mem fun {v w} hv hw h p hp q hq => ?_
  obtain ⟨ks, hks, rfl⟩ := Option.map_eq_some_iff.1 hp
  obtain ⟨ls, hls, rfl⟩ := Option.map_eq_some_iff.1 hq
  exact Path.apart_place (hplain v hv ks hks) (hplain w hw ls hls) (ne_nil_of_path?_eq_some hks)
    (ne_nil_of_path?_eq_some hls) (h ks hks ls hls)

/-- What agrees with the names of variables, and has plain keys, agrees with their places. -/
theorem agree_places {es : List (String × Value)} (hplain : HavePlainKeys vars)
    (hapart : (paths vars).Pairwise Apart) (hes : (Value.table es).HasPlainKeys)
    (h : Agree (outlineOf (paths vars)) (Value.table es).outline) :
    Agree (outlineOf (places vars)) (Value.table es).outline := by
  rw [agree_outlineOf_iff hapart] at h
  rw [agree_outlineOf_iff (apart_places hplain hapart)]
  intro p hp q hq b hb
  obtain ⟨v, hv, hplace⟩ := List.mem_filterMap.1 hp
  obtain ⟨ks, hks, rfl⟩ := Option.map_eq_some_iff.1 hplace
  rw [Path.place] at hq ⊢
  split at hq
  · next hspelled =>
    rw [if_pos hspelled]
    exact h ks (List.mem_filterMap.2 ⟨v, hv, hks⟩) q hq b hb
  · next hbad =>
    rw [if_neg hbad]
    rcases List.mem_pair.1 hq with rfl | rfl
    · -- at the top there is a table
      obtain rfl : true = b := Option.some.inj hb
      exact iff_of_false (by decide) (List.cons_ne_nil _ _).symm
    · -- and no key in it has a point
      rw [Value.outline_singleton_eq_none hes (Path.point_mem_dotted hbad)] at hb
      cases hb

/-- The layers that variables make up, each of them with one leaf. -/
def trees (listKeys : List String) (vars : List (String × String)) :
    List (List (String × Value)) :=
  vars.filterMap fun v =>
    (place? v.1).map fun path => Value.nest (value listKeys (Path.dotted path) v.2) path

/-- **Variables are laid over a tree one after the other.** -/
theorem overlay_layer (hplain : HavePlainKeys vars) (listKeys : List String) (t : Value) :
    t.overlay (layer listKeys vars) = (trees listKeys vars).foldl Value.merge t := by
  induction vars generalizing t with
  | nil => rfl
  | cons v vars ih =>
    obtain ⟨hkeys, hplain⟩ := List.forall_mem_cons.1 hplain
    rw [layer, trees, List.filterMap_cons, List.filterMap_cons, key?_eq, place?]
    cases hpath : path? v.1 with
    | none => exact ih hplain t
    | some ks =>
      have hone := Value.assign_dotted (ne_nil_of_path?_eq_some hpath) (hkeys ks hpath) t
        (value listKeys (Path.dotted ks) v.2)
      simp only [Option.map_some, Value.overlay, List.foldl_cons, hone, Path.dotted_place]
      exact ih hplain _

theorem mem_trees {es : List (String × Value)} (h : es ∈ trees listKeys vars) :
    ∃ v ∈ vars, ∃ ks, path? v.1 = some ks ∧
      ∃ x, x.isTable = false ∧ es = Value.nest x (Path.place ks) := by
  obtain ⟨v, hv, hes⟩ := List.mem_filterMap.1 h
  obtain ⟨p, hp, rfl⟩ := Option.map_eq_some_iff.1 hes
  obtain ⟨ks, hks, rfl⟩ := Option.map_eq_some_iff.1 hp
  exact ⟨v, hv, ks, hks, _, isTable_value .., rfl⟩

theorem wellKeyed_of_mem_trees (hplain : HavePlainKeys vars) {es : List (String × Value)}
    (h : es ∈ trees listKeys vars) : (Value.table es).WellKeyed := by
  obtain ⟨v, hv, ks, hks, x, hx, rfl⟩ := mem_trees h
  exact Value.wellKeyed_nest hx (Path.place_ne_nil (ne_nil_of_path?_eq_some hks))
    (Path.lowercase_of_mem_place fun k hk => (hplain v hv ks hks k hk).lower)

theorem agree_trees (hapart : (places vars).Pairwise Apart) :
    (trees listKeys vars).Pairwise fun es fs =>
      Agree (Value.table fs).outline (Value.table es).outline := by
  rw [trees, List.pairwise_filterMap]
  rw [places, List.pairwise_filterMap] at hapart
  refine hapart.imp fun {v w} h es hes fs hfs => ?_
  obtain ⟨p, hp, rfl⟩ := Option.map_eq_some_iff.1 hes
  obtain ⟨q, hq, rfl⟩ := Option.map_eq_some_iff.1 hfs
  exact (Value.agree_nest (isTable_value ..) (isTable_value ..) (ne_nil_of_place?_eq_some hp)
    (ne_nil_of_place?_eq_some hq) (h p hp q hq)).symm

/-- What one variable says of a path the variables say together. -/
theorem outline_of_mem_trees (hapart : (places vars).Pairwise Apart)
    {es : List (String × Value)} (h : es ∈ trees listKeys vars) {b : Bool}
    (hb : (Value.table es).outline q = some b) : outlineOf (places vars) q = some b := by
  obtain ⟨v, hv, ks, hks, x, hx, rfl⟩ := mem_trees h
  have hplace : place? v.1 = some (Path.place ks) := by rw [place?, hks, Option.map_some]
  exact (outlineOf_eq_some_iff hapart).2 ⟨_, List.mem_filterMap.2 ⟨v, hv, hplace⟩,
    Value.prefix_of_outline_nest hx (Path.place_ne_nil (ne_nil_of_path?_eq_some hks)) hb⟩

theorem leaf?_of_notMem (h : q ∉ places vars) : leaf? listKeys vars q = none := by
  rw [leaf?, Option.map_eq_none_iff, List.find?_eq_none]
  intro v hv hpath
  exact h (List.mem_filterMap.2 ⟨v, hv, beq_iff_eq.1 hpath⟩)

/-- A further variable sets the leaf in its place and leaves the others. -/
theorem leaf?_insert {before behind : List (String × String)} {v : String × String}
    {p : List String} (hapart : (places (before ++ v :: behind)).Pairwise Apart)
    (hv : place? v.1 = some p) (listKeys : List String) (q : List String) :
    leaf? listKeys (before ++ v :: behind) q =
      if q = p then some (value listKeys (Path.dotted p) v.2)
      else leaf? listKeys (before ++ behind) q := by
  rw [leaf?, leaf?, List.find?_append, List.find?_append, List.find?_cons, hv]
  by_cases hq : q = p
  · subst hq
    -- none of the variables before it names the place
    have hbefore : (before.find? fun w => place? w.1 == some q) = none := by
      rw [List.find?_eq_none]
      intro w hw hplace
      rw [places, List.filterMap_append, List.pairwise_append] at hapart
      have hmem : q ∈ (v :: behind).filterMap fun v => place? v.1 :=
        List.mem_filterMap.2 ⟨v, List.mem_cons_self, hv⟩
      exact (hapart.2.2 q (List.mem_filterMap.2 ⟨w, hw, beq_iff_eq.1 hplace⟩) q hmem).1
        List.prefix_rfl
    rw [if_pos rfl, hbefore, Option.none_or, beq_self_eq_true, Option.map_some]
  · have hne : (some p == some q) = false := beq_eq_false_iff_ne.2 fun he =>
      hq (Option.some.inj he).symm
    rw [if_neg hq, hne]

/-- Of variables that are apart, the one that sets a leaf is the last one to do so. -/
theorem foldl_leaf?_trees (hapart : (places vars).Pairwise Apart) (listKeys : List String)
    (q : List String) (found : Option Value) :
    (trees listKeys vars).foldl (fun found es => ((Value.table es).leaf? q).or found) found =
      (leaf? listKeys vars q).or found := by
  induction vars generalizing found with
  | nil => rfl
  | cons v vars ih =>
    rw [places, List.filterMap_cons] at hapart
    rw [trees, List.filterMap_cons, leaf?, List.find?_cons]
    cases hpath : place? v.1 with
    | none =>
      rw [hpath] at hapart
      exact ih hapart found
    | some ks =>
      rw [hpath] at hapart
      obtain ⟨hfirst, hapart⟩ := List.pairwise_cons.1 hapart
      rw [Option.map_some, List.foldl_cons,
        Value.leaf?_nest (isTable_value ..) (ne_nil_of_place?_eq_some hpath)]
      refine (ih hapart _).trans ?_
      by_cases hq : q = ks
      · subst hq
        have hnew : q ∉ places vars := fun hmem => (hfirst q hmem).1 List.prefix_rfl
        simp [leaf?_of_notMem hnew]
      · have hne : (some ks == some q) = false := by simp [Ne.symm hq]
        rw [hne, if_neg hq]
        rfl

/-- **Leaf by leaf** variables are laid over a tree that agrees with them. -/
theorem leaf?_overlay_layer {t : Value} (ht : t.isTable = true) (hplain : HavePlainKeys vars)
    (hapart : (places vars).Pairwise Apart) (hagree : Agree (outlineOf (places vars)) t.outline)
    (listKeys : List String) (q : List String) :
    (t.overlay (layer listKeys vars)).leaf? q = (leaf? listKeys vars q).or (t.leaf? q) := by
  have hbase : ∀ es ∈ trees listKeys vars, Agree (Value.table es).outline t.outline :=
    fun es hes path a ha b hb => hagree path a (outline_of_mem_trees hapart hes ha) b hb
  rw [overlay_layer hplain, ← foldl_leaf?_trees hapart]
  exact Value.leaf?_foldl_merge ht (fun es hes => wellKeyed_of_mem_trees hplain hes)
    (agree_trees hapart) hbase q

end Variable
end Settings
end Replication
