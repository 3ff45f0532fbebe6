import Mathlib.Data.List.Basic
import Replication.Settings.Layer

/-!
# Layers over one another

At the end of a path a tree of settings has nothing, a table, or a leaf.  That is all there is
to see of it, and of two trees it decides what the one has to say that is laid over the other:
where the upper tree has something it is seen, and elsewhere the lower one.

This takes two things.  The keys of the upper tree must be in lower case and differ within each
table; and the trees must *agree* on what is a table, for a leaf over a table would hide all
that the table holds.  At the top of a layer a key must moreover be *plain*, without the signs of
a path, or it is not set as it is.

* `Value.standing_merge`: what is seen of a tree laid over another one.
* `Value.leaf?_foldl_merge`: of trees that agree two by two, the last one that has a leaf at the
  end of a path is seen there.
* `Value.overlay_eq_merge`: a layer with plain keys is laid over a tree in this way.
-/

namespace Replication
namespace Settings

/-- A key that means itself: it is in lower case, and nothing in it makes it a path. -/
structure PlainKey (key : String) : Prop where
  lower : Text.lowercase key = key
  noPoint : '.' ∉ key.toList
  noBracket : '[' ∉ key.toList

instance (key : String) : Decidable (PlainKey key) :=
  decidable_of_iff (Text.lowercase key = key ∧ '.' ∉ key.toList ∧ '[' ∉ key.toList)
    ⟨fun h => ⟨h.1, h.2.1, h.2.2⟩, fun h => ⟨h.lower, h.noPoint, h.noBracket⟩⟩

namespace Value

/-- Something holds of all tables of a tree, the lists left aside. -/
inductive AllTables (P : List (String × Value) → Prop) : Value → Prop where
  | leaf {v : Value} (h : v.isTable = false) : AllTables P v
  | table {es : List (String × Value)} (h : P es) (hes : ∀ e ∈ es, AllTables P e.2) :
      AllTables P (table es)

/-- The keys within each table of a tree are plain. -/
def HasPlainKeys : Value → Prop :=
  AllTables fun es => ∀ e ∈ es, PlainKey e.1

/-- The keys within each table of a tree are in lower case. -/
def HasLowerKeys : Value → Prop :=
  AllTables fun es => ∀ e ∈ es, Text.lowercase e.1 = e.1

/-- The keys within each table of a tree differ. -/
def HasDistinctKeys : Value → Prop :=
  AllTables fun es => (es.map Prod.fst).Nodup

/-- A tree whose keys are kept as they are, each of them in one place. -/
structure WellKeyed (v : Value) : Prop where
  lower : v.HasLowerKeys
  distinct : v.HasDistinctKeys

/-- What there is at the end of a path: nothing, a table, or a leaf. -/
def standing (v : Value) (path : List String) : Option (Option Value) :=
  (v.at? path).map fun w => if w.isTable then none else some w

/-- Whether there is a table at the end of a path, where there is something. -/
def outline (v : Value) (path : List String) : Option Bool :=
  (v.at? path).map isTable

end Value

/-- Where there is something in two layers, both have a table or neither has. -/
def Agree (m n : List String → Option Bool) : Prop :=
  ∀ path, ∀ a ∈ m path, ∀ b ∈ n path, a = b

theorem Agree.symm {m n : List String → Option Bool} (h : Agree m n) : Agree n m :=
  fun path b hb a ha => (h path a ha b hb).symm

theorem Agree.below {v t w u : Value} {key : String} (h : Agree v.outline t.outline)
    (hv : v.get? key = some w) (hu : t.get? key = some u) : Agree w.outline u.outline := by
  intro path a ha b hb
  refine h (key :: path) a ?_ b ?_
  · rw [Value.outline, Value.at?, hv]
    exact ha
  · rw [Value.outline, Value.at?, hu]
    exact hb

namespace Path

theorem stepsWithin_cons_of_ne {c : Char} (hpoint : c ≠ '.') (hbracket : c ≠ '[') (n : Nat)
    (cs : List Char) : stepsWithin n (c :: cs) = none := by
  cases n with
  | zero => rfl
  | succ n => rw [stepsWithin, if_neg hpoint, if_neg hbracket]

/-- A key without points and brackets is no path, or one that leads no further. -/
theorem ofText?_of_notMem {key : String} (hpoint : '.' ∉ key.toList) (hbracket : '[' ∉ key.toList) :
    ofText? key = none ∨ ofText? key = some ⟨key, []⟩ := by
  have hsplit := List.takeWhile_append_dropWhile (p := isKeyChar) (l := key.toList)
  rw [ofText?, key?]
  cases htake : key.toList.takeWhile isKeyChar with
  | nil => exact Or.inl rfl
  | cons c cs =>
    cases hdrop : key.toList.dropWhile isKeyChar with
    | nil =>
      rw [htake, hdrop, List.append_nil] at hsplit
      have hkey : String.ofList (c :: cs) = key := by rw [hsplit, String.ofList_toList]
      simp only [hkey]
      exact Or.inr rfl
    | cons d ds =>
      have hd : d ∈ key.toList := by
        rw [← hsplit, hdrop]
        exact List.mem_append_right _ List.mem_cons_self
      have hp : d ≠ '.' := fun he => hpoint (he ▸ hd)
      have hb : d ≠ '[' := fun he => hbracket (he ▸ hd)
      simp only [stepsWithin_cons_of_ne hp hb]
      exact Or.inl rfl

end Path

namespace Value

variable {P : List (String × Value) → Prop} {t u v w x : Value}
  {es fs : List (String × Value)} {key k : String} {path : List String}

/-! ## What there is to see -/

theorem AllTables.entries (h : AllTables P (.table es)) : P es ∧ ∀ e ∈ es, AllTables P e.2 := by
  cases h with
  | leaf h => cases h
  | table h hes => exact ⟨h, hes⟩

theorem AllTables.imp {Q : List (String × Value) → Prop} (hPQ : ∀ es, P es → Q es)
    (h : AllTables P v) : AllTables Q v := by
  induction h with
  | leaf h => exact .leaf h
  | table h _ ih => exact .table (hPQ _ h) ih

theorem HasPlainKeys.lower (h : v.HasPlainKeys) : v.HasLowerKeys :=
  AllTables.imp (fun _ hes e he => (hes e he).lower) h

theorem AllTables.of_lookup (h : AllTables P (.table es)) (hv : es.lookup key = some v) :
    AllTables P v := by
  obtain ⟨before, behind, rfl, -⟩ := List.lookup_eq_some_iff.1 hv
  exact h.entries.2 (key, v) (List.mem_append_right _ List.mem_cons_self)

theorem standing_nil (v : Value) :
    v.standing [] = some (if v.isTable then none else some v) := rfl

theorem standing_cons (v : Value) (key : String) (path : List String) :
    v.standing (key :: path) = (v.get? key).bind fun w => w.standing path := by
  rw [standing, at?, Option.map_bind]
  rfl

/-- Below a leaf there is nothing. -/
theorem standing_cons_of_leaf (h : v.isTable = false) (key : String) (path : List String) :
    v.standing (key :: path) = none := by
  cases v with
  | table es => cases h
  | _ => rfl

theorem outline_eq (v : Value) (path : List String) :
    v.outline path = (v.standing path).map Option.isNone := by
  rw [outline, standing, Option.map_map]
  congr 1
  funext w
  rw [Function.comp_apply]
  cases w.isTable <;> rfl

theorem leaf?_eq (v : Value) (path : List String) : v.leaf? path = (v.standing path).join := by
  rw [leaf?, standing]
  cases v.at? path with
  | none => rfl
  | some w =>
    rw [Option.map_some, Option.join_some, Option.filter_some]
    cases w.isTable <;> rfl

theorem agree_empty (es : List (String × Value)) :
    Agree (table es).outline (table []).outline := by
  intro path a ha b hb
  cases path with
  | nil => exact (Option.some.inj ha).symm.trans (Option.some.inj hb)
  | cons key path => cases hb

theorem or_standing_empty (es : List (String × Value)) (path : List String) :
    ((table es).standing path).or ((table []).standing path) = (table es).standing path := by
  cases path with
  | nil => rfl
  | cons key path => exact Option.or_none

/-! ## Trees laid over one another -/

/-- A value put over what is there, if anything. -/
def laidOver (there : Option Value) : Value → Value
  | table es => (there.getD (table [])).merge es
  | v => v

theorem laidOver_of_leaf (h : v.isTable = false) (there : Option Value) :
    laidOver there v = v := by
  cases v with
  | table es => cases h
  | _ => rfl

theorem set_eq (t : Value) (key : String) (v : Value) :
    t.set key v = t.put (Text.lowercase key) (laidOver (t.get? (Text.lowercase key)) v) := by
  cases v with
  | table es => rw [set, laidOver]
  | _ => rw [set, laidOver] <;> exact fun es h => by cases h

theorem isTable_merge (h : t.isTable = true) (es : List (String × Value)) :
    (t.merge es).isTable = true := by
  induction es generalizing t with
  | nil => rwa [merge]
  | cons e es ih =>
    rw [merge, set_eq]
    exact ih rfl

/-- **Key by key**, a table is laid over what is there, and the keys that it does not have are
as they were. -/
theorem get?_merge (hkeys : ∀ e ∈ es, Text.lowercase e.1 = e.1)
    (hnodup : (es.map Prod.fst).Nodup)
    (t : Value) (key : String) :
    (t.merge es).get? key =
      match es.lookup key with
      | none => t.get? key
      | some v => some (laidOver (t.get? key) v) := by
  induction es generalizing t with
  | nil => rw [merge, List.lookup_nil]
  | cons e es ih =>
    obtain ⟨k, v⟩ := e
    obtain ⟨hk, hes⟩ := List.forall_mem_cons.1 hkeys
    obtain ⟨hnew, hdistinct⟩ := List.nodup_cons.1 hnodup
    have hset : (t.set k v).get? key =
        if key = k then some (laidOver (t.get? k) v) else t.get? key := by
      rw [set_eq, get?_put, hk]
    rw [merge, ih hes hdistinct, hset]
    by_cases hkey : key = k
    · have hmissing : es.lookup key = none := by
        rw [List.lookup_eq_none_iff]
        intro p hp
        refine bne_iff_ne.2 ?_
        rintro rfl
        have hmem : p.1 ∈ es.map Prod.fst := List.mem_map_of_mem hp
        exact hnew (hkey ▸ hmem)
      rw [hmissing, hkey, List.lookup_cons_self, if_pos rfl]
    · rw [if_neg hkey, List.lookup_cons, beq_eq_false_iff_ne.2 hkey]

/-- **What is seen of a tree laid over another one**: its own where it has something, and what
was there elsewhere. -/
theorem standing_merge (ht : t.isTable = true) (hes : (table es).WellKeyed)
    (hagree : Agree (table es).outline t.outline) (path : List String) :
    (t.merge es).standing path = ((table es).standing path).or (t.standing path) := by
  induction path generalizing t es with
  | nil =>
    rw [standing_nil, isTable_merge ht]
    rfl
  | cons key path ih =>
    rw [standing_cons, standing_cons, standing_cons,
      get?_merge hes.lower.entries.1 hes.distinct.entries.1]
    have hget : (table es).get? key = es.lookup key := rfl
    rw [hget]
    cases hv : es.lookup key with
    | none => rfl
    | some v =>
      have hkeys : v.WellKeyed := ⟨hes.lower.of_lookup hv, hes.distinct.of_lookup hv⟩
      show (laidOver (t.get? key) v).standing path = (v.standing path).or _
      cases v with
      | table fs =>
        -- a table is laid over the table that is there, or over an empty one
        rw [laidOver]
        cases hu : t.get? key with
        | none =>
          rw [Option.getD_none, ih rfl hkeys (agree_empty fs), or_standing_empty,
            Option.bind_none, Option.or_none]
        | some u =>
          have hbelow : Agree (table fs).outline u.outline := hagree.below hv hu
          have hu : u.isTable = true := (hbelow [] true rfl _ rfl).symm
          rw [Option.getD_some, ih hu hkeys hbelow, Option.bind_some]
      | _ =>
        -- a leaf takes the place of a leaf, below which there is nothing
        rw [laidOver_of_leaf rfl]
        cases path with
        | nil => rfl
        | cons k path =>
          cases hu : t.get? key with
          | none => rfl
          | some u =>
            have hleaf : u.isTable = false := ((hagree.below hv hu) [] false rfl _ rfl).symm
            rw [standing_cons_of_leaf rfl, Option.bind_some, standing_cons_of_leaf hleaf]
            rfl

theorem outline_merge (ht : t.isTable = true) (hes : (table es).WellKeyed)
    (hagree : Agree (table es).outline t.outline) (path : List String) :
    (t.merge es).outline path = ((table es).outline path).or (t.outline path) := by
  rw [outline_eq, outline_eq, outline_eq, standing_merge ht hes hagree, Option.map_or]

/-- What agrees with two trees does so with the one laid over the other. -/
theorem agree_merge {m : List String → Option Bool} (ht : t.isTable = true)
    (hes : (table es).WellKeyed) (hagree : Agree (table es).outline t.outline)
    (hupper : Agree m (table es).outline) (hlower : Agree m t.outline) :
    Agree m (t.merge es).outline := by
  intro path a ha b hb
  rw [outline_merge ht hes hagree, Option.mem_def, Option.or_eq_some_iff] at hb
  rcases hb with hb | ⟨-, hb⟩
  · exact hupper path a ha b hb
  · exact hlower path a ha b hb

/-- A leaf hides no more than a leaf. -/
theorem leaf?_merge (ht : t.isTable = true) (hes : (table es).WellKeyed)
    (hagree : Agree (table es).outline t.outline) (path : List String) :
    (t.merge es).leaf? path = ((table es).leaf? path).or (t.leaf? path) := by
  have hboth := hagree path
  rw [outline_eq, outline_eq] at hboth
  rw [leaf?_eq, leaf?_eq, leaf?_eq, standing_merge ht hes hagree]
  rcases hupper : (table es).standing path with _ | (_ | x)
  · rfl
  · rcases hlower : t.standing path with _ | (_ | y)
    · rfl
    · rfl
    · rw [hupper, hlower] at hboth
      exact absurd (hboth true rfl false rfl) (by decide)
  · rfl

/-- **Of layers that agree two by two** the last one that has a leaf at the end of a path is
seen there, and where none of them has one, what was there before. -/
theorem leaf?_foldl_merge {layers : List (List (String × Value))} (ht : t.isTable = true)
    (hlayers : ∀ es ∈ layers, (table es).WellKeyed)
    (hagree : layers.Pairwise fun es fs => Agree (table fs).outline (table es).outline)
    (hbase : ∀ es ∈ layers, Agree (table es).outline t.outline) (path : List String) :
    (layers.foldl merge t).leaf? path =
      layers.foldl (fun found es => ((table es).leaf? path).or found) (t.leaf? path) := by
  induction layers generalizing t with
  | nil => rfl
  | cons es layers ih =>
    obtain ⟨hes, hrest⟩ := List.forall_mem_cons.1 hlayers
    obtain ⟨hfirst, hagree⟩ := List.pairwise_cons.1 hagree
    obtain ⟨hbelow, hbase⟩ := List.forall_mem_cons.1 hbase
    have hnext : ∀ fs ∈ layers, Agree (table fs).outline (t.merge es).outline :=
      fun fs hfs => agree_merge ht hes hbelow (hfirst fs hfs) (hbase fs hfs)
    rw [List.foldl_cons, List.foldl_cons, ih (isTable_merge ht es) hrest hagree hnext,
      leaf?_merge ht hes hbelow]

/-! ## Layers as they are given -/

theorem assign_of_plainKey (h : PlainKey key) (t x : Value) : t.assign key x = t.set key x := by
  rw [assign, h.lower]
  rcases Path.ofText?_of_notMem h.noPoint h.noBracket with hpath | hpath
  · rw [hpath]
  · rw [hpath]
    rfl

/-- A layer with plain keys is laid over a tree as it is. -/
theorem overlay_eq_merge (h : ∀ e ∈ es, PlainKey e.1) (t : Value) : t.overlay es = t.merge es := by
  induction es generalizing t with
  | nil => rw [overlay, List.foldl_nil, merge]
  | cons e es ih =>
    obtain ⟨he, hes⟩ := List.forall_mem_cons.1 h
    rw [overlay, List.foldl_cons, assign_of_plainKey he, merge]
    exact ih hes _

end Value
end Settings
end Replication
