/-!
# Values under keys

A keyed collection holds one value under each of its keys, in the order in which
the keys first came.  Putting a value under a known key replaces the value and
leaves the key in its place.

The view of a collection is `find?`: after `put` the key has the new value, after
`erase` it has none, and every other key is as it was.
-/

namespace Replication

/-- Values under distinct keys, in the order of the keys' first appearance. -/
structure Keyed (β : Type) where
  pairs : List (String × β)
  nodup : (pairs.map Prod.fst).Nodup

namespace Keyed

variable {β : Type}

instance [DecidableEq β] : DecidableEq (Keyed β) := fun a b =>
  decidable_of_iff (a.pairs = b.pairs)
    ⟨fun h => by cases a; cases b; cases h; rfl, fun h => h ▸ rfl⟩

/-- Puts a value under a key in a list of pairs. -/
def putIn (key : String) (value : β) : List (String × β) → List (String × β)
  | [] => [(key, value)]
  | (k, v) :: ps => if k = key then (k, value) :: ps else (k, v) :: putIn key value ps

/-- The keys stay where they are, and a new one comes last. -/
theorem keys_putIn (key : String) (value : β) (ps : List (String × β)) :
    (putIn key value ps).map Prod.fst =
      if key ∈ ps.map Prod.fst then ps.map Prod.fst else ps.map Prod.fst ++ [key] := by
  induction ps with
  | nil => simp [putIn]
  | cons p ps ih =>
      obtain ⟨k, v⟩ := p
      by_cases h : k = key
      · simp [putIn, h]
      · have h' : key ≠ k := fun e => h e.symm
        simp only [putIn, if_neg h, List.map_cons, ih, List.mem_cons, h', false_or]
        split <;> simp

theorem nodup_putIn (key : String) (value : β) {ps : List (String × β)}
    (h : (ps.map Prod.fst).Nodup) : ((putIn key value ps).map Prod.fst).Nodup := by
  rw [keys_putIn]
  split
  · exact h
  · next hn =>
    rw [List.nodup_append]
    exact ⟨h, by simp, fun a ha b hb e => hn (by
      rw [List.mem_singleton] at hb
      exact hb ▸ e ▸ ha)⟩

theorem putIn_of_notMem {key : String} (value : β) {ps : List (String × β)}
    (h : key ∉ ps.map Prod.fst) : putIn key value ps = ps ++ [(key, value)] := by
  induction ps with
  | nil => rfl
  | cons p ps ih =>
      obtain ⟨k, v⟩ := p
      have hne : k ≠ key := fun he => h (he ▸ List.mem_cons_self)
      rw [putIn, if_neg hne, ih fun hk => h (List.mem_cons_of_mem _ hk), List.cons_append]

/-- Nothing under any key. -/
def empty : Keyed β := ⟨[], by simp⟩

instance : EmptyCollection (Keyed β) := ⟨empty⟩

instance : Inhabited (Keyed β) := ⟨empty⟩

/-- Puts a value under a key. -/
def put (m : Keyed β) (key : String) (value : β) : Keyed β :=
  ⟨putIn key value m.pairs, nodup_putIn key value m.nodup⟩

/-- Removes a key with its value. -/
def erase (m : Keyed β) (key : String) : Keyed β :=
  ⟨m.pairs.filter fun p => p.1 != key,
    m.nodup.sublist (List.filter_sublist.map Prod.fst)⟩

/-- Puts values under keys one after the other. -/
def ofList (ps : List (String × β)) : Keyed β :=
  ps.foldl (fun m p => m.put p.1 p.2) empty

/-- Values put under distinct keys are kept as they come. -/
theorem pairs_foldl_put (m : Keyed β) {ps : List (String × β)}
    (h : ((m.pairs ++ ps).map Prod.fst).Nodup) :
    (ps.foldl (fun m p => m.put p.1 p.2) m).pairs = m.pairs ++ ps := by
  induction ps generalizing m with
  | nil => rw [List.foldl_nil, List.append_nil]
  | cons p ps ih =>
      have hp : p.1 ∉ m.pairs.map Prod.fst := by
        rw [List.map_append, List.nodup_append] at h
        exact fun hmem => h.2.2 p.1 hmem p.1 List.mem_cons_self rfl
      have hput : (m.put p.1 p.2).pairs = m.pairs ++ [p] := putIn_of_notMem p.2 hp
      have happend : m.pairs ++ p :: ps = (m.put p.1 p.2).pairs ++ ps := by
        rw [hput, List.append_assoc, List.singleton_append]
      rw [happend] at h ⊢
      exact ih (m.put p.1 p.2) h

theorem ext_pairs {m n : Keyed β} (h : m.pairs = n.pairs) : m = n := by
  cases m
  cases n
  cases h
  rfl

/-- **A collection is its list of keys and values.** -/
theorem ofList_pairs (m : Keyed β) : ofList m.pairs = m :=
  ext_pairs (pairs_foldl_put empty m.nodup)

theorem forall_putIn {P : β → Prop} {key : String} {value : β} {ps : List (String × β)}
    (hvalue : P value) (hps : ∀ p ∈ ps, P p.2) : ∀ p ∈ putIn key value ps, P p.2 := by
  induction ps with
  | nil => exact List.forall_mem_singleton.2 hvalue
  | cons p ps ih =>
      obtain ⟨hp, hps⟩ := List.forall_mem_cons.1 hps
      rw [putIn]
      split
      · exact List.forall_mem_cons.2 ⟨hvalue, hps⟩
      · exact List.forall_mem_cons.2 ⟨hp, ih hps⟩

theorem forall_ofList {P : β → Prop} {ps : List (String × β)} (h : ∀ p ∈ ps, P p.2) :
    ∀ p ∈ (ofList ps).pairs, P p.2 := by
  have hfold : ∀ m : Keyed β, (∀ p ∈ m.pairs, P p.2) →
      ∀ p ∈ (ps.foldl (fun m p => m.put p.1 p.2) m).pairs, P p.2 := by
    induction ps with
    | nil => exact fun m hm => hm
    | cons p ps ih =>
        obtain ⟨hp, hps⟩ := List.forall_mem_cons.1 h
        exact fun m hm => ih hps (m.put p.1 p.2) (forall_putIn hp hm)
  exact hfold empty fun p hp => by cases hp

/-- The keys, in the order of their first appearance. -/
def keys (m : Keyed β) : List String := m.pairs.map Prod.fst

/-- How many keys there are. -/
def size (m : Keyed β) : Nat := m.pairs.length

/-- Whether there is no key. -/
def isEmpty (m : Keyed β) : Bool := m.pairs.isEmpty

/-- The value under a key. -/
def find? (m : Keyed β) (key : String) : Option β := m.pairs.lookup key

theorem lookup_putIn (key k : String) (value : β) (ps : List (String × β)) :
    (putIn key value ps).lookup k = if k = key then some value else ps.lookup k := by
  induction ps with
  | nil =>
      by_cases h : k = key
      · simp [putIn, h]
      · simp [putIn, h, List.lookup_cons, beq_eq_false_iff_ne.2 h]
  | cons p ps ih =>
      obtain ⟨a, b⟩ := p
      by_cases ha : a = key
      · subst ha
        simp only [putIn, if_true, List.lookup_cons]
        by_cases h : k = a
        · simp [h]
        · simp [h, beq_eq_false_iff_ne.2 h]
      · simp only [putIn, if_neg ha, List.lookup_cons, ih]
        by_cases h : k = a
        · simp [h, ha]
        · simp [beq_eq_false_iff_ne.2 h]

@[simp] theorem find?_put (m : Keyed β) (key k : String) (value : β) :
    (m.put key value).find? k = if k = key then some value else m.find? k :=
  lookup_putIn key k value m.pairs

theorem lookup_filter_ne (key k : String) (ps : List (String × β)) :
    (ps.filter fun p => p.1 != key).lookup k = if k = key then none else ps.lookup k := by
  induction ps with
  | nil => simp
  | cons p ps ih =>
      obtain ⟨a, b⟩ := p
      by_cases ha : a = key
      · subst ha
        simp only [List.filter_cons, bne_self_eq_false, Bool.false_eq_true, if_false, ih,
          List.lookup_cons]
        by_cases h : k = a
        · simp [h]
        · simp [h, beq_eq_false_iff_ne.2 h]
      · have hb : (a != key) = true := bne_iff_ne.2 ha
        simp only [List.filter_cons, hb, if_true, List.lookup_cons, ih]
        by_cases h : k = a
        · simp [h, ha]
        · simp [beq_eq_false_iff_ne.2 h]

@[simp] theorem find?_erase (m : Keyed β) (key k : String) :
    (m.erase key).find? k = if k = key then none else m.find? k :=
  lookup_filter_ne key k m.pairs

theorem mem_keys_iff (m : Keyed β) (key : String) :
    key ∈ m.keys ↔ (m.find? key).isSome = true := by
  rw [keys, find?]
  induction m.pairs with
  | nil => simp
  | cons p ps ih =>
      obtain ⟨k, v⟩ := p
      rw [List.map_cons, List.mem_cons, List.lookup_cons]
      by_cases hk : key = k
      · simp [hk]
      · simp [hk, beq_eq_false_iff_ne.2 hk, ih]

end Keyed

end Replication
