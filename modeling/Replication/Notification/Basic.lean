/-!
# What every notification carries

A replication run is reported when it starts and when it ends, well or badly: these
are the phases of a run.

Headers are fixed texts under fixed names that go with every notification.  They have
no order of their own and are kept in the order of their names, so that equal headers
are equal values and are written alike.
-/

namespace Replication

/-- The moment of a run that a notification reports. -/
inductive Phase where
  | start
  | success
  | failure
  deriving DecidableEq, Repr

namespace Phase

/-- Every phase, in the order in which runs pass through them. -/
def all : List Phase := [start, success, failure]

theorem mem_all (p : Phase) : p ∈ all := by
  cases p <;> decide

/-- The name of a phase on the wire and in metrics. -/
def name : Phase → String
  | start => "START"
  | success => "SUCCESS"
  | failure => "FAILURE"

/-- The phase with a given name. -/
def ofName? (s : String) : Option Phase :=
  all.find? fun p => p.name == s

theorem ofName?_name (p : Phase) : ofName? p.name = some p := by
  cases p <;> decide

end Phase

/-- Named texts, in increasing order of the names. -/
structure Headers where
  pairs : List (String × String)
  sorted : pairs.Pairwise fun p q => p.1 < q.1
  deriving DecidableEq

namespace Headers

/-- Puts a text under a name into a sorted list, in place of one that is there. -/
def insertIn (name value : String) : List (String × String) → List (String × String)
  | [] => [(name, value)]
  | (n, v) :: ps =>
      if name < n then (name, value) :: (n, v) :: ps
      else if n = name then (name, value) :: ps
      else (n, v) :: insertIn name value ps

theorem mem_insertIn {name value : String} {ps : List (String × String)}
    {p : String × String} (h : p ∈ insertIn name value ps) :
    p = (name, value) ∨ p ∈ ps := by
  induction ps with
  | nil => simpa [insertIn] using h
  | cons q ps ih =>
      obtain ⟨n, v⟩ := q
      simp only [insertIn] at h
      split at h
      · simpa using h
      · split at h
        · rcases List.mem_cons.1 h with h | h
          · exact Or.inl h
          · exact Or.inr (List.mem_cons_of_mem _ h)
        · rcases List.mem_cons.1 h with h | h
          · exact Or.inr (h ▸ List.mem_cons_self)
          · exact (ih h).imp id (List.mem_cons_of_mem _)

theorem sorted_insertIn (name value : String) {ps : List (String × String)}
    (h : ps.Pairwise fun p q => p.1 < q.1) :
    (insertIn name value ps).Pairwise fun p q => p.1 < q.1 := by
  induction ps with
  | nil => simp [insertIn]
  | cons q ps ih =>
      obtain ⟨n, v⟩ := q
      have hq := List.pairwise_cons.1 h
      simp only [insertIn]
      split
      · next hlt =>
        refine List.pairwise_cons.2 ⟨fun p hp => ?_, h⟩
        rcases List.mem_cons.1 hp with hp | hp
        · exact hp ▸ hlt
        · exact String.lt_trans hlt (hq.1 p hp)
      · next hge =>
        split
        · next heq =>
          exact List.pairwise_cons.2 ⟨fun p hp => heq ▸ hq.1 p hp, hq.2⟩
        · next hne =>
          refine List.pairwise_cons.2 ⟨fun p hp => ?_, ih hq.2⟩
          rcases mem_insertIn hp with hp | hp
          · subst hp
            exact Decidable.byContradiction fun hn =>
              hne (String.le_antisymm (String.not_lt.1 hge) (String.not_lt.1 hn))
          · exact hq.1 p hp

theorem insertIn_of_forall_lt (value : String) {name : String} {ps : List (String × String)}
    (h : ∀ p ∈ ps, p.1 < name) : insertIn name value ps = ps ++ [(name, value)] := by
  induction ps with
  | nil => rfl
  | cons p ps ih =>
      obtain ⟨n, v⟩ := p
      have hn : n < name := h _ List.mem_cons_self
      have hlt : ¬name < n := fun hlt => String.lt_irrefl n (String.lt_trans hn hlt)
      have hne : n ≠ name := fun he => String.lt_irrefl n (he ▸ hn)
      rw [insertIn, if_neg hlt, if_neg hne, ih fun q hq => h q (List.mem_cons_of_mem _ hq),
        List.cons_append]

/-- No headers. -/
def none : Headers := ⟨[], List.Pairwise.nil⟩

instance : Inhabited Headers := ⟨none⟩

/-- Sets a header. -/
def insert (hs : Headers) (name value : String) : Headers :=
  ⟨insertIn name value hs.pairs, sorted_insertIn name value hs.sorted⟩

/-- Sets headers one after the other; the last text under a name stays. -/
def ofList (ps : List (String × String)) : Headers :=
  ps.foldl (fun hs p => hs.insert p.1 p.2) none

/-- Headers set in increasing order of their names are kept as they come. -/
theorem pairs_foldl_insert (hs : Headers) {ps : List (String × String)}
    (h : (hs.pairs ++ ps).Pairwise fun p q => p.1 < q.1) :
    (ps.foldl (fun hs p => hs.insert p.1 p.2) hs).pairs = hs.pairs ++ ps := by
  induction ps generalizing hs with
  | nil => rw [List.foldl_nil, List.append_nil]
  | cons p ps ih =>
      have hp : ∀ q ∈ hs.pairs, q.1 < p.1 := fun q hq =>
        (List.pairwise_append.1 h).2.2 q hq p List.mem_cons_self
      have hinsert : (hs.insert p.1 p.2).pairs = hs.pairs ++ [p] :=
        insertIn_of_forall_lt p.2 hp
      have happend : hs.pairs ++ p :: ps = (hs.insert p.1 p.2).pairs ++ ps := by
        rw [hinsert, List.append_assoc, List.singleton_append]
      rw [happend] at h ⊢
      exact ih (hs.insert p.1 p.2) h

theorem ext_pairs {hs ks : Headers} (h : hs.pairs = ks.pairs) : hs = ks := by
  cases hs
  cases ks
  cases h
  rfl

/-- **Headers are their list of names and texts.** -/
theorem ofList_pairs (hs : Headers) : ofList hs.pairs = hs :=
  ext_pairs (pairs_foldl_insert none hs.sorted)

end Headers

end Replication
