import Replication.Partition

/-!
# Each side of a diff by itself

A run reports the partitions that it created and those that it altered as they come, in any
order.  The diff is the two sides put next to each other: what it says about one side is
what was reported for this side, one group after the other, and the reports for the other
side in between leave no trace.

The key types are less well kept.  Within a side the first ones that say anything count, but
between the sides the created one comes first even if it says nothing, and then the key
types of the altered one are not told.

* `PartitionDiff.side_recordAll`: a side of the diff is what was reported for it.
* `PartitionDiff.sides_are_gathered_apart`: the two sides and the list of touched partitions,
  for every sequence of reports.
* `PartitionDiff.key_types_are_told_iff`: when the key types of some report are told.
-/

namespace Replication

namespace PartitionGroup

/-- The first key types that say anything; no key types if none do. -/
def leadingKeyTypes (gs : List PartitionGroup) : KeyTypes :=
  ((gs.map keyTypes).find? fun ks => !ks.isEmpty).getD ∅

/-- What several groups make up together; nothing if there are none. -/
def gathered : List PartitionGroup → Option PartitionGroup
  | [] => none
  | g :: gs => some ⟨leadingKeyTypes (g :: gs), (g :: gs).flatMap partitions⟩

variable {g : PartitionGroup} {gs : List PartitionGroup} {ks : KeyTypes}

theorem eq_empty_of_isEmpty (h : ks.isEmpty = true) : ks = ∅ :=
  Keyed.ext_pairs (List.isEmpty_iff.1 h)

theorem leadingKeyTypes_singleton (g : PartitionGroup) : leadingKeyTypes [g] = g.keyTypes := by
  cases hg : g.keyTypes.isEmpty with
  | true => simpa [leadingKeyTypes, hg] using (eq_empty_of_isEmpty hg).symm
  | false => simp [leadingKeyTypes, hg]

/-- The first key types that say anything stay, and others only come in where none do. -/
theorem leadingKeyTypes_concat (gs : List PartitionGroup) (g : PartitionGroup) :
    leadingKeyTypes (gs ++ [g]) =
      if (leadingKeyTypes gs).isEmpty then g.keyTypes else leadingKeyTypes gs := by
  induction gs with
  | nil => exact leadingKeyTypes_singleton g
  | cons a gs ih =>
    cases ha : a.keyTypes.isEmpty with
    | true => simpa [leadingKeyTypes, ha] using ih
    | false => simp [leadingKeyTypes, ha]

/-- Key types that say something are those of one of the groups. -/
theorem exists_mem_of_isEmpty_leadingKeyTypes (h : (leadingKeyTypes gs).isEmpty = false) :
    ∃ g ∈ gs, g.keyTypes = leadingKeyTypes gs := by
  cases hfind : (gs.map keyTypes).find? fun ks => !ks.isEmpty with
  | none =>
    rw [leadingKeyTypes, hfind] at h
    cases h
  | some ks =>
    rw [leadingKeyTypes, hfind]
    exact List.mem_map.1 (List.mem_of_find?_eq_some hfind)

/-- They say something as soon as one of the groups does. -/
theorem isEmpty_leadingKeyTypes_of_mem (hg : g ∈ gs) (h : g.keyTypes.isEmpty = false) :
    (leadingKeyTypes gs).isEmpty = false := by
  cases hfind : (gs.map keyTypes).find? fun ks => !ks.isEmpty with
  | none =>
    have := List.find?_eq_none.1 hfind g.keyTypes (List.mem_map_of_mem hg)
    rw [h] at this
    exact absurd rfl this
  | some ks =>
    have hks := List.find?_some hfind
    rw [leadingKeyTypes, hfind]
    simpa using hks

theorem gathered_concat (gs : List PartitionGroup) (g : PartitionGroup) :
    gathered (gs ++ [g]) = some (PartitionDiff.gather (gathered gs) g) := by
  cases gs with
  | nil =>
    show some (PartitionGroup.mk (leadingKeyTypes [g]) ([g].flatMap partitions)) = some g
    rw [leadingKeyTypes_singleton, List.flatMap_singleton]
  | cons a gs =>
    rw [List.cons_append, gathered, ← List.cons_append, leadingKeyTypes_concat,
      List.flatMap_append, List.flatMap_singleton]
    rfl

end PartitionGroup

namespace PartitionDiff

open PartitionGroup

/-- What a diff says about one side. -/
def side (d : PartitionDiff) : Touch → Option PartitionGroup
  | .created => d.created
  | .altered => d.altered

/-- The groups that were reported for one side, in their order. -/
def reported (t : Touch) (reports : List (Touch × PartitionGroup)) : List PartitionGroup :=
  (reports.filter fun r => r.1 = t).map Prod.snd

variable {d e : PartitionDiff} {t u : Touch} {g : PartitionGroup} {gs : List PartitionGroup}
  {reports others : List (Touch × PartitionGroup)}

theorem ext_side (h : ∀ t, d.side t = e.side t) : d = e := by
  obtain ⟨c, a⟩ := d
  obtain ⟨c', a'⟩ := e
  obtain rfl : c = c' := h .created
  obtain rfl : a = a' := h .altered
  rfl

@[simp] theorem reported_nil (t : Touch) : reported t [] = [] := rfl

theorem reported_cons_self (t : Touch) (g : PartitionGroup)
    (reports : List (Touch × PartitionGroup)) :
    reported t ((t, g) :: reports) = g :: reported t reports := by
  simp [reported]

theorem reported_cons_of_ne (h : t ≠ u) (g : PartitionGroup)
    (reports : List (Touch × PartitionGroup)) :
    reported u ((t, g) :: reports) = reported u reports := by
  simp [reported, h]

theorem mem_reported : g ∈ reported t reports ↔ (t, g) ∈ reports := by
  simp [reported]

theorem reported_eq_nil_iff : reported t reports = [] ↔ ∀ r ∈ reports, r.1 ≠ t := by
  simp [reported]

/-! ## The sides -/

theorem side_record_self (d : PartitionDiff) (t : Touch) (g : PartitionGroup) :
    (d.record t g).side t = some (gather (d.side t) g) := by
  cases t <;> rfl

theorem side_record_of_ne (h : t ≠ u) (d : PartitionDiff) (g : PartitionGroup) :
    (d.record t g).side u = d.side u := by
  cases t <;> cases u <;> first | rfl | exact absurd rfl h

/-- A side goes on to be what was reported for it. -/
theorem side_recordAll_of_gathered (h : d.side t = gathered gs)
    (reports : List (Touch × PartitionGroup)) :
    (d.recordAll reports).side t = gathered (gs ++ reported t reports) := by
  induction reports generalizing d gs with
  | nil => rw [recordAll_nil, reported_nil, List.append_nil, h]
  | cons r reports ih =>
    obtain ⟨u, g⟩ := r
    rw [recordAll_cons]
    by_cases hu : u = t
    · subst hu
      have hstep : (d.record u g).side u = gathered (gs ++ [g]) := by
        rw [side_record_self, h, gathered_concat]
      rw [ih hstep, reported_cons_self, List.append_assoc, List.singleton_append]
    · have hstep : (d.record u g).side t = gathered gs := by
        rw [side_record_of_ne hu, h]
      rw [ih hstep, reported_cons_of_ne hu]

/-- **A side of the diff is what was reported for it.** -/
theorem side_recordAll (t : Touch) (reports : List (Touch × PartitionGroup)) :
    (recordAll {} reports).side t = gathered (reported t reports) := by
  have hstart : side {} t = gathered [] := by cases t <;> rfl
  exact side_recordAll_of_gathered hstart reports

theorem recordAll_eq_gathered (reports : List (Touch × PartitionGroup)) :
    recordAll {} reports =
      ⟨gathered (reported .created reports), gathered (reported .altered reports)⟩ := by
  refine ext_side fun t => ?_
  rw [side_recordAll]
  cases t <;> rfl

theorem gathered_eq_none_iff : gathered gs = none ↔ gs = [] := by
  cases gs <;> simp [gathered]

theorem eq_of_gathered_eq_some (h : gathered gs = some g) :
    g.partitions = gs.flatMap partitions ∧ g.keyTypes = leadingKeyTypes gs := by
  cases gs with
  | nil => cases h
  | cons a gs =>
    obtain rfl := Option.some.inj h
    exact ⟨rfl, rfl⟩

theorem sideValues_gathered (gs : List PartitionGroup) :
    sideValues (gathered gs) = gs.flatMap values := by
  cases gs with
  | nil => rfl
  | cons g gs => exact List.map_flatMap

/-- **Each side is gathered by itself, and nothing is lost.**  Any reports are made, for either
side in any order.

A side is absent exactly if there was no report for it.  Otherwise its partitions are those of
its reports, one after the other, and its key types are the first ones that say anything.  The
diff is the same for all sequences of reports that have the same reports for each side.  The
list of touched partitions is absent exactly if there was no report at all, and otherwise has
the values of all created partitions in their order and then those of all altered ones. -/
theorem sides_are_gathered_apart (reports : List (Touch × PartitionGroup)) :
    (∀ t, ((recordAll {} reports).side t = none ↔ reported t reports = []) ∧
      ∀ g, (recordAll {} reports).side t = some g →
        g.partitions = (reported t reports).flatMap partitions ∧
        g.keyTypes = leadingKeyTypes (reported t reports)) ∧
    (∀ others, (∀ t, reported t others = reported t reports) →
      recordAll {} others = recordAll {} reports) ∧
    ((recordAll {} reports).modified? = none ↔ reports = []) ∧
    ∀ touched, (recordAll {} reports).modified? = some touched →
      touched = (reported .created reports).flatMap values ++
        (reported .altered reports).flatMap values := by
  refine ⟨?_, ?_, ?_, ?_⟩
  · intro t
    rw [side_recordAll]
    exact ⟨gathered_eq_none_iff, fun g => eq_of_gathered_eq_some⟩
  · intro others h
    refine ext_side fun t => ?_
    rw [side_recordAll, side_recordAll, h]
  · exact (modified?_eq_none_iff _).trans (isEmpty_recordAll_empty reports)
  · intro touched h
    rw [recordAll_eq_gathered, modified?] at h
    split at h
    · cases h
    · rw [← Option.some.inj h, sideValues_gathered, sideValues_gathered]

/-- A report without partitions and without key types comes between two reports for the other
side.  It makes its side present, and it could as well have come first. -/
theorem empty_report_comes_between :
    (recordAll {} [(.altered, ⟨∅, [⟨["x"], some ⟨"/x"⟩⟩]⟩), (.created, ⟨∅, []⟩),
        (.altered, ⟨.ofList [("k", "int")], [⟨["x"], none⟩]⟩)]) =
      recordAll {} [(.created, ⟨∅, []⟩), (.altered, ⟨∅, [⟨["x"], some ⟨"/x"⟩⟩]⟩),
        (.altered, ⟨.ofList [("k", "int")], [⟨["x"], none⟩]⟩)] ∧
    ∃ created altered touched,
      (recordAll {} [(.created, ⟨∅, []⟩), (.altered, ⟨∅, [⟨["x"], some ⟨"/x"⟩⟩]⟩),
        (.altered, ⟨.ofList [("k", "int")], [⟨["x"], none⟩]⟩)]) =
          ⟨some created, some altered⟩ ∧
      created.partitions = [] ∧
      altered.partitions = [⟨["x"], some ⟨"/x"⟩⟩, ⟨["x"], none⟩] ∧
      altered.keyTypes = .ofList [("k", "int")] ∧
      PartitionDiff.modified? ⟨some created, some altered⟩ = some touched ∧
      touched = [["x"], ["x"]] := by
  obtain ⟨hside, hsame, -, htouched⟩ := sides_are_gathered_apart
    [(.created, ⟨∅, []⟩), (.altered, ⟨∅, [⟨["x"], some ⟨"/x"⟩⟩]⟩),
      (.altered, ⟨.ofList [("k", "int")], [⟨["x"], none⟩]⟩)]
  refine ⟨hsame _ fun t => by cases t <;> rfl, _, _, _, rfl, ?_, ?_, ?_, rfl, ?_⟩
  · exact ((hside .created).2 _ rfl).1
  · exact ((hside .altered).2 _ rfl).1
  · exact ((hside .altered).2 _ rfl).2
  · exact htouched _ rfl

/-! ## The key types -/

/-- One side speaks for the table: the created one if anything was reported for it. -/
def speaking (reports : List (Touch × PartitionGroup)) : Touch :=
  if reported .created reports = [] then .altered else .created

/-- **The key types that are told** are the first ones of the side that speaks. -/
theorem keyTypes?_recordAll (hne : reports ≠ []) :
    (recordAll {} reports).keyTypes? =
      some (leadingKeyTypes (reported (speaking reports) reports)) := by
  rw [recordAll_eq_gathered, keyTypes?, speaking]
  cases hc : reported .created reports with
  | cons g gs => rw [if_neg (List.cons_ne_nil g gs), hc]; rfl
  | nil =>
    rw [if_pos rfl]
    cases ha : reported .altered reports with
    | cons g gs => rfl
    | nil =>
      obtain ⟨⟨t, g⟩, hr⟩ := List.exists_mem_of_ne_nil reports hne
      cases t with
      | created => exact absurd rfl (reported_eq_nil_iff.1 hc _ hr)
      | altered => exact absurd rfl (reported_eq_nil_iff.1 ha _ hr)

/-- The altered side speaks exactly if it is the only one. -/
theorem speaking_eq_altered_iff :
    speaking reports = .altered ↔ ∀ r ∈ reports, r.1 = .altered := by
  have hnone : speaking reports = .altered ↔ reported .created reports = [] := by
    rw [speaking]
    split <;> simp [*]
  have hother : ∀ t : Touch, t ≠ .created ↔ t = .altered := by
    intro t
    cases t <;> simp
  rw [hnone, reported_eq_nil_iff]
  exact forall₂_congr fun r _ => hother r.1

/-- **Key types are told unless the created side hides them.**  Some report has key types.  The
diff tells key types, and those of a report, exactly if no created partitions were reported or
one of the reports on created partitions has key types. -/
theorem key_types_are_told_iff (h : ∃ r ∈ reports, r.2.keyTypes.isEmpty = false) :
    (∃ ks, (recordAll {} reports).keyTypes? = some ks ∧ ks.isEmpty = false ∧
        ∃ r ∈ reports, r.2.keyTypes = ks) ↔
      (∀ r ∈ reports, r.1 = .altered) ∨
        ∃ r ∈ reports, r.1 = .created ∧ r.2.keyTypes.isEmpty = false := by
  obtain ⟨known, hknown, hkeys⟩ := h
  rw [keyTypes?_recordAll (List.ne_nil_of_mem hknown)]
  constructor
  · rintro ⟨ks, hks, hne, -⟩
    obtain rfl := Option.some.inj hks
    obtain ⟨g, hg, hkey⟩ := exists_mem_of_isEmpty_leadingKeyTypes hne
    cases ht : speaking reports with
    | altered => exact Or.inl (speaking_eq_altered_iff.1 ht)
    | created =>
      rw [ht] at hg hkey hne
      exact Or.inr ⟨(.created, g), mem_reported.1 hg, rfl, hkey ▸ hne⟩
  · intro hor
    have htold : ∃ r ∈ reports, r.1 = speaking reports ∧ r.2.keyTypes.isEmpty = false := by
      obtain hall | ⟨r, hr, ht, hr'⟩ := hor
      · exact ⟨known, hknown, (hall known hknown).trans (speaking_eq_altered_iff.2 hall).symm,
          hkeys⟩
      · refine ⟨r, hr, ?_, hr'⟩
        cases hs : speaking reports with
        | created => exact ht
        | altered => exact absurd (speaking_eq_altered_iff.1 hs r hr) (by rw [ht]; simp)
    obtain ⟨⟨t, g⟩, hr, rfl, hg⟩ := htold
    have hne := isEmpty_leadingKeyTypes_of_mem (mem_reported.2 hr) hg
    obtain ⟨q, hq, hkey⟩ := exists_mem_of_isEmpty_leadingKeyTypes hne
    exact ⟨_, rfl, hne, (_, q), mem_reported.1 hq, hkey⟩

/-- Created partitions are reported twice, the second time with key types. -/
theorem late_key_types_are_told :
    (∃ r ∈ [(Touch.altered, PartitionGroup.mk ∅ [⟨["b"], none⟩]), (.created, ⟨∅, []⟩),
        (.created, ⟨.ofList [("k", "int")], []⟩)], r.2.keyTypes.isEmpty = false) ∧
      ∃ ks, (recordAll {} [(.altered, ⟨∅, [⟨["b"], none⟩]⟩), (.created, ⟨∅, []⟩),
          (.created, ⟨.ofList [("k", "int")], []⟩)]).keyTypes? = some ks ∧
        ks.isEmpty = false := by
  have hknown : ∃ r ∈ [(Touch.altered, PartitionGroup.mk ∅ [⟨["b"], none⟩]),
      (.created, ⟨∅, []⟩), (.created, ⟨.ofList [("k", "int")], []⟩)],
      r.2.keyTypes.isEmpty = false := ⟨_, .tail _ (.tail _ (.head _)), rfl⟩
  obtain ⟨ks, hks, hne, -⟩ := (key_types_are_told_iff hknown).2
    (Or.inr ⟨_, .tail _ (.tail _ (.head _)), rfl, rfl⟩)
  exact ⟨hknown, ks, hks, hne⟩

/-- Key types that were reported with altered partitions are not told any more once created
partitions are reported without.  The values of both are listed, with nothing to name them. -/
theorem created_side_hides_key_types :
    (∃ r ∈ [(Touch.altered, PartitionGroup.mk (.ofList [("k", "int")]) [⟨["b"], none⟩]),
        (.created, ⟨∅, [⟨["a"], none⟩]⟩)], r.2.keyTypes.isEmpty = false) ∧
      (recordAll {} [(.altered, ⟨.ofList [("k", "int")], [⟨["b"], none⟩]⟩),
        (.created, ⟨∅, [⟨["a"], none⟩]⟩)]).modified? = some [["a"], ["b"]] ∧
      ¬ ∃ ks, (recordAll {} [(.altered, ⟨.ofList [("k", "int")], [⟨["b"], none⟩]⟩),
        (.created, ⟨∅, [⟨["a"], none⟩]⟩)]).keyTypes? = some ks ∧ ks.isEmpty = false := by
  refine ⟨⟨_, .head _, rfl⟩, rfl, ?_⟩
  rintro ⟨ks, hks, hne⟩
  obtain rfl : ∅ = ks := Option.some.inj hks
  cases hne

end PartitionDiff
end Replication
