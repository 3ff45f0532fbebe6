import Mathlib.Data.List.Forall2
import Replication.Proofs.Listing.Scan

/-!
# Cutting a listing at record boundaries

A plan is made of runs of entries, while a worker is given two offsets.  What ties them
together is that the entries of a listing stand without gap: a run of neighbours is the
entries of some objects, and its split reaches from the boundary before these objects to
the boundary behind them.  `Cut` says this of a whole plan, piece by piece, and everything
else is read off it by induction:

* `Cut.of_flatten`: runs that make up the entries of a listing are a cut of it.
* `Cut.tiles`: the splits follow each other without gap, and none is empty.
* `Cut.forall_readSplit`: each worker reads back its own run.
* `Cut.map_held`: the entries that begin within a split are its run.
-/

namespace Replication
namespace Listing

variable {as bs cs : List (String × UInt64)}

/-! ## The split of a run -/

/-- The last of some neighbouring entries ends where their records end. -/
theorem getLast?_entriesFrom (position : Nat) (hne : bs ≠ []) :
    ∃ last, (entriesFrom position bs).getLast? = some last ∧
      last.stop = position + (records bs).length := by
  induction bs generalizing position with
  | nil => exact absurd rfl hne
  | cons o bs ih =>
    rcases bs with _ | ⟨p, bs⟩
    · exact ⟨⟨o.1, o.2, position⟩, rfl, by
        rw [length_records_cons, records_nil, List.length_nil, Entry.stop, Nat.add_zero]⟩
    · obtain ⟨last, hlast, hstop⟩ := ih (position + recordSize o.1) (List.cons_ne_nil _ _)
      refine ⟨last, ?_, ?_⟩
      · rw [entriesFrom, entriesFrom, List.getLast?_cons_cons, ← entriesFrom]
        exact hlast
      · rw [hstop, length_records_cons o, Nat.add_assoc]

theorem length_records_pos (hne : bs ≠ []) : 0 < (records bs).length := by
  obtain ⟨o, os, rfl⟩ := List.exists_cons_of_ne_nil hne
  rw [length_records_cons, recordSize]
  omega

/-- The split of neighbouring entries covers exactly their records. -/
theorem ofRun_entriesFrom (position : Nat) (hne : bs ≠ []) :
    Split.ofRun (entriesFrom position bs) = ⟨position, (records bs).length⟩ := by
  obtain ⟨last, hlast, hstop⟩ := getLast?_entriesFrom position hne
  have hhead : ∃ e, (entriesFrom position bs).head? = some e ∧ e.position = position := by
    obtain ⟨o, os, rfl⟩ := List.exists_cons_of_ne_nil hne
    exact ⟨_, rfl, rfl⟩
  obtain ⟨first, hfirst, hpos⟩ := hhead
  rw [Split.ofRun, hfirst, hlast]
  simp only [hpos, hstop, Nat.add_sub_cancel_left]

/-! ## Cuts -/

/-- The objects `bs`, which come after the objects `as` of a listing, are cut into pieces
that are not empty.  With each piece go the split that covers its records and the run of
its entries. -/
inductive Cut : List (String × UInt64) → List (String × UInt64) → List Split →
    List (List Entry) → Prop where
  | nil (as : List (String × UInt64)) : Cut as [] [] []
  | cons {as piece bs : List (String × UInt64)} {splits : List Split}
      {runs : List (List Entry)} (hne : piece ≠ []) (h : Cut (as ++ piece) bs splits runs) :
      Cut as (piece ++ bs) (⟨boundary as, (records piece).length⟩ :: splits)
        (entriesFrom (boundary as) piece :: runs)

/-- **Runs that make up the entries of a listing are a cut of it**, together with the
splits that cover them. -/
theorem Cut.of_flatten {L : List (List Entry)} (hL : [] ∉ L)
    (h : L.flatten = entriesFrom (boundary as) bs) : Cut as bs (L.map Split.ofRun) L := by
  induction L generalizing as bs with
  | nil =>
    rcases bs with _ | ⟨o, os⟩
    · exact Cut.nil as
    · exact absurd h (by simp [entriesFrom])
  | cons run L ih =>
    have hrun : run ≠ [] := by
      rintro rfl
      exact hL List.mem_cons_self
    have hruns : [] ∉ L := by
      intro hm
      exact hL (List.mem_cons_of_mem _ hm)
    -- the run is the entries of as many objects as it has entries
    have hlen : run.length ≤ bs.length := by
      have := congrArg List.length h
      rw [List.flatten_cons, List.length_append, length_entriesFrom] at this
      omega
    have hsplit := entriesFrom_append (boundary as) (bs.take run.length) (bs.drop run.length)
    rw [List.take_append_drop, ← h, List.flatten_cons, ← boundary_append] at hsplit
    obtain ⟨hpiece, hrest⟩ := List.append_inj hsplit (by
      rw [length_entriesFrom, List.length_take, Nat.min_eq_left hlen])
    have hne : bs.take run.length ≠ [] := by
      intro h0
      exact hrun (by rw [hpiece, h0, entriesFrom])
    have hcut := Cut.cons hne (ih hruns hrest)
    rw [List.take_append_drop, ← ofRun_entriesFrom (boundary as) hne, ← hpiece] at hcut
    exact hcut

/-! ## What can be read off a cut -/

/-- Splits that follow each other without gap from one offset up to another, none of them
being empty. -/
def Tiles : Nat → Nat → List Split → Prop
  | start, stop, [] => start = stop
  | start, stop, s :: ss => s.start = start ∧ 0 < s.length ∧ Tiles (s.start + s.length) stop ss

instance : ∀ (start stop : Nat) (splits : List Split), Decidable (Tiles start stop splits)
  | start, stop, [] => inferInstanceAs (Decidable (start = stop))
  | start, stop, s :: ss =>
      have : Decidable (Tiles (s.start + s.length) stop ss) := instDecidableTiles _ stop ss
      inferInstanceAs (Decidable (s.start = start ∧ 0 < s.length ∧ _))

namespace Cut

variable {splits : List Split} {runs : List (List Entry)}

theorem flatten_eq (h : Cut as bs splits runs) :
    runs.flatten = entriesFrom (boundary as) bs := by
  induction h with
  | nil as => rfl
  | cons hne h ih => rw [List.flatten_cons, ih, boundary_append, ← entriesFrom_append]

/-- **The splits tile the part of the listing that is cut.** -/
theorem tiles (h : Cut as bs splits runs) :
    Tiles (boundary as) (boundary (as ++ bs)) splits := by
  induction h with
  | nil as => rw [Tiles, List.append_nil]
  | cons hne h ih =>
    refine ⟨rfl, length_records_pos hne, ?_⟩
    rwa [List.append_assoc, boundary_append] at ih

theorem eq_nil_iff (h : Cut as bs splits runs) : splits = [] ↔ bs = [] := by
  cases h with
  | nil as => exact ⟨fun _ => rfl, fun _ => rfl⟩
  | cons hne h =>
    constructor
    · intro h0
      exact absurd h0 (List.cons_ne_nil _ _)
    · intro h0
      exact absurd (List.append_eq_nil_iff.1 h0).1 hne

theorem position_lt_stop (h : Cut as bs splits runs) :
    ∀ run ∈ runs, ∀ first ∈ run.head?, ∀ last ∈ run.getLast?,
      first.position < last.stop := by
  induction h with
  | nil as => exact fun _ h0 => absurd h0 List.not_mem_nil
  | @cons as piece bs splits runs hne h ih =>
    intro run hrun first hfirst last hlast
    rcases List.mem_cons.1 hrun with rfl | hrun
    · obtain ⟨l, hl, hstop⟩ := getLast?_entriesFrom (boundary as) hne
      obtain rfl : l = last := Option.some.inj (hl.symm.trans hlast)
      obtain ⟨o, os, rfl⟩ := List.exists_cons_of_ne_nil hne
      obtain rfl : _ = first := Option.some.inj hfirst
      rw [hstop]
      exact Nat.lt_add_of_pos_right (length_records_pos hne)
    · exact ih run hrun first hfirst last hlast

/-- **Each worker reads back its own run**, wherever its reader was before, and its split
has an end. -/
theorem forall_readSplit (h : Cut as bs splits runs) (hb : Storable bs) :
    List.Forall₂ (fun (split : Split) run =>
      ∀ worker : Reader, worker.source.Holds (as ++ bs) →
        split.stop? = some (split.start + split.length) ∧
          (worker.readSplit split).1 = .ok run) splits runs := by
  induction h with
  | nil as => exact List.Forall₂.nil
  | @cons as piece bs splits runs hne h ih =>
    refine List.Forall₂.cons (fun worker hw => ⟨?_, ?_⟩) ?_
    · refine if_pos ?_
      have := hw.words
      rw [length_encode, boundary_append, records_append, List.length_append] at this
      show boundary as + (records piece).length < Word.count64
      omega
    · exact Reader.readSplit_of_holds hw hb.of_append_left hne
    · have := ih hb.of_append_right
      rwa [List.append_assoc] at this

end Cut

/-! ## Entries that begin within a split -/

/-- The entries that begin within a split. -/
def Split.held (s : Split) (es : List Entry) : List Entry :=
  es.filter fun e => decide (s.start ≤ e.position) && decide (e.position < s.start + s.length)

theorem position_of_mem_entriesFrom {position : Nat} {e : Entry}
    (h : e ∈ entriesFrom position bs) :
    position ≤ e.position ∧ e.position < position + (records bs).length := by
  induction bs generalizing position with
  | nil => exact absurd h List.not_mem_nil
  | cons o os ih =>
    rw [length_records_cons, recordSize]
    rw [entriesFrom] at h
    rcases List.mem_cons.1 h with rfl | h
    · exact ⟨Nat.le_refl _, by simp only; omega⟩
    · have := ih h
      rw [recordSize] at this
      omega

/-- A split holds the entries of the objects whose records it covers, and no others. -/
theorem held_entriesFrom (position : Nat) :
    Split.held ⟨position + (records as).length, (records bs).length⟩
        (entriesFrom position (as ++ (bs ++ cs))) =
      entriesFrom (position + (records as).length) bs := by
  have before : (Split.held ⟨position + (records as).length, (records bs).length⟩
      (entriesFrom position as)) = [] := by
    refine List.filter_eq_nil_iff.2 fun e he => ?_
    have := position_of_mem_entriesFrom he
    simp only [Bool.and_eq_true, decide_eq_true_eq]
    omega
  have within : (Split.held ⟨position + (records as).length, (records bs).length⟩
      (entriesFrom (position + (records as).length) bs)) =
      entriesFrom (position + (records as).length) bs := by
    refine List.filter_eq_self.2 fun e he => ?_
    have := position_of_mem_entriesFrom he
    simp only [Bool.and_eq_true, decide_eq_true_eq]
    omega
  have behind : (Split.held ⟨position + (records as).length, (records bs).length⟩
      (entriesFrom (position + (records as).length + (records bs).length) cs)) = [] := by
    refine List.filter_eq_nil_iff.2 fun e he => ?_
    have := position_of_mem_entriesFrom he
    simp only [Bool.and_eq_true, decide_eq_true_eq]
    omega
  rw [Split.held] at before within behind ⊢
  rw [entriesFrom_append, entriesFrom_append, List.filter_append, List.filter_append, before,
    within, behind, List.nil_append, List.append_nil]

/-- **Each split of a cut holds its own run**, among the entries of the whole listing. -/
theorem Cut.map_held {splits : List Split} {runs : List (List Entry)}
    (h : Cut as bs splits runs) :
    splits.map (fun s => s.held (entriesFrom headerSize (as ++ bs))) = runs := by
  induction h with
  | nil as => rfl
  | cons hne h ih =>
    rw [List.append_assoc] at ih
    rw [List.map_cons, ih, boundary, held_entriesFrom]

theorem Cut.length_eq {splits : List Split} {runs : List (List Entry)}
    (h : Cut as bs splits runs) : splits.length = runs.length := by
  rw [← h.map_held, List.length_map]

end Listing
end Replication
