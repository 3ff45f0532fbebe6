import Replication.Text.Lowercase

/-!
# Texts that are in lower case already

Lower case depends on what stands around a capital sigma, and a character may become two.  A
text that does not change is free of both: no character becomes shorter, so each has to become
itself, and a capital sigma never does.

`lowercase_eq_self_iff` says so.  To be in lower case is therefore a matter of the single
characters, and what is put together of texts in lower case is in lower case.
-/

namespace Replication
namespace Text

theorem length_pos_lowerChar (c : Char) : 0 < (lowerChar c).length := by
  unfold lowerChar
  repeat' split
  all_goals exact Nat.succ_pos _

theorem length_le_lowerAfter (before cs : List Char) :
    cs.length ≤ (lowerAfter before cs).length := by
  induction cs generalizing before with
  | nil => exact Nat.le_refl _
  | cons c cs ih =>
    have hrest := ih (c :: before)
    have hc := length_pos_lowerChar c
    rw [lowerAfter, List.length_append, List.length_cons]
    split
    · rw [List.length_singleton]
      omega
    · omega

/-- A text is in lower case if each of its characters is. -/
theorem lowerAfter_eq_self_iff (before cs : List Char) :
    lowerAfter before cs = cs ↔ ∀ c ∈ cs, c ≠ 'Σ' ∧ lowerChar c = [c] := by
  induction cs generalizing before with
  | nil => exact iff_of_true rfl fun c hc => by cases hc
  | cons c cs ih =>
    rw [List.forall_mem_cons, ← ih (c :: before), lowerAfter]
    constructor
    · intro h
      -- no character becomes shorter, so that what the first one becomes stands alone
      have hlen := congrArg List.length h
      have hrest := length_le_lowerAfter (c :: before) cs
      rw [List.length_append, List.length_cons] at hlen
      by_cases hsigma : c = 'Σ'
      · rw [if_pos hsigma] at h
        have hhead := (List.cons.inj h).1
        rw [hsigma, lowerSigma] at hhead
        split at hhead <;> exact absurd hhead (by decide)
      · rw [if_neg hsigma] at h hlen
        have hc := length_pos_lowerChar c
        obtain ⟨d, hd⟩ := List.length_eq_one_iff.1 (show (lowerChar c).length = 1 by omega)
        rw [hd] at h
        obtain ⟨rfl, hcs⟩ := List.cons.inj h
        exact ⟨⟨hsigma, hd⟩, hcs⟩
    · rintro ⟨⟨hsigma, hc⟩, hcs⟩
      rw [if_neg hsigma, hc, hcs]
      rfl

theorem lowercase_eq_self_iff (s : String) :
    lowercase s = s ↔ ∀ c ∈ s.toList, c ≠ 'Σ' ∧ lowerChar c = [c] := by
  rw [lowercase, ← String.toList_inj, String.toList_ofList, lowerAfter_eq_self_iff]

end Text
end Replication
