import Replication.Json.Lexeme

/-!
# Texts and numbers are read back

The two parts of JSON text that need thought are texts and numbers.

A text is written character by character, and what is written for a character never looks
like the closing quote; so the reader gets each character back, and stops where the text
stops.  A number has no end of its own: the reader goes on for as long as what follows
could belong to it.  So a number is read back only where something follows that could not,
a blank or one of the signs behind a value; `Delimited` says this.

* `textBody_flatMap_escape`: every text is read back, up to its closing quote.
* `read_renderNumber`, `natural?_toDigits`: every number that is kept exactly is read back.
-/

namespace Replication
namespace Json

/-! ## Blanks -/

theorem skipBlanks_cons {c : Char} (h : isBlank c = false) (s : List Char) :
    skipBlanks (c :: s) = c :: s := by
  rw [skipBlanks, List.dropWhile_cons_of_neg (Bool.eq_false_iff.1 h)]

/-! ## Texts -/

theorem value?_hexDigit : ∀ d < 16, Digits.value? 16 (Text.hexDigit d) = some d := by
  decide

/-- A unit below 32 is read back from its last two digits, the first two being zeros. -/
theorem hexUnit_hexDigit {n : Nat} (h : n < 32) (s : List Char) :
    hexUnit ('0' :: '0' :: Text.hexDigit (n / 16) :: Text.hexDigit (n % 16) :: s) =
      .ok (n, s) := by
  have hzero : Digits.value? 16 '0' = some 0 := by decide
  have hhigh := value?_hexDigit (n / 16) (by omega)
  have hlow := value?_hexDigit (n % 16) (by omega)
  rw [hexUnit, hzero, hhigh, hlow]
  have hn : ((0 * 16 + 0) * 16 + n / 16) * 16 + n % 16 = n := by omega
  simp only [hn]

theorem escaped_control {c : Char} (h : c.toNat < 32) (s : List Char) :
    escaped ('u' :: '0' :: '0' :: Text.hexDigit (c.toNat / 16) ::
      Text.hexDigit (c.toNat % 16) :: s) = .ok (c, s) := by
  have hletter : escapeLetter? 'u' = none := by decide
  have htrailing : isTrailing c.toNat = false := by
    rw [isTrailing, Bool.and_eq_false_iff]
    exact Or.inl (decide_eq_false (by omega))
  have hleading : isLeading c.toNat = false := by
    rw [isLeading, Bool.and_eq_false_iff]
    exact Or.inl (decide_eq_false (by omega))
  rw [escaped, hletter]
  simp only [if_true, hexUnit_hexDigit h, htrailing, hleading, Bool.false_eq_true, if_false,
    Char.ofNat_toNat]

/-- **Each character is read back** from what is written for it. -/
theorem textWithin_escape (n : Nat) (done : List Char) (c : Char) (s : List Char) :
    textWithin (n + 1) done (escape c ++ s) = textWithin n (c :: done) s := by
  rw [escape]
  split
  · next h => subst h; rfl
  split
  · next h => subst h; rfl
  split
  · next h => subst h; rfl
  split
  · next h => subst h; rfl
  split
  · next h => subst h; rfl
  split
  · next h => subst h; rfl
  split
  · next h => subst h; rfl
  split
  · next h =>
    have hback : ('\\' : Char) ≠ '"' := by decide
    simp only [List.cons_append, List.nil_append, textWithin, if_neg hback, if_true,
      escaped_control h]
  · next hquote hback _ _ _ _ _ hcontrol =>
    simp only [List.cons_append, List.nil_append, textWithin, if_neg hquote, if_neg hback,
      if_neg hcontrol]

/-- A text is read back behind the characters that have been read. -/
theorem textWithin_flatMap_escape {n : Nat} {s : List Char} (h : s.length < n)
    (done rest : List Char) :
    textWithin n done (s.flatMap escape ++ '"' :: rest) = .ok (done.reverse ++ s, rest) := by
  induction s generalizing n done with
  | nil =>
    obtain ⟨n, rfl⟩ := Nat.exists_eq_succ_of_ne_zero (Nat.ne_of_gt h)
    simp only [List.flatMap_nil, List.nil_append, textWithin, if_true, List.append_nil]
  | cons c s ih =>
    obtain ⟨n, rfl⟩ := Nat.exists_eq_succ_of_ne_zero (Nat.ne_of_gt (Nat.zero_lt_of_lt h))
    rw [List.flatMap_cons, List.append_assoc, textWithin_escape,
      ih (Nat.lt_of_succ_lt_succ h), List.reverse_cons, List.append_assoc,
      List.singleton_append]

theorem one_le_length_escape (c : Char) : 1 ≤ (escape c).length := by
  rw [escape]
  repeat' split
  all_goals exact Nat.succ_le_succ (Nat.zero_le _)

theorem length_le_length_flatMap_escape (s : List Char) :
    s.length ≤ (s.flatMap escape).length := by
  induction s with
  | nil => exact Nat.le_refl _
  | cons c s ih =>
    have := one_le_length_escape c
    rw [List.flatMap_cons, List.length_append, List.length_cons]
    omega

/-- **Every text is read back**, up to its closing quote. -/
theorem textBody_flatMap_escape (s rest : List Char) :
    textBody (s.flatMap escape ++ '"' :: rest) = .ok (s, rest) := by
  have h : s.length < (s.flatMap escape ++ '"' :: rest).length + 1 := by
    have := length_le_length_flatMap_escape s
    rw [List.length_append]
    omega
  rw [textBody, textWithin_flatMap_escape h, List.reverse_nil, List.nil_append]

/-! ## Numbers -/

/-- What follows is nothing, or begins with a character that no number goes on with. -/
def Delimited (s : List Char) : Prop :=
  ∀ c ∈ s.head?, c.isDigit = false ∧ c ≠ '.' ∧ c ≠ 'e' ∧ c ≠ 'E'

theorem Delimited.nil : Delimited [] :=
  fun _ h => absurd h (Option.not_mem_none _)

theorem Delimited.cons {c : Char} (h : c = ',' ∨ c = ']' ∨ c = '\x7d') (s : List Char) :
    Delimited (c :: s) := by
  intro d hd
  obtain rfl : c = d := Option.some.inj hd
  rcases h with rfl | rfl | rfl
  all_goals decide

namespace Numeral

/-- A run of digits ends where the text is delimited. -/
theorem digits_append {ds rest : List Char} (h : ∀ c ∈ ds, c.isDigit = true)
    (hrest : Delimited rest) : digits (ds ++ rest) = (ds, rest) := by
  have htake : rest.takeWhile Char.isDigit = [] ∧ rest.dropWhile Char.isDigit = rest := by
    rcases rest with _ | ⟨c, rest⟩
    · exact ⟨rfl, rfl⟩
    · have hc : ¬c.isDigit = true := Bool.eq_false_iff.1 (hrest c rfl).1
      exact ⟨List.takeWhile_cons_of_neg hc, List.dropWhile_cons_of_neg hc⟩
  rw [digits, List.takeWhile_append_of_pos h, List.dropWhile_append_of_pos h, htake.1,
    htake.2, List.append_nil]

theorem readFraction_delimited {rest : List Char} (h : Delimited rest) :
    readFraction rest = .ok (none, rest) := by
  unfold readFraction
  split
  · next s => exact absurd rfl (h '.' rfl).2.1
  · rfl

theorem readExponent_delimited {rest : List Char} (h : Delimited rest) :
    readExponent rest = .ok (none, rest) := by
  unfold readExponent
  split
  · next c s =>
    obtain ⟨-, -, he, hE⟩ := h c rfl
    exact if_neg (not_or.2 ⟨he, hE⟩)
  · rfl

theorem head?_toDigits_ne {n : Nat} (h : 0 < n) : (Nat.toDigits 10 n).head? ≠ some '0' := by
  induction n using Nat.strongRecOn with
  | ind n ih =>
    rcases Nat.lt_or_ge n 10 with hn | hn
    · rw [Nat.toDigits_of_lt_base hn, List.head?_cons]
      intro heq
      have hvalue := Nat.toNat_digitChar_sub_48_of_lt_ten hn
      rw [Option.some.inj heq] at hvalue
      exact absurd hvalue.symm (Nat.ne_of_gt h)
    · have hpos : 0 < n / 10 := Nat.div_pos hn (by decide)
      have hhead := ih (n / 10) (Nat.div_lt_self h (by decide)) hpos
      obtain ⟨d, ds, hds⟩ :=
        List.exists_cons_of_ne_nil (Nat.toDigits_ne_nil (n := n / 10) (b := 10))
      rw [hds] at hhead
      rw [Nat.toDigits_of_base_le (by decide) hn, hds]
      exact hhead

/-- The digits of a number are a run of digits without a leading zero, unless alone. -/
theorem readWhole_toDigits (n : Nat) {rest : List Char} (h : Delimited rest) :
    readWhole (Nat.toDigits 10 n ++ rest) = .ok (Nat.toDigits 10 n, rest) := by
  have hdigits : digits (Nat.toDigits 10 n ++ rest) = (Nat.toDigits 10 n, rest) :=
    digits_append (fun c hc => Nat.isDigit_of_mem_toDigits (by decide) (by decide) hc) h
  obtain ⟨d, ds, hds⟩ := List.exists_cons_of_ne_nil (Nat.toDigits_ne_nil (n := n) (b := 10))
  have hsome : someDigits (Nat.toDigits 10 n ++ rest) = .ok (Nat.toDigits 10 n, rest) := by
    rw [someDigits, hdigits, hds]
  rw [readWhole, hsome]
  rcases Nat.eq_zero_or_pos n with rfl | hn
  · rfl
  · have hhead := head?_toDigits_ne hn
    rw [hds] at hhead
    simp only [hds]
    split
    · next heq =>
      obtain ⟨rfl, -⟩ := List.cons.inj heq
      exact absurd rfl hhead
    · rfl

/-- **A number is read back** where it is delimited. -/
theorem read_renderNumber (n : Nat) {rest : List Char} (h : Delimited rest) :
    read (renderNumber n ++ rest) = .ok (⟨false, Nat.toDigits 10 n, none, none⟩, rest) := by
  have hwhole := readWhole_toDigits n h
  obtain ⟨d, ds, hds⟩ := List.exists_cons_of_ne_nil (Nat.toDigits_ne_nil (n := n) (b := 10))
  have hminus : d ≠ '-' := by
    intro hd
    have hdigit : d.isDigit = true :=
      Nat.isDigit_of_mem_toDigits (b := 10) (n := n) (by decide) (by decide)
        (hds ▸ List.mem_cons_self)
    rw [hd] at hdigit
    exact absurd hdigit (by decide)
  rw [renderNumber]
  rw [hds, List.cons_append] at hwhole ⊢
  unfold read
  split
  next negative s hs =>
  split at hs
  · next heq => exact absurd (List.cons.inj heq).1 hminus
  · obtain ⟨rfl, rfl⟩ := Prod.mk.inj hs
    simp only [hwhole, readFraction_delimited h, readExponent_delimited h]

/-- Its value is what was written, if it is small enough to be kept exactly. -/
theorem natural?_toDigits {n : Nat} (h : n ≤ limit) :
    natural? ⟨false, Nat.toDigits 10 n, none, none⟩ = .ok (some n) := by
  rw [natural?, Nat.ofDigitChars_ten_toDigits, if_pos h]

end Numeral

end Json
end Replication
