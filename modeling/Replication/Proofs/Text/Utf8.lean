import Replication.Text.Utf8

/-!
# Reading UTF-8 gives back what was written, and reads nothing else

`decode_encode` says that every text is read back from its bytes, and `decode_eq_ok_iff`
that no other bytes are read as a text.  The work is in one character: its first byte
decides how many bytes follow, and the bits are spread over them in groups of six.
`decodeFrom_encodeChar` does the four lengths one after the other, each of them being a
statement about the digits of a number in base 64; `encodeChar_one` to `encodeChar_four`
are the way back.
-/

namespace Replication
namespace Text
namespace Utf8

theorem toNat_byte {n : Nat} (h : n < 256) : (byte n).toNat = n := by
  rw [byte, UInt8.toNat_ofNat']
  exact Nat.mod_eq_of_lt h

/-- Code points end at `0x10FFFF` and leave out the surrogates. -/
theorem toNat_valid (c : Char) : c.toNat < 0xD800 ∨ 0xDFFF < c.toNat ∧ c.toNat < 0x110000 :=
  c.valid

/-- A byte with six bits of a number can follow, and carries them. -/
theorem isTail_byte {n : Nat} (h : n < 64) : isTail (byte (0x80 + n)) = true := by
  have hb : (byte (0x80 + n)).toNat = 0x80 + n := toNat_byte (by omega)
  rw [isTail, hb, Bool.and_eq_true, decide_eq_true_eq, decide_eq_true_eq]
  omega

theorem bits_byte {n : Nat} (h : n < 64) : bits (byte (0x80 + n)) = n := by
  have hb : (byte (0x80 + n)).toNat = 0x80 + n := toNat_byte (by omega)
  unfold bits
  omega

theorem eq_toNat_of_byte_eq {n : Nat} {b : UInt8} (h : n < 256) (hb : byte n = b) :
    n = b.toNat := by
  rw [← hb, toNat_byte h]

/-- The second of three bytes: the first one is `0xE0` for small characters only, and
`0xED` for those around the surrogates. -/
theorem isSecondOfThree_byte {n : Nat} (h₁ : 0x800 ≤ n) (h₂ : n < 0x10000)
    (h₃ : n < 0xD800 ∨ 0xDFFF < n) :
    isSecondOfThree (byte (0xE0 + n / 4096)) (byte (0x80 + n / 64 % 64)) = true := by
  have hb : (byte (0x80 + n / 64 % 64)).toNat = 0x80 + n / 64 % 64 := toNat_byte (by omega)
  have first : ∀ a : UInt8, byte (0xE0 + n / 4096) = a → 0xE0 + n / 4096 = a.toNat :=
    fun a => eq_toNat_of_byte_eq (by omega)
  simp only [isSecondOfThree, isTail_byte (show n / 64 % 64 < 64 by omega), hb,
    Bool.true_and, Bool.and_eq_true, Bool.or_eq_true, bne_iff_ne, decide_eq_true_eq]
  constructor
  · rcases Decidable.em (byte (0xE0 + n / 4096) = 0xE0) with h | h
    · have := first _ h
      simp only [UInt8.reduceToNat] at this
      exact Or.inr (by omega)
    · exact Or.inl h
  · rcases Decidable.em (byte (0xE0 + n / 4096) = 0xED) with h | h
    · have := first _ h
      simp only [UInt8.reduceToNat] at this
      exact Or.inr (by omega)
    · exact Or.inl h

/-- The second of four bytes: what lies below `0x10000` has a shorter form, and there
is nothing from `0x110000` on. -/
theorem isSecondOfFour_byte {n : Nat} (h₁ : 0x10000 ≤ n) (h₂ : n < 0x110000) :
    isSecondOfFour (byte (0xF0 + n / 262144)) (byte (0x80 + n / 4096 % 64)) = true := by
  have hb : (byte (0x80 + n / 4096 % 64)).toNat = 0x80 + n / 4096 % 64 :=
    toNat_byte (by omega)
  have first : ∀ a : UInt8, byte (0xF0 + n / 262144) = a → 0xF0 + n / 262144 = a.toNat :=
    fun a => eq_toNat_of_byte_eq (by omega)
  simp only [isSecondOfFour, isTail_byte (show n / 4096 % 64 < 64 by omega), hb,
    Bool.true_and, Bool.and_eq_true, Bool.or_eq_true, bne_iff_ne, decide_eq_true_eq]
  constructor
  · rcases Decidable.em (byte (0xF0 + n / 262144) = 0xF0) with h | h
    · have := first _ h
      simp only [UInt8.reduceToNat] at this
      exact Or.inr (by omega)
    · exact Or.inl h
  · rcases Decidable.em (byte (0xF0 + n / 262144) = 0xF4) with h | h
    · have := first _ h
      simp only [UInt8.reduceToNat] at this
      exact Or.inr (by omega)
    · exact Or.inl h

/-- **One character is read back**, and reading goes on right after it. -/
theorem decodeFrom_encodeChar (i : Nat) (c : Char) (s : List UInt8) :
    decodeFrom i (encodeChar c ++ s) =
      consOk c (decodeFrom (i + (encodeChar c).length) s) := by
  have hv := toNat_valid c
  have hc : Char.ofNat c.toNat = c := Char.ofNat_toNat c
  unfold encodeChar
  generalize c.toNat = n at hv hc
  simp only
  split
  · -- one byte
    next h =>
    have ha : (byte n).toNat = n := toNat_byte (by omega)
    rw [List.singleton_append, decodeFrom.eq_def]
    simp only [ha, if_pos h, hc, List.length_singleton]
  · next h1 =>
    split
    · -- two bytes
      next h =>
      have ha : (byte (0xC0 + n / 64)).toNat = 0xC0 + n / 64 := toNat_byte (by omega)
      have hn : (0xC0 + n / 64 - 0xC0) * 64 + n % 64 = n := by omega
      simp only [List.cons_append, List.nil_append, List.length_cons, List.length_nil]
      rw [decodeFrom.eq_def]
      simp only [ha, if_neg (show ¬ 0xC0 + n / 64 < 0x80 by omega),
        if_neg (show ¬ 0xC0 + n / 64 < 0xC2 by omega),
        if_pos (show 0xC0 + n / 64 < 0xE0 by omega),
        isTail_byte (show n % 64 < 64 by omega), bits_byte (show n % 64 < 64 by omega),
        if_true, hn, hc, Nat.zero_add, Nat.reduceAdd]
    · next h2 =>
      split
      · -- three bytes
        next h =>
        have ha : (byte (0xE0 + n / 4096)).toNat = 0xE0 + n / 4096 := toNat_byte (by omega)
        have hn : (0xE0 + n / 4096 - 0xE0) * 4096 + n / 64 % 64 * 64 + n % 64 = n := by
          omega
        have h₂ := isSecondOfThree_byte (n := n) (by omega) h (by omega)
        simp only [List.cons_append, List.nil_append, List.length_cons, List.length_nil]
        rw [decodeFrom.eq_def]
        simp only [ha, if_neg (show ¬ 0xE0 + n / 4096 < 0x80 by omega),
          if_neg (show ¬ 0xE0 + n / 4096 < 0xC2 by omega),
          if_neg (show ¬ 0xE0 + n / 4096 < 0xE0 by omega),
          if_pos (show 0xE0 + n / 4096 < 0xF0 by omega), h₂,
          isTail_byte (show n % 64 < 64 by omega), bits_byte (show n % 64 < 64 by omega),
          bits_byte (show n / 64 % 64 < 64 by omega), if_true, hn, hc, Nat.zero_add,
          Nat.reduceAdd]
      · -- four bytes
        next h3 =>
        have ha : (byte (0xF0 + n / 262144)).toNat = 0xF0 + n / 262144 :=
          toNat_byte (by omega)
        have hn : (0xF0 + n / 262144 - 0xF0) * 262144 + n / 4096 % 64 * 4096
            + n / 64 % 64 * 64 + n % 64 = n := by omega
        have h₂ := isSecondOfFour_byte (n := n) (by omega) (by omega)
        simp only [List.cons_append, List.nil_append, List.length_cons, List.length_nil]
        rw [decodeFrom.eq_def]
        simp only [ha, if_neg (show ¬ 0xF0 + n / 262144 < 0x80 by omega),
          if_neg (show ¬ 0xF0 + n / 262144 < 0xC2 by omega),
          if_neg (show ¬ 0xF0 + n / 262144 < 0xE0 by omega),
          if_neg (show ¬ 0xF0 + n / 262144 < 0xF0 by omega),
          if_pos (show 0xF0 + n / 262144 < 0xF5 by omega), h₂,
          isTail_byte (show n % 64 < 64 by omega), bits_byte (show n % 64 < 64 by omega),
          isTail_byte (show n / 64 % 64 < 64 by omega),
          bits_byte (show n / 64 % 64 < 64 by omega),
          bits_byte (show n / 4096 % 64 < 64 by omega), if_true, hn, hc, Nat.zero_add,
          Nat.reduceAdd]

theorem decodeFrom_encode (i : Nat) (s : List Char) : decodeFrom i (encode s) = .ok s := by
  induction s generalizing i with
  | nil =>
    rw [encode_nil, decodeFrom]
  | cons c s ih =>
    rw [encode_cons, decodeFrom_encodeChar, ih]
    rfl

/-- **Every text is read back from its bytes.** -/
@[simp] theorem decode_encode (s : List Char) : decode (encode s) = .ok s :=
  decodeFrom_encode 0 s

/-! ## Nothing else is read -/

/-- The byte of a number is the one that has this number as its value. -/
theorem byte_eq {n : Nat} {b : UInt8} (h : n = b.toNat) : byte n = b := by
  rw [h, byte, UInt8.ofNat_toNat]

theorem toNat_ofNat {n : Nat} (h : n < 0xD800 ∨ 0xDFFF < n ∧ n < 0x110000) :
    (Char.ofNat n).toNat = n := by
  rw [Char.ofNat, dif_pos h]
  rfl

/-- A byte that can follow is its mark and six bits. -/
theorem toNat_of_isTail {b : UInt8} (h : isTail b = true) :
    b.toNat = 0x80 + bits b ∧ bits b < 64 := by
  rw [isTail, Bool.and_eq_true, decide_eq_true_eq, decide_eq_true_eq] at h
  unfold bits
  omega

theorem encodeChar_one {a : UInt8} (ha : a.toNat < 0x80) :
    encodeChar (Char.ofNat a.toNat) = [a] := by
  unfold encodeChar
  rw [toNat_ofNat (by omega), if_pos ha, byte_eq rfl]

theorem encodeChar_two {a b : UInt8} (ha : 0xC2 ≤ a.toNat) (ha' : a.toNat < 0xE0)
    (hb : isTail b = true) :
    encodeChar (Char.ofNat ((a.toNat - 0xC0) * 64 + bits b)) = [a, b] := by
  obtain ⟨hb, hlt⟩ := toNat_of_isTail hb
  unfold encodeChar
  rw [toNat_ofNat (by omega), if_neg (by omega), if_pos (by omega),
    byte_eq (b := a) (by omega), byte_eq (b := b) (by omega)]

theorem encodeChar_three {a b c : UInt8} (ha : 0xE0 ≤ a.toNat) (ha' : a.toNat < 0xF0)
    (hb : isSecondOfThree a b = true) (hc : isTail c = true) :
    encodeChar (Char.ofNat ((a.toNat - 0xE0) * 4096 + bits b * 64 + bits c)) =
      [a, b, c] := by
  simp only [isSecondOfThree, Bool.and_eq_true, Bool.or_eq_true, bne_iff_ne,
    decide_eq_true_eq, ne_eq, ← UInt8.toNat_inj, UInt8.reduceToNat] at hb
  obtain ⟨⟨hb, hlow⟩, hhigh⟩ := hb
  obtain ⟨hb, hblt⟩ := toNat_of_isTail hb
  obtain ⟨hc, hclt⟩ := toNat_of_isTail hc
  unfold encodeChar
  rw [toNat_ofNat (by omega), if_neg (by omega), if_neg (by omega), if_pos (by omega),
    byte_eq (b := a) (by omega), byte_eq (b := b) (by omega), byte_eq (b := c) (by omega)]

theorem encodeChar_four {a b c d : UInt8} (ha : 0xF0 ≤ a.toNat) (ha' : a.toNat < 0xF5)
    (hb : isSecondOfFour a b = true) (hc : isTail c = true) (hd : isTail d = true) :
    encodeChar (Char.ofNat ((a.toNat - 0xF0) * 262144 + bits b * 4096 + bits c * 64
      + bits d)) = [a, b, c, d] := by
  simp only [isSecondOfFour, Bool.and_eq_true, Bool.or_eq_true, bne_iff_ne,
    decide_eq_true_eq, ne_eq, ← UInt8.toNat_inj, UInt8.reduceToNat] at hb
  obtain ⟨⟨hb, hlow⟩, hhigh⟩ := hb
  obtain ⟨hb, hblt⟩ := toNat_of_isTail hb
  obtain ⟨hc, hclt⟩ := toNat_of_isTail hc
  obtain ⟨hd, hdlt⟩ := toNat_of_isTail hd
  unfold encodeChar
  rw [toNat_ofNat (by omega), if_neg (by omega), if_neg (by omega), if_neg (by omega),
    byte_eq (b := a) (by omega), byte_eq (b := b) (by omega), byte_eq (b := c) (by omega),
    byte_eq (b := d) (by omega)]

theorem consOk_eq_ok {c : Char} {e : Except Fault (List Char)} {s : List Char}
    (h : consOk c e = .ok s) : ∃ t, e = .ok t ∧ s = c :: t := by
  cases e with
  | error f => cases h
  | ok t => exact ⟨t, rfl, (Except.ok.inj h).symm⟩

/-- **What is read as a text is its bytes.**  The induction follows the reader: each way in
which it accepts a character is one of the four lengths, and every other way is a fault. -/
theorem eq_encode_of_decodeFrom {i : Nat} {bs : List UInt8} {s : List Char}
    (h : decodeFrom i bs = .ok s) : bs = encode s := by
  fun_induction decodeFrom i bs generalizing s with
  | case1 i =>
    obtain rfl := Except.ok.inj h
    rfl
  | case2 i a r ha ih =>
    obtain ⟨t, ht, rfl⟩ := consOk_eq_ok h
    rw [encode_cons, encodeChar_one ha, ← ih ht]
    rfl
  | case5 i a _ ha ha' b r hb ih =>
    obtain ⟨t, ht, rfl⟩ := consOk_eq_ok h
    rw [encode_cons, encodeChar_two (Nat.le_of_not_lt ha) ha' hb, ← ih ht]
    rfl
  | case9 i a _ _ ha ha' b hb c r hc ih =>
    obtain ⟨t, ht, rfl⟩ := consOk_eq_ok h
    rw [encode_cons, encodeChar_three (Nat.le_of_not_lt ha) ha' hb hc, ← ih ht]
    rfl
  | case15 i a _ _ _ ha ha' b hb c hc d r hd ih =>
    obtain ⟨t, ht, rfl⟩ := consOk_eq_ok h
    rw [encode_cons, encodeChar_four (Nat.le_of_not_lt ha) ha' hb hc hd, ← ih ht]
    rfl
  | _ => cases h

/-- **Reading accepts nothing but what writing produces.** -/
theorem decode_eq_ok_iff {bs : List UInt8} {s : List Char} :
    decode bs = .ok s ↔ bs = encode s :=
  ⟨eq_encode_of_decodeFrom, fun h => h ▸ decode_encode s⟩

end Utf8
end Text
end Replication
