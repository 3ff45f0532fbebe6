/-!
# Numbers as bytes

Numbers are stored in a fixed count of bytes, the most significant first.  A number that
fits is read back from its bytes, and so are the bytes written again from their number.
-/

namespace Replication
namespace Bytes

/-- A number in so many bytes, the most significant first.  What does not fit is
cut off at the front. -/
def bigEndian : Nat → Nat → List UInt8
  | 0, _ => []
  | w + 1, n => UInt8.ofNat (n / Nat.pow 256 w) :: bigEndian w n

/-- The number that some bytes hold, the most significant first. -/
def ofBigEndian (bs : List UInt8) : Nat :=
  bs.foldl (fun n b => n * 256 + b.toNat) 0

@[simp] theorem length_bigEndian (w n : Nat) : (bigEndian w n).length = w := by
  induction w with
  | zero => rfl
  | succ w ih => simp [bigEndian, ih]

theorem pow_succ (w : Nat) : Nat.pow 256 (w + 1) = Nat.pow 256 w * 256 := rfl

theorem ofBigEndian_cons (b : UInt8) (bs : List UInt8) :
    ofBigEndian (b :: bs) = b.toNat * Nat.pow 256 bs.length + ofBigEndian bs := by
  have shift : ∀ (cs : List UInt8) (m : Nat),
      cs.foldl (fun n b => n * 256 + b.toNat) m =
        m * Nat.pow 256 cs.length + ofBigEndian cs := by
    intro cs
    induction cs with
    | nil =>
        intro m
        show m = m * 1 + 0
        rw [Nat.mul_one, Nat.add_zero]
    | cons c cs ih =>
        intro m
        rw [ofBigEndian, List.foldl_cons, List.foldl_cons, ih, ih, List.length_cons,
          pow_succ, Nat.zero_mul, Nat.zero_add, Nat.add_mul, Nat.mul_assoc,
          Nat.mul_comm 256, Nat.add_assoc]
  rw [ofBigEndian, List.foldl_cons, shift, Nat.zero_mul, Nat.zero_add]

/-- The bytes of a number are read back up to what was cut off. -/
theorem ofBigEndian_bigEndian (w n : Nat) :
    ofBigEndian (bigEndian w n) = n % Nat.pow 256 w := by
  induction w with
  | zero => exact (Nat.mod_one n).symm
  | succ w ih =>
      have hb : (UInt8.ofNat (n / Nat.pow 256 w)).toNat = n / Nat.pow 256 w % 256 :=
        UInt8.toNat_ofNat'
      rw [bigEndian, ofBigEndian_cons, length_bigEndian, ih, hb, pow_succ, Nat.mod_mul,
        Nat.mul_comm, Nat.add_comm]

/-- A number that fits is read back from its bytes. -/
theorem ofBigEndian_bigEndian_of_lt {w n : Nat} (h : n < Nat.pow 256 w) :
    ofBigEndian (bigEndian w n) = n := by
  rw [ofBigEndian_bigEndian, Nat.mod_eq_of_lt h]

/-- What is beyond the places of a number does not show in its bytes. -/
theorem bigEndian_add_mul (w n k : Nat) :
    bigEndian w (k * Nat.pow 256 w + n) = bigEndian w n := by
  induction w generalizing k with
  | zero => rfl
  | succ w ih =>
      have hpos : 0 < Nat.pow 256 w := Nat.pow_pos (by decide)
      have hdiv : (k * Nat.pow 256 (w + 1) + n) / Nat.pow 256 w =
          256 * k + n / Nat.pow 256 w := by
        rw [pow_succ, Nat.mul_comm (Nat.pow 256 w), ← Nat.mul_assoc, Nat.add_comm,
          Nat.add_mul_div_right _ _ hpos, Nat.mul_comm 256, Nat.add_comm]
      have hbyte : UInt8.ofNat (256 * k + n / Nat.pow 256 w) =
          UInt8.ofNat (n / Nat.pow 256 w) := by
        apply UInt8.toNat_inj.1
        rw [UInt8.toNat_ofNat', UInt8.toNat_ofNat', Nat.mul_add_mod]
      rw [bigEndian, bigEndian, hdiv, hbyte, pow_succ, Nat.mul_comm (Nat.pow 256 w),
        ← Nat.mul_assoc, ih]

theorem ofBigEndian_lt (bs : List UInt8) : ofBigEndian bs < Nat.pow 256 bs.length := by
  induction bs with
  | nil => exact Nat.one_pos
  | cons b bs ih =>
      have hb : b.toNat < 256 := b.toNat_lt
      rw [ofBigEndian_cons, List.length_cons, pow_succ,
        Nat.mul_comm (Nat.pow 256 bs.length)]
      calc b.toNat * Nat.pow 256 bs.length + ofBigEndian bs
          < b.toNat * Nat.pow 256 bs.length + Nat.pow 256 bs.length :=
            Nat.add_lt_add_left ih _
        _ = (b.toNat + 1) * Nat.pow 256 bs.length := (Nat.succ_mul _ _).symm
        _ ≤ 256 * Nat.pow 256 bs.length := Nat.mul_le_mul_right _ hb

theorem bigEndian_ofBigEndian (bs : List UInt8) :
    bigEndian bs.length (ofBigEndian bs) = bs := by
  induction bs with
  | nil => rfl
  | cons b bs ih =>
      have hpos : 0 < Nat.pow 256 bs.length := Nat.pow_pos (by decide)
      have hdiv : (b.toNat * Nat.pow 256 bs.length + ofBigEndian bs) /
          Nat.pow 256 bs.length = b.toNat := by
        rw [Nat.add_comm, Nat.add_mul_div_right _ _ hpos,
          Nat.div_eq_of_lt (ofBigEndian_lt bs), Nat.zero_add]
      rw [ofBigEndian_cons, List.length_cons, bigEndian, hdiv, UInt8.ofNat_toNat,
        bigEndian_add_mul, ih]

end Bytes
end Replication
