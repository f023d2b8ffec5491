import Mathlib

/-! Power-of-two blocks of machine words. A block is given by its size and an aligned
base; comparing an address under the mask of the block and comparing it with the two
ends of the block are the same test, and the offset inside the block is a masked word. -/
namespace AlignedBlock

variable {w k : ℕ} {size base v : BitVec w}

/-- The low bits of a base below a power-of-two size are all clear. -/
def Aligned (size base : BitVec w) : Prop := base &&& (size - 1#w) = 0#w

def InRange (size base v : BitVec w) : Prop :=
  base.toNat ≤ v.toNat ∧ v.toNat < base.toNat + size.toNat

instance (size base : BitVec w) : Decidable (Aligned size base) :=
  inferInstanceAs (Decidable (_ = _))

instance (size base v : BitVec w) : Decidable (InRange size base v) :=
  inferInstanceAs (Decidable (_ ∧ _))

/-- A masked word is at most the mask. -/
lemma toNat_and_le (v m : BitVec w) : (v &&& m).toNat ≤ m.toNat := by
  rw [BitVec.toNat_and]
  exact Nat.and_le_right

lemma width_pos (h : size.toNat = 2^k) : 0 < w := by
  rcases Nat.eq_zero_or_pos w with rfl | hw
  · have hlt := size.isLt
    have hp := Nat.two_pow_pos k
    omega
  · exact hw

lemma toNat_sub_one (h : size.toNat = 2^k) : (size - 1#w).toNat = 2^k - 1 := by
  have hone : (1#w).toNat = 1 := by
    rw [BitVec.toNat_ofNat]
    exact Nat.mod_eq_of_lt (Nat.one_lt_two_pow (width_pos h).ne')
  have hle : 1#w ≤ size := by
    rw [BitVec.le_def, hone, h]
    exact Nat.one_le_two_pow
  rw [BitVec.toNat_sub_of_le hle, h, hone]

theorem toNat_and_low (h : size.toNat = 2^k) (v : BitVec w) :
    (v &&& (size - 1#w)).toNat = v.toNat % size.toNat := by
  rw [BitVec.toNat_and, toNat_sub_one h, Nat.and_two_pow_sub_one_eq_mod, h]

lemma high_and_low_eq_zero (m v : BitVec w) : (v &&& ~~~m) &&& (v &&& m) = 0#w := by
  ext i hi
  cases hm : m[i] <;> simp [hm]

lemma high_or_low_eq (m v : BitVec w) : (v &&& ~~~m) ||| (v &&& m) = v := by
  ext i hi
  cases hm : m[i] <;> simp [hm]

theorem toNat_and_split (m v : BitVec w) :
    (v &&& ~~~m).toNat + (v &&& m).toNat = v.toNat := by
  have hz := high_and_low_eq_zero m v
  rw [← BitVec.toNat_add_of_and_eq_zero hz, BitVec.add_eq_or_of_and_eq_zero _ _ hz,
    high_or_low_eq]

theorem aligned_iff_mod (h : size.toNat = 2^k) :
    Aligned size base ↔ base.toNat % size.toNat = 0 := by
  rw [Aligned, ← toNat_and_low h, BitVec.toNat_eq]
  simp

/-- An aligned block ends inside the address space or exactly at its top. -/
theorem end_le (h : size.toNat = 2^k) (ha : Aligned size base) :
    base.toNat + size.toNat ≤ 2^w := by
  have hk : k ≤ w := by
    have hlt := size.isLt
    rw [h] at hlt
    exact (Nat.pow_lt_pow_iff_right (by norm_num)).mp hlt |>.le
  obtain ⟨c,hc⟩ := Nat.dvd_of_mod_eq_zero ((aligned_iff_mod h).mp ha)
  obtain ⟨d,hd⟩ := Nat.pow_dvd_pow 2 hk
  have hlt := base.isLt
  rw [h] at hc ⊢
  rw [hc, hd] at hlt ⊢
  have hcd : c + 1 ≤ d := Nat.lt_of_mul_lt_mul_left hlt
  calc 2^k*c + 2^k = 2^k*(c+1) := by ring
    _ ≤ 2^k*d := Nat.mul_le_mul_left _ hcd

/-- Comparing under the block mask is the range test of the block. -/
theorem and_high_eq_iff (h : size.toNat = 2^k) (ha : Aligned size base) (v : BitVec w) :
    v &&& ~~~(size - 1#w) = base ↔ InRange size base v := by
  have hs := toNat_and_split (size - 1#w) v
  rw [toNat_and_low h] at hs
  have hm := Nat.mod_lt v.toNat (show 0 < size.toNat by rw [h]; exact Nat.two_pow_pos k)
  rw [BitVec.toNat_eq, InRange]
  constructor
  · intro he
    omega
  · rintro ⟨hl,hr⟩
    obtain ⟨c,hc⟩ := Nat.dvd_of_mod_eq_zero ((aligned_iff_mod h).mp ha)
    have hv : v.toNat % size.toNat = v.toNat - base.toNat := by
      rw [← Nat.mod_eq_of_lt (show v.toNat - base.toNat < size.toNat by omega)]
      conv_lhs => rw [← Nat.sub_add_cancel hl, hc, Nat.add_mul_mod_self_left]
      rw [hc]
    omega

theorem and_low_eq_sub (h : size.toNat = 2^k) (ha : Aligned size base)
    (hv : InRange size base v) : v &&& (size - 1#w) = v - base := by
  have hb := (and_high_eq_iff h ha v).mpr hv
  have hs := toNat_and_split (size - 1#w) v
  rw [hb] at hs
  rw [BitVec.toNat_eq, BitVec.toNat_sub_of_le (BitVec.le_def.mpr hv.1)]
  omega

lemma and_high_of_aligned (ha : Aligned size base) :
    base &&& ~~~(size - 1#w) = base := by
  have hs := toNat_and_split (size - 1#w) base
  have hz : (base &&& (size - 1#w)).toNat = 0 := by rw [ha]; simp
  rw [BitVec.toNat_eq]
  omega

/-- An aligned base takes an offset by disjunction as well as by addition. -/
theorem or_low_eq_add (ha : Aligned size base) (v : BitVec w) :
    base ||| (v &&& (size - 1#w)) = base + (v &&& (size - 1#w)) := by
  refine (BitVec.add_eq_or_of_and_eq_zero _ _ ?_).symm
  rw [BitVec.and_comm v, ← BitVec.and_assoc, ha]
  simp

/-- The wrapping range test `base ≤ v < base + size` of machine arithmetic sees exactly
the blocks that end below the top of the address space. -/
theorem wrapping_range_iff (hend : base.toNat + size.toNat ≤ 2^w) :
    (base ≤ v ∧ v < base + size) ↔ InRange size base v ∧ base.toNat + size.toNat ≠ 2^w := by
  rw [BitVec.le_def, BitVec.lt_def, BitVec.toNat_add, InRange]
  rcases Nat.lt_or_eq_of_le hend with hlt | heq
  · rw [Nat.mod_eq_of_lt hlt]
    omega
  · rw [heq, Nat.mod_self]
    omega

/-- Whatever the base, an address that passes the wrapping range test lies within `size`
bytes of it. -/
theorem sub_lt_of_wrapping_range (hl : base ≤ v) (hr : v < base + size) :
    (v - base).toNat < size.toNat := by
  rw [BitVec.toNat_sub_of_le hl]
  rw [BitVec.lt_def, BitVec.toNat_add] at hr
  have hmod := Nat.mod_le (base.toNat + size.toNat) (2^w)
  rw [BitVec.le_def] at hl
  omega

end AlignedBlock
