import Mathlib

/-! Comparisons of the fields of a machine word: fields that lie apart can be compared at once
under one mask, a field can be compared in its place or shifted down, and a field of one bit shifted
down is that bit. -/
namespace BitMask

variable {w : ℕ} {x a b c d : BitVec w}

theorem and_or_eq_iff (hab : a &&& b = 0#w) (hc : c &&& a = c) (hd : d &&& b = d) :
    x &&& (a ||| b) = c ||| d ↔ x &&& a = c ∧ x &&& b = d := by
  have hda : d &&& a = 0#w := by
    rw [← hd, BitVec.and_assoc, BitVec.and_comm b a, hab, BitVec.and_zero]
  have hcb : c &&& b = 0#w := by rw [← hc, BitVec.and_assoc, hab, BitVec.and_zero]
  constructor
  · intro h
    refine ⟨?_,?_⟩
    · calc x &&& a = x &&& (a ||| b) &&& a := by
            rw [BitVec.and_assoc, BitVec.and_or_distrib_right, BitVec.and_self,
              BitVec.and_comm b a, hab, BitVec.or_zero]
        _ = c := by rw [h, BitVec.and_or_distrib_right, hc, hda, BitVec.or_zero]
    · calc x &&& b = x &&& (a ||| b) &&& b := by
            rw [BitVec.and_assoc, BitVec.and_or_distrib_right, BitVec.and_self, hab,
              BitVec.zero_or]
        _ = d := by rw [h, BitVec.and_or_distrib_right, hd, hcb, BitVec.zero_or]
  · rintro ⟨rfl,rfl⟩
    exact BitVec.and_or_distrib_left

lemma shiftRight_shiftLeft_and {n : ℕ} (ha : a >>> n <<< n = a) :
    (x &&& a) >>> n <<< n = x &&& a := by
  have hx : x >>> n <<< n &&& a = x &&& a := by
    rw [← ha]
    ext i hi
    by_cases hin : i < n
    · simp [hin]
    · simp [hin, Nat.add_sub_cancel' (Nat.not_lt.mp hin), BitVec.getLsbD_eq_getElem hi]
  rw [BitVec.ushiftRight_and_distrib, BitVec.shiftLeft_and_distrib, ha, hx]

theorem field_eq_iff {n : ℕ} (ha : a >>> n <<< n = a) (hc : c <<< n >>> n = c) :
    (x &&& a) >>> n = c ↔ x &&& a = c <<< n := by
  constructor
  · intro h
    rw [← shiftRight_shiftLeft_and ha, h]
  · intro h
    rw [h, hc]

theorem bit_shiftRight {n : ℕ} (hn : n < w) :
    (x &&& (1#w <<< n)) >>> n = if x.getLsbD n then 1#w else 0#w := by
  apply BitVec.eq_of_getLsbD_eq
  intro i hi
  rw [BitVec.getLsbD_ushiftRight, BitVec.getLsbD_and, BitVec.getLsbD_shiftLeft]
  by_cases hzero : i = 0
  · subst hzero
    cases x.getLsbD n <;> simp [hn]
  · rw [Nat.add_sub_cancel_left]
    cases x.getLsbD n <;> simp [BitVec.getLsbD_one, hzero]

end BitMask
