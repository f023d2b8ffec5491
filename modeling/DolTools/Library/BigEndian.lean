import Mathlib

/-! Byte memories read and written in big-endian halves and words. -/
namespace BigEndian

abbrev Memory := ℕ → BitVec 8

/-- The half at an address, high byte first. -/
def half (m : Memory) (a : ℕ) : BitVec 16 := m a ++ m (a+1)

def word (m : Memory) (a : ℕ) : BitVec 32 := half m a ++ half m (a+2)

theorem high_word (m : Memory) (a : ℕ) : (word m a).extractLsb' 16 16 = half m a :=
  BitVec.extractLsb'_append_eq_left

theorem low_word (m : Memory) (a : ℕ) : (word m a).extractLsb' 0 16 = half m (a+2) :=
  BitVec.extractLsb'_append_eq_right

def storeHalf (m : Memory) (a : ℕ) (v : BitVec 16) : Memory :=
  Function.update (Function.update m a (v.extractLsb' 8 8)) (a+1) (v.extractLsb' 0 8)

def storeWord (m : Memory) (a : ℕ) (v : BitVec 32) : Memory :=
  storeHalf (storeHalf m a (v.extractLsb' 16 16)) (a+2) (v.extractLsb' 0 16)

@[simp] theorem half_storeHalf (m : Memory) (a : ℕ) (v : BitVec 16) :
    half (storeHalf m a v) a = v := by
  have h : v.extractLsb' 8 8 ++ v.extractLsb' 0 8 = v :=
    BitVec.extractLsb'_append_extractLsb' (w := 8)
  simpa [half, storeHalf] using h

theorem half_storeHalf_of_ne (m : Memory) {a b : ℕ} (v : BitVec 16)
    (h : a + 2 ≤ b ∨ b + 2 ≤ a) : half (storeHalf m a v) b = half m b := by
  simp only [half, storeHalf, Function.update_apply]
  simp only [show b ≠ a+1 by omega, show b+1 ≠ a+1 by omega, show b ≠ a by omega,
    show b+1 ≠ a by omega, if_false]

@[simp] theorem half_storeWord (m : Memory) (a : ℕ) (v : BitVec 32) :
    half (storeWord m a v) a = v.extractLsb' 16 16 := by
  rw [storeWord, half_storeHalf_of_ne _ _ (by omega), half_storeHalf]

@[simp] theorem half_storeWord_low (m : Memory) (a : ℕ) (v : BitVec 32) :
    half (storeWord m a v) (a+2) = v.extractLsb' 0 16 := by
  rw [storeWord, half_storeHalf]

theorem half_storeWord_of_ne (m : Memory) {a b : ℕ} (v : BitVec 32)
    (h : a + 4 ≤ b ∨ b + 2 ≤ a) : half (storeWord m a v) b = half m b := by
  rw [storeWord, half_storeHalf_of_ne _ _ (by omega), half_storeHalf_of_ne _ _ (by omega)]

@[simp] theorem word_storeWord (m : Memory) (a : ℕ) (v : BitVec 32) :
    word (storeWord m a v) a = v := by
  rw [word, half_storeWord, half_storeWord_low]
  exact BitVec.extractLsb'_append_extractLsb' (w := 16)

theorem word_storeWord_of_ne (m : Memory) {a b : ℕ} (v : BitVec 32)
    (h : a + 4 ≤ b ∨ b + 4 ≤ a) : word (storeWord m a v) b = word m b := by
  rw [word, half_storeWord_of_ne _ _ (by omega), half_storeWord_of_ne _ _ (by omega), word]

theorem word_storeHalf_high (m : Memory) (a : ℕ) (v : BitVec 16) :
    word (storeHalf m a v) a = v ++ (word m a).extractLsb' 0 16 := by
  rw [low_word, word, half_storeHalf, half_storeHalf_of_ne _ _ (by omega)]

theorem word_storeHalf_low (m : Memory) (a : ℕ) (v : BitVec 16) :
    word (storeHalf m (a+2) v) a = (word m a).extractLsb' 16 16 ++ v := by
  rw [high_word, word, half_storeHalf, half_storeHalf_of_ne _ _ (by omega)]

theorem word_storeHalf_of_ne (m : Memory) {a b : ℕ} (v : BitVec 16)
    (h : a + 2 ≤ b ∨ b + 4 ≤ a) : word (storeHalf m a v) b = word m b := by
  rw [word, half_storeHalf_of_ne _ _ (by omega), half_storeHalf_of_ne _ _ (by omega), word]

/-! The halves of a word as machine code takes them, by masks and shifts. -/

lemma getLsbD_lowMask (i : ℕ) : (0x0000FFFF#32).getLsbD i = decide (i < 16) := by
  by_cases hi : i < 32
  · exact (by decide : ∀ j : Fin 32, (0x0000FFFF#32).getLsbD j = decide (j.val < 16)) ⟨i,hi⟩
  · rw [BitVec.getLsbD_of_ge _ _ (by omega)]
    simp
    omega

lemma getLsbD_highMask (i : ℕ) :
    (0xFFFF0000#32).getLsbD i = decide (16 ≤ i ∧ i < 32) := by
  by_cases hi : i < 32
  · have h := (by decide : ∀ j : Fin 32, (0xFFFF0000#32).getLsbD j = decide (16 ≤ j.val)) ⟨i,hi⟩
    simpa [hi] using h
  · rw [BitVec.getLsbD_of_ge _ _ (by omega)]
    simp [hi]

theorem and_lowMask (v : BitVec 32) :
    v &&& 0x0000FFFF#32 = (v.extractLsb' 0 16).setWidth 32 := by
  apply BitVec.eq_of_getLsbD_eq
  intro i hi
  simp only [BitVec.getLsbD_and, getLsbD_lowMask, BitVec.getLsbD_setWidth,
    BitVec.getLsbD_extractLsb', Nat.zero_add, hi]
  grind

theorem and_highMask_shift (v : BitVec 32) :
    (v &&& 0xFFFF0000#32) >>> 16 = (v.extractLsb' 16 16).setWidth 32 := by
  apply BitVec.eq_of_getLsbD_eq
  intro i hi
  simp only [BitVec.getLsbD_ushiftRight, BitVec.getLsbD_and, getLsbD_highMask,
    BitVec.getLsbD_setWidth, BitVec.getLsbD_extractLsb', hi]
  grind

theorem join_high (v : BitVec 32) (h : BitVec 16) :
    (v &&& 0x0000FFFF#32) ||| (h.setWidth 32 <<< 16) = h ++ v.extractLsb' 0 16 := by
  apply BitVec.eq_of_getLsbD_eq
  intro i hi
  rw [BitVec.getLsbD_append]
  simp only [BitVec.getLsbD_or, BitVec.getLsbD_and, getLsbD_lowMask,
    BitVec.getLsbD_shiftLeft, BitVec.getLsbD_setWidth, BitVec.getLsbD_extractLsb', hi]
  grind

theorem join_low (v : BitVec 32) (h : BitVec 16) :
    (v &&& 0xFFFF0000#32) ||| h.setWidth 32 = v.extractLsb' 16 16 ++ h := by
  apply BitVec.eq_of_getLsbD_eq
  intro i hi
  rw [BitVec.getLsbD_append]
  simp only [BitVec.getLsbD_or, BitVec.getLsbD_and, getLsbD_highMask,
    BitVec.getLsbD_setWidth, BitVec.getLsbD_extractLsb', hi]
  grind

@[simp] theorem low_setWidth (h : BitVec 16) : (h.setWidth 32).extractLsb' 0 16 = h := by
  apply BitVec.eq_of_getLsbD_eq
  intro i hi
  simp [hi, show i < 32 by omega]

theorem shift_or_eq_append (x y : BitVec 16) :
    (x.setWidth 32 <<< 16) ||| y.setWidth 32 = x ++ y := by
  have h := join_high (y.setWidth 32) x
  rw [and_lowMask, low_setWidth, BitVec.or_comm] at h
  exact h

theorem setWidth_inj {x y : BitVec 16} : x.setWidth 32 = y.setWidth 32 ↔ x = y := by
  constructor
  · intro h
    have h' := congrArg (BitVec.extractLsb' 0 16) h
    rwa [low_setWidth, low_setWidth] at h'
  · rintro rfl
    rfl

end BigEndian
