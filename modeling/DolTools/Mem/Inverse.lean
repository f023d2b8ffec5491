import DolTools.Mem.Translation
import DolTools.Library.AddressMap

/-! The lookup by physical address against the one by virtual address. It measures the
distance from the far end of the block, so that it reflects the block: only its middle comes
back, and its first byte where the next block happens to continue the translation. -/
namespace DolTools
open FirstMatch AlignedBlock

/-- Going to a virtual address and back gives the same address and the same protection. -/
def RightInverse (s : EmuState) (p : Word) (isData : Bool) : Prop :=
  (memPhysToVirt s p isData).mapped = true →
    (memVirtToPhys s (memPhysToVirt s p isData).addr isData).mapped = true ∧
      (memVirtToPhys s (memPhysToVirt s p isData).addr isData).addr = p ∧
      (memVirtToPhys s (memPhysToVirt s p isData).addr isData).writable =
        (memPhysToVirt s p isData).writable

namespace EmuState

/-- The virtual blocks of active entries have no byte in common. -/
def DisjointTable (s : EmuState) (isData : Bool) : Prop :=
  ∀ i j, s.HasBat i → s.HasBat j → (s.bat isData i).active = true →
    (s.bat isData j).active = true → i ≠ j →
    AddressMap.Apart (s.bat isData i).bepi.toNat (s.bat isData i).size.toNat
      (s.bat isData j).bepi.toNat (s.bat isData j).size.toNat

instance (s : EmuState) (isData : Bool) : Decidable (s.DisjointTable isData) :=
  inferInstanceAs (Decidable (∀ _ _, _))

end EmuState

namespace Bat

def IsMiddle (b : Bat) (p : Word) : Prop :=
  2 * (p - b.bprn).toNat = b.size.toNat ∧ ¬ b.EndsAtTop

instance (b : Bat) (p : Word) : Decidable (b.IsMiddle p) := inferInstanceAs (Decidable (_ ∧ _))

variable {b : Bat} {p : Word}

lemma distance_lt (h : b.Valid) (hp : b.coversPhys p = true) :
    (p - b.bprn).toNat < b.size.toNat := by
  obtain ⟨k,hk⟩ := h.two_pow
  rw [coversPhys, decide_eq_true_iff, wrapping_range_iff (end_le hk h.phys)] at hp
  obtain ⟨⟨hl,hr⟩,-⟩ := hp
  rw [BitVec.toNat_sub_of_le (BitVec.le_def.mpr hl)]
  omega

lemma toVirt_addr (b : Bat) (p : Word) :
    (b.toVirt p).addr = b.bepi + (b.size - (p - b.bprn)) := by
  change b.bepi + ((b.bprn + b.size) - p) = _
  ring

lemma toVirt_inRange (h : b.Valid) (hp : b.coversPhys p = true) (hne : p ≠ b.bprn) :
    InRange b.size b.bepi (b.toVirt p).addr := by
  obtain ⟨k,hk⟩ := h.two_pow
  have hlt := distance_lt h hp
  have hpos : 0 < (p - b.bprn).toNat := by
    apply Nat.pos_of_ne_zero
    intro hz
    exact hne (sub_eq_zero.mp (BitVec.eq_of_toNat_eq (by simpa using hz)))
  have hsub : (b.size - (p - b.bprn)).toNat = b.size.toNat - (p - b.bprn).toNat :=
    BitVec.toNat_sub_of_le (BitVec.le_def.mpr hlt.le)
  have hend := end_le hk h.virt
  have hadd : (b.bepi + (b.size - (p - b.bprn))).toNat =
      b.bepi.toNat + (b.size.toNat - (p - b.bprn).toNat) := by
    rw [BitVec.toNat_add, hsub, Nat.mod_eq_of_lt (by omega)]
  rw [toVirt_addr, InRange, hadd]
  omega

/-- The reflected address comes back through the same entry exactly at the middle. -/
lemma middle_iff (h : b.Valid) (hp : b.coversPhys p = true) :
    (b.coversVirt (b.toVirt p).addr = true ∧
      b.bprn + ((b.toVirt p).addr - b.bepi) = p) ↔ b.IsMiddle p := by
  have hlt := distance_lt h hp
  have hsub : (b.size - (p - b.bprn)).toNat = b.size.toNat - (p - b.bprn).toNat :=
    BitVec.toNat_sub_of_le (BitVec.le_def.mpr hlt.le)
  have hback : b.bprn + ((b.toVirt p).addr - b.bepi) = p ↔
      2 * (p - b.bprn).toNat = b.size.toNat := by
    rw [toVirt_addr, show b.bprn + (b.bepi + (b.size - (p - b.bprn)) - b.bepi) =
      b.bprn + (b.size - (p - b.bprn)) by ring]
    constructor
    · intro he
      have hd : b.size - (p - b.bprn) = p - b.bprn := by
        rw [eq_sub_iff_add_eq, add_comm]
        exact he
      have hn := congrArg BitVec.toNat hd
      omega
    · intro he
      have hd : b.size - (p - b.bprn) = p - b.bprn := by
        apply BitVec.eq_of_toNat_eq
        omega
      rw [hd]
      ring
  rw [hback, IsMiddle, coversVirt_iff h, matches_iff_inRange h]
  constructor
  · rintro ⟨⟨-,htop⟩,hmid⟩
    exact ⟨hmid,htop⟩
  · rintro ⟨hmid,htop⟩
    refine ⟨⟨toVirt_inRange h hp ?_,htop⟩,hmid⟩
    rintro rfl
    rw [sub_self] at hmid
    exact h.code (BitVec.eq_of_toNat_eq (by simpa using hmid.symm))

end Bat

section

variable {s : EmuState} {isData : Bool} {p v : Word} {i j : Fin 8}

lemma inRange_of_hit (ht : s.ValidTable isData) (hi : s.HasBat i)
    (h : s.Hit isData (·.coversVirt v) i) :
    InRange (s.bat isData i).size (s.bat isData i).bepi v := by
  have hv := ht i hi h.1
  exact (Bat.matches_iff_inRange hv).mp ((Bat.coversVirt_iff hv).mp h.2).1

lemma eq_of_inRange (hd : s.DisjointTable isData) (hi : s.HasBat i) (hj : s.HasBat j)
    (hai : (s.bat isData i).active = true) (haj : (s.bat isData j).active = true)
    (hri : InRange (s.bat isData i).size (s.bat isData i).bepi v)
    (hrj : InRange (s.bat isData j).size (s.bat isData j).bepi v) : i = j := by
  by_contra hne
  obtain ⟨hil,hir⟩ := hri
  obtain ⟨hjl,hjr⟩ := hrj
  rcases hd i j hi hj hai haj hne with hlt | hlt <;> omega

lemma isLowest_of_hit (ht : s.ValidTable isData) (hd : s.DisjointTable isData)
    (hi : s.HasBat i) (h : s.Hit isData (·.coversVirt v) i) :
    IsLowest s.HasBat (s.Hit isData (·.coversVirt v)) i := by
  refine ⟨hi,h,?_⟩
  intro j hj hhit
  exact (eq_of_inRange hd hi hj h.1 hhit.1 (inRange_of_hit ht hi h)
    (inRange_of_hit ht hj hhit)).le

/-- The way back goes through the entry that holds the virtual address. -/
lemma rightInverse_iff_exists (ht : s.ValidTable isData)
    (hi : IsLowest s.HasBat (s.Hit isData (·.coversPhys p)) i) :
    RightInverse s p isData ↔
      ∃ j, IsLowest s.HasBat
          (s.Hit isData (·.coversVirt ((s.bat isData i).toVirt p).addr)) j ∧
        (s.bat isData j).bprn + (((s.bat isData i).toVirt p).addr - (s.bat isData j).bepi) = p ∧
        ((s.bat isData j).pp = batlPpRw ↔ (s.bat isData i).pp = batlPpRw) := by
  have hmapped : (memPhysToVirt s p isData).mapped = true :=
    memPhysToVirt_mapped_iff.mpr ⟨i,hi.mem,hi.holds⟩
  rw [RightInverse, memPhysToVirt_of_lowest hi]
  rw [memPhysToVirt_of_lowest hi] at hmapped
  constructor
  · intro h
    obtain ⟨hm,haddr,hw⟩ := h hmapped
    obtain ⟨j,hj⟩ := exists_lowest_hit (memVirtToPhys_mapped_iff.mp hm)
    rw [memVirtToPhys_of_lowest hj] at haddr hw
    rw [Bat.toPhys_addr (ht j hj.mem hj.holds.1)] at haddr
    exact ⟨j,hj,haddr,
      Bat.toPhys_writable.symm.trans ((Bool.eq_iff_iff.mp hw).trans beq_iff_eq)⟩
  · rintro ⟨j,hj,haddr,hw⟩ -
    rw [memVirtToPhys_of_lowest hj, Bat.toPhys_addr (ht j hj.mem hj.holds.1)]
    refine ⟨rfl,haddr,?_⟩
    change ((s.bat isData j).pp == batlPpRw) = ((s.bat isData i).pp == batlPpRw)
    rw [Bool.eq_iff_iff, beq_iff_eq, beq_iff_eq]
    exact hw

/-- The lookup by physical address is a right inverse exactly where, in the first block that
covers the address, it is the middle, or it is the first byte and the byte behind the virtual
block belongs to a block that translates it back. -/
theorem rightInverse_iff (s : EmuState) (p : Word) (isData : Bool)
    (ht : s.ValidTable isData) (hd : s.DisjointTable isData) :
    RightInverse s p isData ↔
      ∀ i, IsLowest s.HasBat (s.Hit isData (·.coversPhys p)) i →
        (s.bat isData i).IsMiddle p ∨
        (p = (s.bat isData i).bprn ∧ ∃ j, s.HasBat j ∧
          s.Hit isData (·.coversVirt ((s.bat isData i).bepi + (s.bat isData i).size)) j ∧
          (s.bat isData j).bprn + ((s.bat isData i).bepi + (s.bat isData i).size -
            (s.bat isData j).bepi) = p ∧
          ((s.bat isData j).pp = batlPpRw ↔ (s.bat isData i).pp = batlPpRw)) := by
  constructor
  · intro h i hi
    have hvi := ht i hi.mem hi.holds.1
    obtain ⟨j,hj,haddr,hw⟩ := (rightInverse_iff_exists ht hi).mp h
    by_cases hji : j = i
    · subst hji
      exact .inl ((Bat.middle_iff hvi hi.holds.2).mp ⟨hj.holds.2,haddr⟩)
    · have hp : p = (s.bat isData i).bprn := by
        by_contra hne
        exact hji (eq_of_inRange hd hj.mem hi.mem hj.holds.1 hi.holds.1
          (inRange_of_hit ht hj.mem hj.holds) (Bat.toVirt_inRange hvi hi.holds.2 hne))
      have hend : ((s.bat isData i).toVirt p).addr =
          (s.bat isData i).bepi + (s.bat isData i).size := by
        rw [Bat.toVirt_addr, hp]
        ring
      rw [hend] at hj haddr
      exact .inr ⟨hp,j,hj.mem,hj.holds,haddr,hw⟩
  · intro h
    by_cases hm : (memPhysToVirt s p isData).mapped = true
    · obtain ⟨i,hi⟩ := exists_lowest_hit (memPhysToVirt_mapped_iff.mp hm)
      have hvi := ht i hi.mem hi.holds.1
      rw [rightInverse_iff_exists ht hi]
      rcases h i hi with hmid | ⟨hp,j,hj,hhit,haddr,hw⟩
      · obtain ⟨hc,haddr⟩ := (Bat.middle_iff hvi hi.holds.2).mpr hmid
        exact ⟨i,isLowest_of_hit ht hd hi.mem ⟨hi.holds.1,hc⟩,haddr,Iff.rfl⟩
      · have hend : ((s.bat isData i).toVirt p).addr =
            (s.bat isData i).bepi + (s.bat isData i).size := by
          rw [Bat.toVirt_addr, hp]
          ring
        rw [hend]
        exact ⟨j,isLowest_of_hit ht hd hj hhit,haddr,hw⟩
    · exact fun hc => absurd hc hm

end

/-- The middle of the default data block comes back. -/
theorem rightInverse_default_middle :
    RightInverse (withDbat0 0x80001FFF#32 0x00000002#32) 0x08000000#32 true :=
  (rightInverse_iff _ _ _ (by decide) (by decide)).mpr (by
    intro i hi
    have hmid : ∀ j, (withDbat0 0x80001FFF#32 0x00000002#32).Hit true
        (·.coversPhys 0x08000000#32) j →
        ((withDbat0 0x80001FFF#32 0x00000002#32).bat true j).IsMiddle 0x08000000#32 := by
      decide
    exact .inl (hmid i hi.holds))

/-- The boot code of the DSP at 0x01000000 is taken from 0x8F000000. -/
theorem rightInverse_fails_default :
    ¬ ∀ (s : EmuState) (p : Word) (isData : Bool), s.ValidTable isData →
      s.DisjointTable isData → RightInverse s p isData := by
  intro h
  have hr := h (withDbat0 0x80001FFF#32 0x00000002#32) 0x01000000#32 true (by decide)
    (by decide) (by decide)
  revert hr
  decide

end DolTools
