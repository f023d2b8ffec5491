import DolTools.Mem.Bat

/-! The lookup by virtual address against the architecture. A BAT matches an address under
the mask of its block; the code compares with the two ends of the block in wrapping
arithmetic, which loses the blocks that end at the top of the address space. -/
namespace DolTools
open FirstMatch AlignedBlock

namespace Bat

def Matches (b : Bat) (v : Word) : Prop := v &&& ~~~(b.size - 1#32) = b.bepi

/-- The block ends at 2^32, so that its end is zero as a word. -/
def EndsAtTop (b : Bat) : Prop := b.bepi.toNat + b.size.toNat = 2^32

/-- Both entries move addresses by the same distance, and agree on writing. -/
def SameTranslation (b c : Bat) : Prop :=
  b.bprn - b.bepi = c.bprn - c.bepi ∧ (b.pp = batlPpRw ↔ c.pp = batlPpRw)

instance (b : Bat) (v : Word) : Decidable (b.Matches v) := inferInstanceAs (Decidable (_ = _))
instance (b : Bat) : Decidable b.EndsAtTop := inferInstanceAs (Decidable (_ = _))
instance (b c : Bat) : Decidable (b.SameTranslation c) := inferInstanceAs (Decidable (_ ∧ _))

variable {b c : Bat} {v : Word}

theorem matches_iff_inRange (h : b.Valid) : b.Matches v ↔ InRange b.size b.bepi v := by
  obtain ⟨k,hk⟩ := h.two_pow
  exact and_high_eq_iff hk h.virt v

/-- The range test of the code accepts a match unless the block ends at the top. -/
theorem coversVirt_iff (h : b.Valid) :
    b.coversVirt v = true ↔ b.Matches v ∧ ¬ b.EndsAtTop := by
  obtain ⟨k,hk⟩ := h.two_pow
  rw [coversVirt, decide_eq_true_iff, wrapping_range_iff (end_le hk h.virt),
    matches_iff_inRange h]
  rfl

theorem toPhys_addr (h : b.Valid) (v : Word) : (b.toPhys v).addr = b.bprn + (v - b.bepi) := by
  have hp : b.bprn &&& ~~~(b.size - 1#32) = b.bprn := and_high_of_aligned h.phys
  simp only [toPhys, hp]

theorem toPhys_writable : (b.toPhys v).writable = true ↔ b.pp = batlPpRw := beq_iff_eq

theorem or_offset_eq (h : b.Valid) (hm : b.Matches v) :
    b.bprn ||| (v &&& (b.size - 1#32)) = b.bprn + (v - b.bepi) := by
  obtain ⟨k,hk⟩ := h.two_pow
  calc b.bprn ||| (v &&& (b.size - 1#32))
      = b.bprn + (v &&& (b.size - 1#32)) := or_low_eq_add h.phys v
    _ = b.bprn + (v - b.bepi) := by
      rw [and_low_eq_sub hk h.virt ((matches_iff_inRange h).mp hm)]

theorem addr_eq_iff (b c : Bat) (v : Word) :
    b.bprn + (v - b.bepi) = c.bprn + (v - c.bepi) ↔ b.bprn - b.bepi = c.bprn - c.bepi := by
  rw [show b.bprn + (v - b.bepi) = (b.bprn - b.bepi) + v by ring,
    show c.bprn + (v - c.bepi) = (c.bprn - c.bepi) + v by ring, BitVec.add_left_inj]

end Bat

namespace EmuState

def ValidTable (s : EmuState) (isData : Bool) : Prop :=
  ∀ i, s.HasBat i → (s.bat isData i).active = true → (s.bat isData i).Valid

/-- Entry `i` is active and matches as the architecture has it. -/
def ArchHit (s : EmuState) (isData : Bool) (v : Word) (i : Fin 8) : Prop :=
  (s.bat isData i).active = true ∧ (s.bat isData i).Matches v

instance (s : EmuState) (isData : Bool) : Decidable (s.ValidTable isData) :=
  inferInstanceAs (Decidable (∀ _, _))

instance (s : EmuState) (isData : Bool) (v : Word) (i : Fin 8) :
    Decidable (s.ArchHit isData v i) := inferInstanceAs (Decidable (_ ∧ _))

end EmuState

/-- The lookup does what the architecture prescribes: it maps exactly the addresses that an
entry matches, to the address and the protection of the lowest such entry. -/
structure ArchLookup (s : EmuState) (v : Word) (isData : Bool) : Prop where
  mapped : (memVirtToPhys s v isData).mapped = true ↔ ∃ i, s.HasBat i ∧ s.ArchHit isData v i
  addr : ∀ i, IsLowest s.HasBat (s.ArchHit isData v) i →
    (memVirtToPhys s v isData).addr =
      (s.bat isData i).bprn ||| (v &&& ((s.bat isData i).size - 1#32))
  writable : ∀ i, IsLowest s.HasBat (s.ArchHit isData v) i →
    ((memVirtToPhys s v isData).writable = true ↔ (s.bat isData i).pp = batlPpRw)

section

variable {s : EmuState} {isData : Bool} {v : Word} {i j : Fin 8}

/-- The code sees the matches of the blocks that end below the top. -/
lemma hit_iff (ht : s.ValidTable isData) (hi : s.HasBat i) :
    s.Hit isData (·.coversVirt v) i ↔
      s.ArchHit isData v i ∧ ¬ (s.bat isData i).EndsAtTop := by
  constructor
  · rintro ⟨ha,hc⟩
    obtain ⟨hm,hn⟩ := (Bat.coversVirt_iff (ht i hi ha)).mp hc
    exact ⟨⟨ha,hm⟩,hn⟩
  · rintro ⟨⟨ha,hm⟩,hn⟩
    exact ⟨ha,(Bat.coversVirt_iff (ht i hi ha)).mpr ⟨hm,hn⟩⟩

lemma memVirtToPhys_of_lowest_match (ht : s.ValidTable isData)
    (h : IsLowest s.HasBat
      (fun j => s.ArchHit isData v j ∧ ¬ (s.bat isData j).EndsAtTop) j) :
    memVirtToPhys s v isData = (s.bat isData j).toPhys v :=
  memVirtToPhys_of_lowest (h.congr (fun _ hk => (hit_iff ht hk).symm))

lemma toPhys_eq_arch_iff (ht : s.ValidTable isData) (hi : s.HasBat i)
    (hmi : s.ArchHit isData v i) (hj : s.HasBat j) (hmj : s.ArchHit isData v j) :
    (((s.bat isData j).toPhys v).addr =
        (s.bat isData i).bprn ||| (v &&& ((s.bat isData i).size - 1#32)) ∧
      (((s.bat isData j).toPhys v).writable = true ↔ (s.bat isData i).pp = batlPpRw)) ↔
      (s.bat isData j).SameTranslation (s.bat isData i) := by
  rw [Bat.toPhys_addr (ht j hj hmj.1), Bat.or_offset_eq (ht i hi hmi.1) hmi.2,
    Bat.addr_eq_iff, Bat.toPhys_writable, Bat.SameTranslation]

/-- The lookup is the architectural one exactly when the lowest matching entry does not end
at the top of the address space, or the lowest match below the top translates alike. -/
theorem archLookup_iff (s : EmuState) (v : Word) (isData : Bool)
    (ht : s.ValidTable isData) :
    ArchLookup s v isData ↔
      ∀ i, IsLowest s.HasBat (s.ArchHit isData v) i → (s.bat isData i).EndsAtTop →
        ∃ j, IsLowest s.HasBat
            (fun j => s.ArchHit isData v j ∧ ¬ (s.bat isData j).EndsAtTop) j ∧
          (s.bat isData j).SameTranslation (s.bat isData i) := by
  constructor
  · rintro ⟨hmapped,haddr,hwritable⟩ i hi _
    obtain ⟨j,hj⟩ := exists_lowest_hit
      (memVirtToPhys_mapped_iff.mp (hmapped.mpr ⟨i,hi.mem,hi.holds⟩))
    have hj' := hj.congr (fun _ hk => hit_iff ht hk)
    have ha := haddr i hi
    have hw := hwritable i hi
    rw [memVirtToPhys_of_lowest hj] at ha hw
    exact ⟨j,hj',(toPhys_eq_arch_iff ht hi.mem hi.holds hj.mem hj'.holds.1).mp ⟨ha,hw⟩⟩
  · intro h
    -- the entry the code stops at, wherever the architecture finds one
    have hstop : ∀ i, IsLowest s.HasBat (s.ArchHit isData v) i → ∃ j, IsLowest s.HasBat
        (fun j => s.ArchHit isData v j ∧ ¬ (s.bat isData j).EndsAtTop) j ∧
          (s.bat isData j).SameTranslation (s.bat isData i) := by
      intro i hi
      by_cases htop : (s.bat isData i).EndsAtTop
      · exact h i hi htop
      · exact ⟨i,hi.of_imp ⟨hi.holds,htop⟩ (fun _ _ hk => hk.1),rfl,Iff.rfl⟩
    refine ⟨⟨?_,?_⟩,?_,?_⟩
    · intro hm
      obtain ⟨i,hi,hhit⟩ := memVirtToPhys_mapped_iff.mp hm
      exact ⟨i,hi,((hit_iff ht hi).mp hhit).1⟩
    · rintro ⟨i,hi,hm⟩
      obtain ⟨l,hl⟩ := exists_isLowest (batIndices_sorted s.maxBAT)
        (fun k => decide (s.ArchHit isData v k)) ⟨i,hi,decide_eq_true hm⟩
      obtain ⟨j,hj,-⟩ := hstop l (hl.congr (fun _ _ => decide_eq_true_iff))
      exact memVirtToPhys_mapped_iff.mpr ⟨j,hj.mem,(hit_iff ht hj.mem).mpr hj.holds⟩
    · intro i hi
      obtain ⟨j,hj,hsame⟩ := hstop i hi
      rw [memVirtToPhys_of_lowest_match ht hj]
      exact ((toPhys_eq_arch_iff ht hi.mem hi.holds hj.mem hj.holds.1).mpr hsame).1
    · intro i hi
      obtain ⟨j,hj,hsame⟩ := hstop i hi
      rw [memVirtToPhys_of_lowest_match ht hj]
      exact ((toPhys_eq_arch_iff ht hi.mem hi.holds hj.mem hj.holds.1).mpr hsame).2

end

def withDbat0 (upper lower : Word) : EmuState :=
  { EmuState.zero with
    maxBAT := 4
    cpu := { CpuState.zero with
      dbatu := Function.update (fun _ => 0) 0 upper
      dbatl := Function.update (fun _ => 0) 0 lower } }

/-- The default data BAT at 0x80000000. -/
theorem archLookup_default :
    (withDbat0 0x80001FFF#32 0x00000002#32).ValidTable true ∧
      ArchLookup (withDbat0 0x80001FFF#32 0x00000002#32) 0x80001234#32 true :=
  ⟨by decide,(archLookup_iff _ _ _ (by decide)).mpr (by
    intro i hi htop
    have hnot : ∀ j, ¬ ((withDbat0 0x80001FFF#32 0x00000002#32).ArchHit true 0x80001234#32 j ∧
      ((withDbat0 0x80001FFF#32 0x00000002#32).bat true j).EndsAtTop) := by decide
    exact absurd ⟨hi.holds,htop⟩ (hnot i))⟩

/-- A block of 256 MiB at 0xF0000000 is never found. -/
theorem top_block_not_found :
    ¬ ∀ (s : EmuState) (v : Word) (isData : Bool), s.ValidTable isData →
      ArchLookup s v isData := by
  intro h
  have hm := (h (withDbat0 0xF0001FFF#32 0x00000002#32) 0xF0000010#32 true (by decide)).mapped
  revert hm
  decide

end DolTools
