import DolTools.Mem.RamBounds

/-! The lookups as functions of the table. By virtual address, the order of the BATs does not
matter where their blocks have no address in common, nor does a BAT that does not hold the
address. By physical address, whatever a BAT of a RAM leads to is found again. -/
namespace DolTools
open FirstMatch AlignedBlock

namespace EmuState

/-- The pairs of one kind in another order. -/
def permuteBats (s : EmuState) (isData : Bool) (σ : Equiv.Perm (Fin 8)) : EmuState :=
  if isData then
    { s with cpu := { s.cpu with dbatu := s.cpu.dbatu ∘ σ, dbatl := s.cpu.dbatl ∘ σ } }
  else
    { s with cpu := { s.cpu with ibatu := s.cpu.ibatu ∘ σ, ibatl := s.cpu.ibatl ∘ σ } }

/-- One pair rewritten. -/
def setBat (s : EmuState) (isData : Bool) (i : Fin 8) (b : Bat) : EmuState :=
  if isData then
    { s with cpu := { s.cpu with
      dbatu := Function.update s.cpu.dbatu i b.upper
      dbatl := Function.update s.cpu.dbatl i b.lower } }
  else
    { s with cpu := { s.cpu with
      ibatu := Function.update s.cpu.ibatu i b.upper
      ibatl := Function.update s.cpu.ibatl i b.lower } }

/-- No two active entries cover a common address, by the range test of the lookup. -/
def BlocksApart (s : EmuState) (isData : Bool) : Prop :=
  ∀ i j, s.HasBat i → s.HasBat j → i ≠ j → ∀ v,
    ¬ (s.Hit isData (·.coversVirt v) i ∧ s.Hit isData (·.coversVirt v) j)

/-- The active entries name MEM1 or MEM2, as the reload asks of them. -/
def NamesRams (s : EmuState) (isData : Bool) : Prop :=
  ∀ i, s.HasBat i → (s.bat isData i).active = true →
    (s.bat isData i).bprn = mem1Paddr ∨ (s.bat isData i).bprn = mem2Paddr

instance (s : EmuState) (isData : Bool) : Decidable (s.NamesRams isData) :=
  inferInstanceAs (Decidable (∀ _, _))

variable (s : EmuState) (isData : Bool)

lemma bat_permuteBats (σ : Equiv.Perm (Fin 8)) (i : Fin 8) :
    (s.permuteBats isData σ).bat isData i = s.bat isData (σ i) := by
  cases isData <;> rfl

lemma permuteBats_maxBAT (σ : Equiv.Perm (Fin 8)) :
    (s.permuteBats isData σ).maxBAT = s.maxBAT := by
  cases isData <;> rfl

lemma bat_setBat (i : Fin 8) (b : Bat) (j : Fin 8) :
    (s.setBat isData i b).bat isData j = if j = i then b else s.bat isData j := by
  by_cases hj : j = i
  · subst hj
    cases isData <;> simp [setBat, bat]
  · cases isData <;> simp [setBat, bat, hj]

lemma setBat_maxBAT (i : Fin 8) (b : Bat) : (s.setBat isData i b).maxBAT = s.maxBAT := by
  cases isData <;> rfl

end EmuState

section

variable {s : EmuState} {isData : Bool} {v : Word} {i : Fin 8}

lemma isLowest_of_blocksApart (hapart : s.BlocksApart isData) (hi : s.HasBat i)
    (h : s.Hit isData (·.coversVirt v) i) :
    IsLowest s.HasBat (s.Hit isData (·.coversVirt v)) i := by
  refine ⟨hi,h,?_⟩
  intro j hj hhit
  by_contra hlt
  exact hapart i j hi hj (fun heq => hlt heq.le) v ⟨h,hhit⟩

/-- Valid blocks that are disjoint have no address in common. -/
lemma blocksApart_of_disjoint (ht : s.ValidTable isData) (hd : s.DisjointTable isData) :
    s.BlocksApart isData := by
  rintro i j hi hj hne v ⟨hhit,hhit'⟩
  exact hne (eq_of_inRange hd hi hj hhit.1 hhit'.1 (inRange_of_hit ht hi hhit)
    (inRange_of_hit ht hj hhit'))

/-- A rearrangement that moves entries below `maxBAT` only keeps them there. -/
lemma hasBat_perm {σ : Equiv.Perm (Fin 8)} (hσ : ∀ i, ¬ s.HasBat i → σ i = i) (i : Fin 8) :
    s.HasBat (σ i) ↔ s.HasBat i := by
  constructor
  · intro h
    by_contra hi
    rw [hσ i hi] at h
    exact hi h
  · intro h
    by_contra hi
    rw [σ.injective (hσ (σ i) hi)] at hi
    exact hi h

lemma blocksApart_permuteBats {σ : Equiv.Perm (Fin 8)} (hσ : ∀ i, ¬ s.HasBat i → σ i = i)
    (hapart : s.BlocksApart isData) : (s.permuteBats isData σ).BlocksApart isData := by
  intro i j hi hj hne v hhits
  simp only [EmuState.HasBat, EmuState.permuteBats_maxBAT] at hi hj
  simp only [EmuState.Hit, EmuState.bat_permuteBats] at hhits
  exact hapart (σ i) (σ j) ((hasBat_perm hσ i).mpr hi) ((hasBat_perm hσ j).mpr hj)
    (fun heq => hne (σ.injective heq)) v hhits

/-- The only entry that covers an address is found wherever it stands. -/
theorem memVirtToPhys_permuteBats {σ : Equiv.Perm (Fin 8)} (hσ : ∀ i, ¬ s.HasBat i → σ i = i)
    (hapart : s.BlocksApart isData) :
    memVirtToPhys (s.permuteBats isData σ) v isData = memVirtToPhys s v isData := by
  have hapart' := blocksApart_permuteBats hσ hapart
  by_cases hhit : ∃ i, s.HasBat i ∧ s.Hit isData (·.coversVirt v) i
  · obtain ⟨i,hi,hcovers⟩ := hhit
    have hbat : (s.permuteBats isData σ).bat isData (σ.symm i) = s.bat isData i := by
      rw [EmuState.bat_permuteBats, Equiv.apply_symm_apply]
    have hi' : (s.permuteBats isData σ).HasBat (σ.symm i) := by
      rw [EmuState.HasBat, EmuState.permuteBats_maxBAT]
      change s.HasBat (σ.symm i)
      rwa [← hasBat_perm hσ, Equiv.apply_symm_apply]
    have hcovers' : (s.permuteBats isData σ).Hit isData (·.coversVirt v) (σ.symm i) := by
      rwa [EmuState.Hit, hbat]
    rw [memVirtToPhys_of_lowest (isLowest_of_blocksApart hapart hi hcovers),
      memVirtToPhys_of_lowest (isLowest_of_blocksApart hapart' hi' hcovers'), hbat]
  · have hnone : ∀ i, (s.permuteBats isData σ).HasBat i →
        ¬ (s.permuteBats isData σ).Hit isData (·.coversVirt v) i := by
      intro i hi hcovers
      rw [EmuState.HasBat, EmuState.permuteBats_maxBAT] at hi
      rw [EmuState.Hit, EmuState.bat_permuteBats] at hcovers
      exact hhit ⟨σ i,(hasBat_perm hσ i).mpr hi,hcovers⟩
    rw [memVirtToPhys, firstHit_of_no_hit _ hnone, memVirtToPhys,
      firstHit_of_no_hit _ (fun i hi hcovers => hhit ⟨i,hi,hcovers⟩)]

/-- Two tables give the same first hit if they differ only in entries that do not hit. -/
lemma firstHit_congr {bat bat' : Fin 8 → Bat} {covers : Bat → Bool} {result : Bat → MemAddr}
    {is : List (Fin 8)} (h : ∀ j ∈ is, bat' j = bat j ∨
      (¬ ((bat j).active = true ∧ covers (bat j) = true) ∧
        ¬ ((bat' j).active = true ∧ covers (bat' j) = true))) :
    firstHit bat' covers result is = firstHit bat covers result is := by
  induction is with
  | nil => rfl
  | cons j is ih =>
    have htail := ih (fun k hk => h k (List.mem_cons_of_mem j hk))
    rcases h j List.mem_cons_self with heq | ⟨hno,hno'⟩
    · rw [firstHit, firstHit, heq, htail]
    · have hskip : ∀ {bat : Fin 8 → Bat}, ¬ ((bat j).active = true ∧ covers (bat j) = true) →
          firstHit bat covers result (j::is) = firstHit bat covers result is := by
        intro bat hno
        rw [firstHit]
        split_ifs with ha hc
        · rfl
        · exact absurd ⟨by simpa using ha,hc⟩ hno
        · rfl
      rw [hskip hno, hskip hno', htail]

/-- An entry that does not cover an address has no part in its translation. -/
theorem memVirtToPhys_setBat {b : Bat} (hno : ¬ s.Hit isData (·.coversVirt v) i)
    (hno' : ¬ (s.setBat isData i b).Hit isData (·.coversVirt v) i) :
    memVirtToPhys (s.setBat isData i b) v isData = memVirtToPhys s v isData := by
  rw [memVirtToPhys, memVirtToPhys, EmuState.setBat_maxBAT]
  apply firstHit_congr
  intro j _
  by_cases hj : j = i
  · subst hj
    exact .inr ⟨hno,hno'⟩
  · exact .inl (by rw [EmuState.bat_setBat, if_neg hj])

end

/-- Where blocks have no address in common the lookup does not depend on the order of the
entries, and on no table on the entries that do not cover the address. -/
theorem memVirtToPhys_order (s : EmuState) (v : Word) (isData : Bool) :
    (s.BlocksApart isData → ∀ σ : Equiv.Perm (Fin 8), (∀ i, ¬ s.HasBat i → σ i = i) →
      memVirtToPhys (s.permuteBats isData σ) v isData = memVirtToPhys s v isData) ∧
    ∀ i b, ¬ s.Hit isData (·.coversVirt v) i →
      ¬ (s.setBat isData i b).Hit isData (·.coversVirt v) i →
      memVirtToPhys (s.setBat isData i b) v isData = memVirtToPhys s v isData :=
  ⟨fun hapart _ hσ => memVirtToPhys_permuteBats hσ hapart,
    fun _ _ hno hno' => memVirtToPhys_setBat hno hno'⟩

/-- On a Wii with its default data BATs, the cached and the uncached one of MEM2 exchanged, and
the uncached one cleared. -/
theorem memVirtToPhys_order_wii :
    memVirtToPhys (wiiTables.permuteBats true (Equiv.swap 4 5)) 0x90001234#32 true =
        ⟨0x10001234#32,true,true⟩ ∧
      memVirtToPhys (wiiTables.setBat true 5 ⟨0,0⟩) 0x90001234#32 true =
        ⟨0x10001234#32,true,true⟩ := by
  obtain ⟨horder,hset⟩ := memVirtToPhys_order wiiTables 0x90001234#32 true
  have hapart : wiiTables.BlocksApart true := blocksApart_of_disjoint (by decide) (by decide)
  have hfound : memVirtToPhys wiiTables 0x90001234#32 true = ⟨0x10001234#32,true,true⟩ := by
    decide
  exact ⟨(horder hapart (Equiv.swap 4 5) (by decide)).trans hfound,
    (hset 5 ⟨0,0⟩ (by decide) (by decide)).trans hfound⟩

namespace Bat

variable {b : Bat} {v : Word}

/-- The physical bases of the RAMs are aligned to every block. -/
lemma ram_aligned (hcode : b.size ≠ 0) (hram : b.bprn = mem1Paddr ∨ b.bprn = mem2Paddr) :
    Aligned b.size b.bprn := by
  obtain ⟨k,-,hk,hpow⟩ := memPPCBlockLenToBytes_two_pow hcode
  have hsize : b.size.toNat = 2^k := hpow
  rw [aligned_iff_mod hsize]
  rcases hram with hram | hram
  · rw [hram]
    exact Nat.zero_mod _
  · rw [hram, hsize]
    exact Nat.mod_eq_zero_of_dvd (Nat.pow_dvd_pow 2 hk)

/-- An entry of a RAM covers the physical addresses that it leads to. -/
lemma coversPhys_toPhys (hram : b.bprn = mem1Paddr ∨ b.bprn = mem2Paddr)
    (h : b.coversVirt v = true) : b.coversPhys (b.toPhys v).addr = true := by
  obtain ⟨hl,hr⟩ := of_decide_eq_true h
  have hoff : (v - b.bepi).toNat < b.size.toNat := sub_lt_of_wrapping_range hl hr
  have hcode : b.size ≠ 0 := by
    intro hz
    rw [hz] at hoff
    exact Nat.not_lt_zero _ hoff
  have hsize := b.size_le
  have hbase : b.bprn.toNat ≤ 0x10000000 := by
    rcases hram with hram | hram <;> rw [hram] <;> decide
  have haddr : (b.toPhys v).addr = b.bprn + (v - b.bepi) := by
    rw [toPhys, and_high_of_aligned (ram_aligned hcode hram)]
  rw [haddr, coversPhys, decide_eq_true_iff, BitVec.le_def, BitVec.lt_def, BitVec.toNat_add,
    BitVec.toNat_add, Nat.mod_eq_of_lt (by omega), Nat.mod_eq_of_lt (by omega)]
  omega

end Bat

/-- In a table of the RAMs, the address that a virtual one is translated to is found by the
lookup in the other direction. -/
theorem memPhysToVirt_complete {s : EmuState} {v : Word} {isData : Bool}
    (hrams : s.NamesRams isData) (h : (memVirtToPhys s v isData).mapped = true) :
    (memPhysToVirt s (memVirtToPhys s v isData).addr isData).mapped = true := by
  obtain ⟨i,hi⟩ := exists_lowest_hit (memVirtToPhys_mapped_iff.mp h)
  obtain ⟨hactive,hcovers⟩ := hi.holds
  rw [memVirtToPhys_of_lowest hi]
  exact memPhysToVirt_mapped_iff.mpr
    ⟨i,hi.mem,hactive,Bat.coversPhys_toPhys (hrams i hi.mem hactive) hcovers⟩

theorem memPhysToVirt_complete_wii :
    (memPhysToVirt wiiTables (memVirtToPhys wiiTables 0x90001234#32 true).addr true).mapped =
      true :=
  memPhysToVirt_complete (by decide) (by decide)

end DolTools
