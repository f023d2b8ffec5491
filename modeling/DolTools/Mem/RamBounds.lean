import DolTools.Mem.Soundness

/-! What a pass without an error has checked: every BAT that is set up names a RAM of the
console, so that no translated address leaves the physical windows of the RAMs. -/
namespace DolTools
open FirstMatch AlignedBlock

section

variable {k : Kernel} {s : EmuState}

/-- No way through the pass leads past the check of the physical base. -/
theorem reloadEntries_checked {es : List BatRef} {l : ReloadLoop}
    (hret : l.returned = true → l.s.fatalError = true)
    (hok : (es.foldl (reloadEntry k) l).s.fatalError = false) :
    ∀ e ∈ es, (l.s.batOf e).isZero = true ∨ ∃ ram, l.s.ramOf e = some ram := by
  induction es generalizing l with
  | nil => simp
  | cons e es ih =>
    have hstep := reloadEntry_mapStep (k := k) (l := l) (e := e)
    have hok' : (reloadEntry k l e).s.fatalError = false :=
      (reloadEntries_mapStep es (reloadEntry k l e)).ok hok
    have hgo : l.returned = false := by
      by_contra hne
      rw [hstep.fatal (hret (by simpa using hne))] at hok'
      contradiction
    intro f hf
    rcases List.mem_cons.mp hf with rfl | hf
    · cases hz : (l.s.batOf f).isZero with
      | true => exact .inl rfl
      | false =>
        cases hram : l.s.ramOf f with
        | some ram => exact .inr ⟨ram,rfl⟩
        | none =>
          rw [reloadEntry_of_no_ram hgo hz hram] at hok'
          contradiction
    · have htail := ih (reloadEntry_returned hret) hok f hf
      rwa [hstep.batOf, hstep.ramOf] at htail

/-- Every BAT below `maxBAT` that is not all zero names a RAM of the console. -/
theorem ramOf_of_memMapFixups {vaddr oldMsr : Word} (htrans : isTranslating s.cpu.msr = true)
    (hok : (memMapFixups k vaddr oldMsr s).fatalError = false) {e : BatRef}
    (he : s.HasBat e.1) (hz : (s.batOf e).isZero = false) : ∃ ram, s.ramOf e = some ram := by
  have hstart : MapStep (fixupsEntry oldMsr s) (reloadStart oldMsr s) := reloadStart_mapStep
  have hbat : (reloadStart oldMsr s).batOf e = s.batOf e := hstart.batOf e
  have hram : (reloadStart oldMsr s).ramOf e = s.ramOf e := hstart.ramOf e
  have hmax : (reloadStart oldMsr s).maxBAT = s.maxBAT := hstart.maxBAT
  rw [memMapFixups_of_translating htrans, memReloadMap_eq] at hok
  have hmem : e ∈ reloadOrder (reloadStart oldMsr s).maxBAT := by
    rw [mem_reloadOrder, hmax]
    exact he
  rcases reloadEntries_checked (fun h => absurd h Bool.false_ne_true) hok e hmem with
    hzero | hsome
  · rw [hbat, hz] at hzero
    contradiction
  · rwa [hram] at hsome

end

namespace Bat

variable {b : Bat} {v : Word}

theorem size_le (b : Bat) : b.size.toNat ≤ 0x10000000 := by
  by_cases hz : b.size = 0
  · rw [hz]
    exact Nat.zero_le _
  · obtain ⟨n,-,hn,hsize⟩ := memPPCBlockLenToBytes_two_pow hz
    calc b.size.toNat = 2^n := hsize
      _ ≤ 2^28 := Nat.pow_le_pow_right (by norm_num) hn

/-- A covered address is translated to one within 256 MiB of the physical base. -/
theorem toPhys_lt (h : b.coversVirt v = true) (hb : b.bprn.toNat ≤ 0x10000000) :
    (b.toPhys v).addr.toNat < b.bprn.toNat + 0x10000000 := by
  obtain ⟨hl,hr⟩ := of_decide_eq_true h
  have hoff : (v - b.bepi).toNat < b.size.toNat := sub_lt_of_wrapping_range hl hr
  have hsize := b.size_le
  have hbase : (b.bprn &&& ~~~(b.size - 1#32)).toNat ≤ b.bprn.toNat := by
    rw [BitVec.toNat_and]
    exact Nat.and_le_left
  rw [toPhys, BitVec.toNat_add, Nat.mod_eq_of_lt (by omega)]
  omega

theorem active_isZero (h : b.active = true) : b.isZero = false := by
  cases hz : b.isZero with
  | false => rfl
  | true =>
    obtain ⟨hu,-⟩ := (Bool.and_eq_true _ _).mp hz
    simp [active, beq_iff_eq.mp hu] at h

end Bat

/-- Where the physical windows of the console's RAMs end. -/
def ramLimit : ConsoleType → ℕ
  | .gamecube => 0x10000000
  | .wii => 0x20000000
  | .other => 0

lemma ramPaddr_add_le {c : ConsoleType} {ram : Ram} (h : ram ∈ consoleRams c) :
    (ramPaddr ram).toNat + 0x10000000 ≤ ramLimit c := by
  cases c <;> cases ram <;> simp [consoleRams, ramLimit, ramPaddr, mem1Paddr, mem2Paddr] at h ⊢

/-- After a call that leaves translation on without an error, every BAT that is set up names
a RAM of the console, and every translated address lies in the physical windows. -/
theorem ramBounds_of_memMapFixups {k : Kernel} {vaddr oldMsr : Word} {s t : EmuState}
    (htrans : isTranslating s.cpu.msr = true) (ht : t = memMapFixups k vaddr oldMsr s)
    (hok : t.fatalError = false) :
    (∀ e, t.HasBat e.1 → (t.batOf e).isZero = false →
      ∃ ram ∈ consoleRams t.consoleType, (t.batOf e).bprn = ramPaddr ram) ∧
    ∀ v isData, (memVirtToPhys t v isData).mapped = true →
      (memVirtToPhys t v isData).addr.toNat < ramLimit t.consoleType := by
  subst ht
  have hstep : MapStep (fixupsEntry oldMsr s) (memMapFixups k vaddr oldMsr s) :=
    memMapFixups_mapStep
  have hbase : ∀ e, (memMapFixups k vaddr oldMsr s).HasBat e.1 →
      ((memMapFixups k vaddr oldMsr s).batOf e).isZero = false →
      ∃ ram ∈ consoleRams (memMapFixups k vaddr oldMsr s).consoleType,
        ((memMapFixups k vaddr oldMsr s).batOf e).bprn = ramPaddr ram := by
    intro e he hz
    rw [EmuState.HasBat, hstep.maxBAT] at he
    rw [hstep.batOf] at hz
    obtain ⟨ram,hram⟩ := ramOf_of_memMapFixups htrans hok he hz
    have hram' : (memMapFixups k vaddr oldMsr s).ramOf e = some ram :=
      (hstep.ramOf e).trans hram
    exact ⟨ram,ramOf_spec hram'⟩
  refine ⟨hbase,?_⟩
  intro v isData hmapped
  obtain ⟨i,hi⟩ := exists_lowest_hit (memVirtToPhys_mapped_iff.mp hmapped)
  obtain ⟨hactive,hcovers⟩ := hi.holds
  obtain ⟨ram,hram,hbprn⟩ := hbase (i,isData) hi.mem (Bat.active_isZero hactive)
  change ((memMapFixups k vaddr oldMsr s).bat isData i).bprn = ramPaddr ram at hbprn
  have hlimit := ramPaddr_add_le hram
  have hpaddr : (ramPaddr ram).toNat ≤ 0x10000000 := by cases ram <;> decide
  have hlt := Bat.toPhys_lt hcovers (hbprn ▸ hpaddr)
  rw [hbprn] at hlt
  rw [memVirtToPhys_of_lowest hi]
  omega

/-- A Wii with its default BATs, before they are mapped. -/
def wiiTables : EmuState := (wiiRegions ⟨fun _ => 3,fun _ => 0,true⟩ { EmuState.zero with
  consoleType := .wii
  cpu := { CpuState.zero with msr := msrIr ||| msrDr } }).2

theorem ramBounds_wiiTables : (memVirtToPhys
    (memMapFixups consoleKernel 0xFFFFFFFF#32 (msrIr ||| msrDr) wiiTables) 0x90001234#32
      true).addr.toNat < 0x20000000 := by
  have hok : (memMapFixups consoleKernel 0xFFFFFFFF#32 (msrIr ||| msrDr)
    wiiTables).fatalError = false := by decide
  have hmapped : (memVirtToPhys (memMapFixups consoleKernel 0xFFFFFFFF#32 (msrIr ||| msrDr)
    wiiTables) 0x90001234#32 true).mapped = true := by decide
  exact (ramBounds_of_memMapFixups (by decide) rfl hok).2 _ _ hmapped

end DolTools
