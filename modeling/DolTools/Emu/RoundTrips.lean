import DolTools.Emu.Boot
import DolTools.Library.Runs
import DolTools.Mem.RoundTrip

/-! Runs in which only `rfi` changes the mode and no BAT is written: whenever such a run is back
in real mode, the real-mode map is all that is mapped. -/
namespace DolTools
open Runs

/-- The instruction neither writes a BAT nor loads MSR but by `rfi`. -/
def RfiDriven : Emulated → Prop
  | .mtmsr _ => False
  | .mtspr spr _ => batSpr spr = none
  | _ => True

instance (op : Emulated) : Decidable (RfiDriven op) := by
  unfold RfiDriven
  cases op <;> infer_instance

section

variable {grants : Word → Bool} {s t : EmuState}

lemma BatMapped.congr (hmap : SameMap s t) (hmem : t.mem = s.mem) (h : BatMapped grants s) :
    BatMapped grants t := by
  have hbat : ∀ {i}, t.HasBat i ↔ s.HasBat i := by
    intro i
    rw [EmuState.HasBat, hmap.maxBAT, EmuState.HasBat]
  constructor
  · intro ram e he hne
    rw [hmem] at hne ⊢
    rw [hmap.batOf]
    exact h.slot ram e (hbat.mp he) hne
  · intro a x hx
    rw [hmap.host] at hx
    obtain ⟨ram,e,he,hin⟩ := h.remembered a x hx
    refine ⟨ram,e,hbat.mpr he,?_⟩
    rwa [EmuState.InSlot, hmem]

lemma RealOnly.congr (hmap : SameMap s t) (hmem : t.mem = s.mem) (h : RealOnly s) :
    RealOnly t := by
  constructor
  · rw [hmap.host, h.space]
    simp only [realMap, hmem, hmap.consoleType]
  · rw [hmem, hmap.consoleType]
    exact h.slot

lemma MapFor.congr {b : Bool} (hmap : SameMap s t) (hmem : t.mem = s.mem)
    (h : MapFor grants b s) : MapFor grants b t := by
  cases b with
  | false => exact RealOnly.congr hmap hmem h
  | true => exact BatMapped.congr hmap hmem h

end

/-- What holds between the instructions of such a run. -/
structure RoundTrip (grants : Word → Bool) (s : EmuState) : Prop where
  bats : s.HasBat 0
  flag : s.needsMemMapUpdate = false
  map : MapFor grants (isTranslating s.cpu.msr) s

section

variable {k : Kernel} {bail : BailOut} {grants : Word → Bool} {s t : EmuState} {e : Trap}

/-- Such an instruction is `rfi`, or one that the map does not depend on. -/
lemma emulated_rfiDriven (h : RfiDriven (decodeIllegal e.val)) :
    emulated s e = (rfi s).2 ∨ QuietStep s (emulated s e) := by
  rw [emulated]
  generalize decodeIllegal e.val = op at h ⊢
  cases op with
  | mtmsr regSrc => exact h.elim
  | rfi => exact .inl rfl
  | mtspr spr regSrc =>
    have hother : mtspr spr (e.ctx.gpr regSrc) s = mtsprOther spr (e.ctx.gpr regSrc) s := by
      rw [mtspr, show batSpr spr = none from h]
    right
    change QuietStep s (mtspr spr (e.ctx.gpr regSrc) s)
    rw [hother]
    exact mtsprOther_quiet spr _ s
  | mfspr regDest spr => exact .inr (mfspr_quiet spr s)
  | mtsr segmentReg regSrc => exact .inr ⟨⟨rfl,rfl,rfl,rfl⟩,rfl,⟨⟨rfl,rfl,rfl,rfl⟩,rfl,rfl⟩⟩
  | unhandled => exact .inr (QuietStep.refl s).raise
  | _ => exact .inr (.refl s)

lemma rfi_cpuStep (s : EmuState) : CpuStep s (rfi s).2 :=
  have hstep : CpuStep s { s with
      cpu := { s.cpu with msr := rfiMsr s.cpu }
      needsMemMapUpdate := true } := ⟨rfl,rfl,rfl,rfl⟩
  validateMsr_cpuStep hstep

lemma rfi_sameMap (s : EmuState) : SameMap s (rfi s).2 := by
  have hcpu : (rfi s).2.cpu = { s.cpu with msr := rfiMsr s.cpu } := validateMsr_cpu _
  have hstep := rfi_cpuStep s
  refine ⟨?_,hstep.maxBAT,hstep.consoleType,congrArg MemState.size hstep.mem,hstep.host⟩
  rw [hcpu]
  exact ⟨rfl,rfl,rfl,rfl⟩

lemma QuietStep.sameMap (h : QuietStep s t) : SameMap s t :=
  ⟨h.same.bats,h.step.maxBAT,h.step.consoleType,congrArg MemState.size h.step.mem,h.step.host⟩

lemma RoundTrip.quiet (h : RoundTrip grants s) (hq : QuietStep s t) : RoundTrip grants t where
  bats := by
    rw [EmuState.HasBat, hq.step.maxBAT]
    exact h.bats
  flag := by rw [hq.flag, h.flag]
  map := by
    have hmode : isTranslating t.cpu.msr = isTranslating s.cpu.msr := by
      rw [isTranslating, hq.same.ir, hq.same.dr, isTranslating]
    rw [hmode]
    exact h.map.congr hq.sameMap hq.step.mem

/-- An instruction without an error keeps the invariant, whichever of the four mode switches
it makes. -/
theorem roundTrip_step (hk : k.ByAddress grants) (h : RoundTrip grants s)
    (hdriven : RfiDriven (decodeIllegal e.val)) (hok : (handled k s e).fatalError = false) :
    RoundTrip grants (handled k s e) := by
  rcases emulated_rfiDriven (s := s) hdriven with hrfi | hquiet
  · have hflag : (emulated s e).needsMemMapUpdate = true := by
      rw [hrfi]
      exact validateMsr_flag _
    have hsame : SameMap s (emulated s e) := hrfi ▸ rfi_sameMap s
    have hmem : (emulated s e).mem = s.mem := hrfi ▸ (rfi_cpuStep s).mem
    have hbat : (emulated s e).HasBat 0 := by
      rw [EmuState.HasBat, hsame.maxBAT]
      exact h.bats
    rw [handled_of_flag hflag] at hok ⊢
    refine ⟨?_,memMapFixups_flag,?_⟩
    · rw [EmuState.HasBat, memMapFixups_mapStep.maxBAT]
      exact hbat
    · rw [memMapFixups_cpu]
      exact mapFor_memMapFixups hk hbat (h.map.congr hsame hmem) hok
  · rw [handled_of_not_flag (hquiet.flag.trans h.flag)]
    exact h.quiet hquiet

/-- The switch to real mode leaves the two slots of the first BATs on the physical mappings. -/
theorem roundTrip_start {vaddr oldMsr : Word} (hbats : 0 < s.maxBAT.val)
    (hold : isTranslating oldMsr = true) (hreal : isTranslating s.cpu.msr = false)
    (hok : (memMapFixups k vaddr oldMsr s).fatalError = false)
    (hspace : (memMapFixups k vaddr oldMsr s).host.space =
      realMap (memMapFixups k vaddr oldMsr s)) :
    RoundTrip grants (memMapFixups k vaddr oldMsr s) := by
  have hmap : RealOnly (memMapFixups k vaddr oldMsr s) := by
    refine ⟨hspace,?_⟩
    have hconsole : (memMapFixups k vaddr oldMsr s).consoleType = s.consoleType :=
      memMapFixups_mapStep.consoleType
    rw [hconsole]
    have heq : memMapFixups k vaddr oldMsr s = mapReal k (unmapAll (fixupsEntry oldMsr s)) :=
      memMapFixups_of_leaving hold hreal (memMapFixups_agree hok)
    rw [heq] at hok ⊢
    have hunmap : (unmapAll (fixupsEntry oldMsr s)).consoleType = s.consoleType :=
      (unmapAll_mapStep _).consoleType
    rw [← hunmap]
    exact mapReal_slot hok
  refine ⟨?_,memMapFixups_flag,?_⟩
  · rw [EmuState.HasBat, memMapFixups_mapStep.maxBAT]
    exact mem_batIndices.mpr hbats
  · rw [memMapFixups_cpu, hreal]
    exact hmap

end

/-- From a switch to real mode that leaves the real-mode map alone, every run of such
instructions without an error has the real-mode map alone whenever it is in real mode. -/
theorem realMap_of_run {k : Kernel} {bail : BailOut} {grants : Word → Bool} {s t u : EmuState}
    {es : List Trap} {vaddr oldMsr : Word} (hk : k.ByAddress grants) (hbats : 0 < s.maxBAT.val)
    (hold : isTranslating oldMsr = true) (hreal : isTranslating s.cpu.msr = false)
    (ht : t = memMapFixups k vaddr oldMsr s) (hok : t.fatalError = false)
    (hspace : t.host.space = realMap t)
    (hrun : Run (sigillStep k bail) (fun _ e => RfiDriven (decodeIllegal e.val)) t es u)
    (hu : u.fatalError = false) (hmode : isTranslating u.cpu.msr = false) :
    u.host.space = realMap u := by
  subst ht
  have hinv : u.fatalError = false → RoundTrip grants u := by
    apply hrun.invariant
    · intro _
      exact roundTrip_start hbats hold hreal hok hspace
    · intro s e t hround hdriven hnext hok
      obtain ⟨hs,rfl⟩ := sigillStep_eq_some.mp hnext
      exact roundTrip_step hk (hround hs) hdriven hok
  have hmap : MapFor grants (isTranslating u.cpu.msr) u := (hinv hu).map
  rw [hmode] at hmap
  exact RealOnly.space hmap

/-- A GameCube behind `E_MemInit`, about to start in real mode. -/
def gcnReal : EmuState :=
  (memInit consoleKernel 0xFFFFFFFF#32 gcnBoot.mem (bootStart { gcnBoot with usePhys := true })).2

lemma unmapAll_gcnReal (oldMsr : Word) :
    (unmapAll (fixupsEntry oldMsr gcnReal)).host.space = AddressMap.empty := by
  have hempty : (fixupsEntry oldMsr gcnReal).host.space = AddressMap.empty := rfl
  apply unmapAll_space
  intro a x hx
  rw [hempty] at hx
  contradiction

/-- `mtspr SRR1, r0` -/
def setSrr1 (val : Word) : Trap := trapWith 0x7C1B03A6#32 val

/-- One round trip through the translated mode. -/
theorem realMap_of_run_rfi : ∃ u, Run (sigillStep consoleKernel noBail)
    (fun _ e => RfiDriven (decodeIllegal e.val))
    (memMapFixups consoleKernel 0xFFFFFFFF#32 (msrIr ||| msrDr) gcnReal)
    [setSrr1 (msrIr ||| msrDr), trapWith rfiWord 0, setSrr1 0, trapWith rfiWord 0] u ∧
    u.host.space = realMap u := by
  let t := memMapFixups consoleKernel 0xFFFFFFFF#32 (msrIr ||| msrDr) gcnReal
  let s₁ := handled consoleKernel t (setSrr1 (msrIr ||| msrDr))
  let s₂ := handled consoleKernel s₁ (trapWith rfiWord 0)
  let s₃ := handled consoleKernel s₂ (setSrr1 0)
  let u := handled consoleKernel s₃ (trapWith rfiWord 0)
  have hok : t.fatalError = false := by decide
  have hspace : t.host.space = realMap t := by
    have heq : t = mapReal consoleKernel (unmapAll (fixupsEntry (msrIr ||| msrDr) gcnReal)) :=
      memMapFixups_of_leaving (by decide) (by decide) (by decide)
    rw [heq] at hok ⊢
    exact (mapReal_realOnly (unmapAll_gcnReal _) hok).space
  have hrun : Run (sigillStep consoleKernel noBail)
      (fun _ e => RfiDriven (decodeIllegal e.val)) t
      [setSrr1 (msrIr ||| msrDr), trapWith rfiWord 0, setSrr1 0, trapWith rfiWord 0] u := by
    have h₁ : sigillStep consoleKernel noBail t (setSrr1 (msrIr ||| msrDr)) = some s₁ :=
      sigillStep_eq_some.mpr ⟨by decide,rfl⟩
    have h₂ : sigillStep consoleKernel noBail s₁ (trapWith rfiWord 0) = some s₂ :=
      sigillStep_eq_some.mpr ⟨by decide,rfl⟩
    have h₃ : sigillStep consoleKernel noBail s₂ (setSrr1 0) = some s₃ :=
      sigillStep_eq_some.mpr ⟨by decide,rfl⟩
    have h₄ : sigillStep consoleKernel noBail s₃ (trapWith rfiWord 0) = some u :=
      sigillStep_eq_some.mpr ⟨by decide,rfl⟩
    exact .snoc (.snoc (.snoc (.snoc .nil (by decide) h₁) (by decide) h₂) (by decide) h₃)
      (by decide) h₄
  have hgrants : consoleKernel.ByAddress (fun addr => decide (addr < maxAllowedVaddr)) :=
    fun _ _ _ _ _ => rfl
  exact ⟨u,hrun,realMap_of_run hgrants (by decide) (by decide) (by decide) rfl hok hspace hrun
    (by decide) (by decide)⟩

end DolTools
