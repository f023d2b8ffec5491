import DolTools.Emu.Boot
import DolTools.Mem.InstrSlots
import DolTools.Mem.Soundness

/-! Soundness of the host map over the runs of BAT writes and `rfi`. A window whose BAT is
changed stays mapped, so that only the rewrites that keep translating it are harmless. -/
namespace DolTools
open Runs

/-- The instruction writes a BAT register, or is an `rfi`. -/
def ChangesMap (e : Trap) : Prop :=
  decodeIllegal e.val = .rfi ∨
    ∃ spr regSrc, decodeIllegal e.val = .mtspr spr regSrc ∧ (batSpr spr).isSome = true

/-- A byte of the RAM is mapped at its place in the window of the BAT. -/
def StillMapped (s : EmuState) (e : BatRef) (ram : Ram) : Prop :=
  ∃ v x, s.host.space v = some x ∧ x.ram = ram ∧ x.offset < (s.mem.size ram).toNat ∧
    v = (s.batOf e).bepi.toNat + x.offset

/-- What the pass behind an instruction needs of the tables behind it, and of the tables, the
slots and the map before it. Each BAT that may be mapped anew holds its window. With translation
on before, each window that was held and is still mapped is held by some BAT at the same place;
and on the return from real mode so is each byte that lies in no slot, for the pass does not
unmap it. -/
structure StaysSound (s t : EmuState) (vaddr : Word) : Prop where
  renews : RenewsHeld t (passSlots s.cpu.msr t) vaddr
  keeps : isTranslating s.cpu.msr = true → ∀ e ram, HoldsWindow s e ram → StillMapped s e ram →
    ∃ e', HoldsWindow t e' ram ∧ (t.batOf e').bepi = (s.batOf e).bepi
  left : isTranslating s.cpu.msr = false → ∀ (v : Word) (x : Backing),
    s.host.space v.toNat = some x → (∀ ram e, s.HasBat e.1 → ¬ s.InSlot ram e v.toNat) →
      Held t v x

def KeepsSound (s : EmuState) (e : Trap) : Prop :=
  isTranslating (emulated s e).cpu.msr = true → StaysSound s (emulated s e) e.vaddr

def HeldState (s : EmuState) : Prop :=
  s.fatalError = false → isTranslating s.cpu.msr = true → AllHeld s

lemma emulated_flag_of_changesMap {s : EmuState} {e : Trap} (h : ChangesMap e) :
    (emulated s e).needsMemMapUpdate = true := by
  rw [emulated]
  rcases h with h | ⟨spr,regSrc,h,hbat⟩
  · rw [h]
    exact validateMsr_flag _
  · obtain ⟨r,hr⟩ := Option.isSome_iff_exists.mp hbat
    obtain ⟨reg,high⟩ := r
    rw [h]
    change (mtspr spr (e.ctx.gpr regSrc) s).needsMemMapUpdate = true
    rw [mtspr, hr]
    exact (mtsprBat_spec reg high _ s).2

section

variable {k : Kernel} {bail : BailOut} {env : BootEnv} {s t : EmuState} {e : Trap}

lemma fixupsEntry_regions {msr oldMsr : Word} (h : Regions { CpuState.zero with msr := msr } s) :
    Regions { CpuState.zero with msr := msr } (fixupsEntry oldMsr s) := by
  cases h with
  | gamecube hconsole hbats hcpu hsize1 hsize2 =>
    exact .gamecube hconsole hbats hcpu hsize1 hsize2
  | wii hconsole hbats hcpu hsize1 hsize2 => exact .wii hconsole hbats hcpu hsize1 hsize2

/-- The pass of `E_MemInit` maps windows of the default tables alone. -/
theorem allHeld_memInit (hk : k.RefusesHigh) (hvirt : env.usePhys = false)
    (hmem : MemInitSucceeds k env)
    (hok : (memInit k env.vaddr env.mem (bootStart env)).2.fatalError = false) :
    AllHeld (memInit k env.vaddr env.mem (bootStart env)).2 := by
  obtain ⟨msr,hregions⟩ := memRegions_regions hmem
  rw [memInit_of_virtual hmem hvirt] at hok ⊢
  refine allHeld_memReloadMap hk (renewsHeld_of_regions (fixupsEntry_regions hregions) _) ?_ hok
  -- nothing is mapped before this pass
  intro v x hx
  have hnone := (memRegions_space env v.toNat).symm.trans hx
  contradiction

/-- In the default tables the windows are apart, so that the pass of `E_MemInit` replaces no
instruction mapping. -/
theorem dataApart_memInit (hmem : MemInitSucceeds k env) :
    DataApart (fixupsEntry (msrIr ||| msrDr) (memRegions env.mem (bootStart env)).2) := by
  obtain ⟨msr,hregions⟩ := memRegions_regions hmem
  exact dataApart_of_regions (fixupsEntry_regions hregions) (memRegions_space env)

/-- Where the tables are as `StaysSound` has them, the bytes are held when the pass starts. -/
lemma allHeld_reloadStart (h : HeldState s) (hs : s.fatalError = false)
    (hnew : isTranslating (emulated s e).cpu.msr = true) (hstays : KeepsSound s e) :
    AllHeld (reloadStart s.cpu.msr (emulated s e)) := by
  have hsame := reloadStart_sameTables s.cpu.msr (emulated s e)
  have hstep := emulate_cpuStep (decodeIllegal e.val) s e.ctx
  intro v x hx
  refine Held.congr hsame ?_
  cases hold : isTranslating s.cpu.msr with
  | true =>
    rw [reloadStart_of_translating hold] at hx
    change (emulated s e).host.space v.toNat = some x at hx
    rw [emulated, hstep.host] at hx
    obtain ⟨b,hholds,hoffset,hv⟩ := h hs hold v x hx
    obtain ⟨b',hholds',hbepi⟩ :=
      (hstays hnew).keeps hold b x.ram hholds ⟨v.toNat,x,hx,rfl,hoffset,hv⟩
    refine ⟨b',hholds',?_,?_⟩
    · rwa [emulated, hstep.mem]
    · rwa [hbepi]
  | false =>
    have heq : reloadStart s.cpu.msr (emulated s e) =
        unmapAll (fixupsEntry s.cpu.msr (emulated s e)) := by
      simp [reloadStart, hold, hnew]
    rw [heq] at hx
    obtain ⟨hmapped,hno⟩ := unmapBats_space (batIndices_nodup _) hx
    change (emulated s e).host.space v.toNat = some x at hmapped
    rw [emulated, hstep.host] at hmapped
    refine (hstays hnew).left hold v x hmapped (fun ram b hb hin => hno ram b ?_ ?_)
    · change b.1 ∈ batIndices (emulated s e).maxBAT
      rw [emulated, hstep.maxBAT]
      exact hb
    · change (emulated s e).InSlot ram b v.toNat
      rw [EmuState.InSlot, emulated, hstep.mem]
      exact hin

theorem heldState_step (hk : k.RefusesHigh) (h : HeldState s) (hchanges : ChangesMap e)
    (hkeeps : KeepsSound s e) (hstep : sigillStep k bail s e = some t) : HeldState t := by
  obtain ⟨hs,rfl⟩ := sigillStep_eq_some.mp hstep
  rw [handled_of_flag (emulated_flag_of_changesMap hchanges)]
  intro hok htranslating
  rw [memMapFixups_cpu] at htranslating
  rw [memMapFixups_of_translating htranslating] at hok ⊢
  have hsame := reloadStart_sameTables s.cpu.msr (emulated s e)
  have hrenews := (hkeeps htranslating).renews.congr hsame
    (fun _ _ he => reloadStart_slot htranslating he)
  exact allHeld_memReloadMap hk hrenews (allHeld_reloadStart h hs htranslating hkeeps) hok

end

/-- In every run of BAT writes and `rfi` behind a successful `E_MemInit` that gives up no window
still mapped, and has no window mapped that its BAT does not hold, the map is sound whenever
translation is on. -/
theorem mapSound_of_run {k : Kernel} {bail : BailOut} {env : BootEnv} {s : EmuState}
    {es : List Trap} (hk : k.RefusesHigh) (hvirt : env.usePhys = false)
    (hmem : MemInitSucceeds k env)
    (hrun : Run (sigillStep k bail) (fun s e => ChangesMap e ∧ KeepsSound s e)
      (memInit k env.vaddr env.mem (bootStart env)).2 es s)
    (hok : s.fatalError = false) (htranslating : isTranslating s.cpu.msr = true) :
    MapSound s := by
  have hstart : HeldState (memInit k env.vaddr env.mem (bootStart env)).2 :=
    fun h _ => allHeld_memInit hk hvirt hmem h
  have hinv : HeldState s := hrun.invariant hstart
    (fun _ _ _ hs hg hstep => heldState_step hk hs hg.1 hg.2 hstep)
  exact (hinv hok htranslating).mapSound

lemma changesMap_setDbat2u (val : Word) : ChangesMap (setDbat2u val) :=
  .inr ⟨540,3,(by decide : decodeIllegal 0x7C7C83A6#32 = .mtspr 540 3),rfl⟩

/-- A first write gives MEM1 a third window at 0x90000000. -/
theorem mapSound_third_window :
    ∃ s, Run (sigillStep consoleKernel noBail) (fun _ e => ChangesMap e) gcnMemInit
      [setDbat2u 0x90001FFF#32] s ∧ MapSound s ∧
        s.host.space 0x90000000 = some ⟨.mem1,0,false⟩ := by
  have hnext : sigillStep consoleKernel noBail gcnMemInit (setDbat2u 0x90001FFF#32) =
      some (handled consoleKernel gcnMemInit (setDbat2u 0x90001FFF#32)) :=
    sigillStep_eq_some.mpr ⟨by decide,rfl⟩
  have hkeeps : KeepsSound gcnMemInit (setDbat2u 0x90001FFF#32) := by
    intro _
    constructor
    · intro b ram hnames hlow
      left
      cases ram <;> revert b <;> decide
    · rintro _ b ram hholds -
      refine ⟨b,?_,?_⟩
      · revert hholds
        cases ram <;> revert b <;> decide
      · revert hholds
        cases ram <;> revert b <;> decide
    · intro hold
      exact absurd hold (by decide)
  have hrun : Run (sigillStep consoleKernel noBail)
      (fun s e => ChangesMap e ∧ KeepsSound s e) gcnMemInit
      ([] ++ [setDbat2u 0x90001FFF#32]) _ :=
    .snoc .nil ⟨changesMap_setDbat2u _,hkeeps⟩ hnext
  exact ⟨_,hrun.mono (fun _ _ h => h.1),mapSound_of_run consoleKernel_refusesHigh rfl
    memInitSucceeds_gcnBoot hrun (by decide) (by decide),by decide⟩

/-- The third window stays mapped when its BAT is cleared. -/
theorem cleared_window_stays :
    ¬ ∀ (bail : BailOut) (env : BootEnv) (s : EmuState) (es : List Trap),
      env.usePhys = false → MemInitSucceeds consoleKernel env →
      Run (sigillStep consoleKernel bail) (fun _ e => ChangesMap e)
        (memInit consoleKernel env.vaddr env.mem (bootStart env)).2 es s →
      s.fatalError = false → isTranslating s.cpu.msr = true → MapSound s := by
  intro h
  let s₁ := handled consoleKernel gcnMemInit (setDbat2u 0x90001FFF#32)
  let s₂ := handled consoleKernel s₁ (setDbat2u 0)
  have hfirst : sigillStep consoleKernel noBail gcnMemInit (setDbat2u 0x90001FFF#32) = some s₁ :=
    sigillStep_eq_some.mpr ⟨by decide,rfl⟩
  have hsecond : sigillStep consoleKernel noBail s₁ (setDbat2u 0) = some s₂ :=
    sigillStep_eq_some.mpr ⟨by decide,rfl⟩
  have hsound : MapSound s₂ := h noBail gcnBoot s₂ _ rfl memInitSucceeds_gcnBoot
    (.snoc (.snoc .nil (changesMap_setDbat2u _) hfirst) (changesMap_setDbat2u _) hsecond)
    (by decide) (by decide)
  have hshown : s₂.host.space (0x90000000#32).toNat = some ⟨.mem1,0,false⟩ := by decide
  obtain ⟨isData,hmapped,-⟩ := hsound _ _ hshown
  cases isData <;> (revert hmapped; decide)

end DolTools
