import DolTools.Emu.Boot
import DolTools.Mem.Coverage
import DolTools.Mem.Init

/-! Coverage of the BATs over the runs of the guest from boot. What the last call of
`E_MemMapFixups` has covered stays covered until the next one. -/
namespace DolTools
open Runs

/-- If the last call of `E_MemMapFixups` found translation on, and no error is reported, every
BAT is covered. -/
def CoverState (s : EmuState) : Prop :=
  s.fatalError = false → ∀ oldMsr msr, (fixupsCalls s.host.calls).head? = some (oldMsr,msr) →
    isTranslating msr = true → AllCovered s

/-- The last call of `E_MemMapFixups` found translation on and the window of the BAT owned, by one
that asked for the execute permission if this one does. -/
def WasOwned (s t : EmuState) (e : BatRef) (ram : Ram) : Prop :=
  (∃ oldMsr msr, (fixupsCalls s.host.calls).head? = some (oldMsr,msr) ∧ isTranslating msr = true) ∧
    ∃ b : BatRef, (e.2 = false → b.2 = false) ∧ Owns s b ram ∧
      (s.batOf b).bepi = (t.batOf e).bepi

/-- The tables behind the instruction, and the slots before it, let its pass lose no window. A
window is there from the pass before, if that one had to cover it and translation has been on
since. -/
def KeepsCover (s : EmuState) (e : Trap) : Prop :=
  (emulated s e).needsMemMapUpdate = true → isTranslating (emulated s e).cpu.msr = true →
    ∀ b ram, Owns (emulated s e) b ram →
      Unlost (emulated s e) (passSlots s.cpu.msr (emulated s e)) e.vaddr ram b
        (isTranslating s.cpu.msr = true ∧ WasOwned s (emulated s e) b ram)

section

variable {k : Kernel} {bail : BailOut} {env : BootEnv} {s t : EmuState} {e : Trap}
  {vaddr oldMsr : Word}

lemma SameMap.sameTables (h : SameMap s t) : SameTables s t :=
  ⟨h.batOf,h.ramOf,h.maxBAT,h.size⟩

lemma SameMap.allCovered (h : SameMap s t) (hs : AllCovered s) : AllCovered t := by
  intro e ram hown
  exact (hs e ram (h.sameTables.owns.mp hown)).congr (h.batOf e) h.size
    (congrArg Host.space h.host)

lemma CoverState.sameMap (h : CoverState s) (hs : SameMap s t)
    (hfatal : t.fatalError = false → s.fatalError = false) : CoverState t := by
  intro hok oldMsr msr hlast htranslating
  rw [hs.host] at hlast
  exact hs.allCovered (h (hfatal hok) oldMsr msr hlast htranslating)

/-- A call of `E_MemMapFixups` whose pass loses no window covers every BAT. -/
theorem coverState_memMapFixups (hpass : isTranslating s.cpu.msr = true → ∀ b ram, Owns s b ram →
      Unlost s (passSlots oldMsr s) vaddr ram b (Covered (reloadStart oldMsr s) b ram)) :
    CoverState (memMapFixups k vaddr oldMsr s) := by
  intro hok oldMsr' msr hlast htranslating
  rw [memMapFixups_fixups, List.head?_cons] at hlast
  obtain ⟨rfl,rfl⟩ := Prod.mk.inj (Option.some.inj hlast)
  rw [memMapFixups_of_translating htranslating] at hok ⊢
  have hsame := reloadStart_sameTables oldMsr s
  refine allCovered_memReloadMap (fun _ b ram hown => ?_) hok
  exact hsame.unlost (fun ram e he => reloadStart_slot htranslating he) id
    (hpass htranslating b ram (hsame.owns.mp hown))

lemma emulated_host (s : EmuState) (e : Trap) : (emulated s e).host = s.host :=
  (emulate_cpuStep (decodeIllegal e.val) s e.ctx).host

/-- What was owned at the last call is covered when the next pass starts. -/
lemma covered_of_wasOwned {b : BatRef} {ram : Ram} (h : CoverState s) (hs : s.fatalError = false)
    (hold : isTranslating s.cpu.msr = true) (hwas : WasOwned s (emulated s e) b ram) :
    Covered (reloadStart s.cpu.msr (emulated s e)) b ram := by
  obtain ⟨⟨oldMsr,msr,hlast,htranslating⟩,b',hexec,hown,hbepi⟩ := hwas
  have hcov := h hs oldMsr msr hlast htranslating b' ram hown
  have hsize : (emulated s e).mem.size = s.mem.size :=
    congrArg MemState.size (emulate_cpuStep (decodeIllegal e.val) s e.ctx).mem
  intro o ho
  rw [(reloadStart_sameTables _ _).size, hsize] at ho
  obtain ⟨x,hx,hram,hoffset,hx'⟩ := hcov o ho
  refine ⟨x,?_,hram,hoffset,fun hinstr => hx' (hexec hinstr)⟩
  rw [(reloadStart_sameTables _ _).batOf, ← hbepi, reloadStart_of_translating hold, ← hx]
  change (emulated s e).host.space _ = _
  rw [emulated_host]

theorem coverState_step (h : CoverState s) (hkeeps : KeepsCover s e)
    (hstep : sigillStep k bail s e = some t) : CoverState t := by
  obtain ⟨hs,rfl⟩ := sigillStep_eq_some.mp hstep
  cases hflag : (emulated s e).needsMemMapUpdate with
  | true =>
    rw [handled_of_flag hflag]
    refine coverState_memMapFixups (fun htranslating b ram hown => ?_)
    exact (SameTables.refl _).unlost (fun _ _ _ => rfl)
      (fun hwas => covered_of_wasOwned h hs hwas.1 hwas.2) (hkeeps hflag htranslating b ram hown)
  | false =>
    rw [handled_of_not_flag hflag]
    exact h.sameMap (emulated_sameMap hflag) (fun _ => hs)

lemma fixupsCalls_bootStart (env : BootEnv) : fixupsCalls (bootStart env).host.calls = [] := by
  unfold bootStart timerInit
  cases env.timer <;> rfl

/-- The pass of `E_MemInit` finds none of the default BATs recorded. -/
lemma coverState_memInit (hvaddr : env.usePhys = false → env.vaddr ≠ 0) :
    CoverState (memInit k env.vaddr env.mem (bootStart env)).2 := by
  have hkept := memRegions_step env.mem (bootStart env)
  by_cases hmem : MemInitSucceeds k env
  · obtain ⟨msr,hregions⟩ := memRegions_regions hmem
    rw [memInit_of_succeeds hmem]
    refine coverState_memMapFixups (fun htranslating b ram hown => .inl ?_)
    have hvirt : isTranslating (bootStart env).cpu.msr = true := by rwa [← hkept.msr]
    have husePhys : env.usePhys = false := by
      by_contra hphys
      rw [bootStart_cpu, if_pos ((Bool.not_eq_false _).mp hphys)] at hvirt
      exact absurd hvirt (by decide)
    rw [passSlots, if_pos hvirt]
    exact unrecorded_of_regions hregions (memRegions_slot env) (hvaddr husePhys) hown.namesRam
  · intro _ oldMsr msr hlast
    rw [memInit_of_fails hmem, hkept.host, fixupsCalls_bootStart] at hlast
    contradiction

theorem coverState_boot (hboot : boot k env = some s)
    (hvaddr : env.usePhys = false → env.vaddr ≠ 0) : CoverState s := by
  obtain ⟨u,hu,-,-,hs⟩ := boot_eq_some hboot
  refine CoverState.sameMap ?_ hs.map hs.ok
  cases hphys : env.usePhys with
  | false =>
    have heq : bootRemap k env u = u := by simp [bootRemap, hphys]
    rw [heq]
    exact (coverState_memInit hvaddr).sameMap hu.map hu.ok
  | true =>
    rw [bootRemap, if_pos hphys]
    refine coverState_memMapFixups (fun htranslating => ?_)
    -- this call goes to real mode
    change isTranslating 0 = true at htranslating
    exact absurd htranslating (by decide)

end

/-- In every run from boot in which no pass finds the window of a BAT recorded without its being
there, whenever the last call of `E_MemMapFixups` found translation on and no error is reported,
every BAT is covered. -/
theorem allCovered_of_run {k : Kernel} {bail : BailOut} {env : BootEnv} {s₀ s : EmuState}
    {es : List Trap} {oldMsr msr : Word} (hboot : boot k env = some s₀)
    (hvaddr : env.usePhys = false → env.vaddr ≠ 0)
    (hrun : Run (sigillStep k bail) KeepsCover s₀ es s)
    (hok : s.fatalError = false)
    (hlast : (fixupsCalls s.host.calls).head? = some (oldMsr,msr))
    (htranslating : isTranslating msr = true) : AllCovered s := by
  have hinv : CoverState s := hrun.invariant (coverState_boot hboot hvaddr)
    (fun _ _ _ hs hg hstep => coverState_step hs hg hstep)
  exact hinv hok oldMsr msr hlast htranslating

/-- The step that gives MEM1 a third window keeps the two default ones covered. -/
lemma keepsCover_third : KeepsCover (started consoleKernel gcnBoot) (setDbat2u 0x90001FFF#32) := by
  let s := started consoleKernel gcnBoot
  let t := emulated s (setDbat2u 0x90001FFF#32)
  have hold : isTranslating s.cpu.msr = true := by decide
  have hlast : ∃ oldMsr msr, (fixupsCalls s.host.calls).head? = some (oldMsr,msr) ∧
      isTranslating msr = true := ⟨msrIr ||| msrDr,msrIr ||| msrDr,by decide,by decide⟩
  have hown : Owns s (0,false) .mem1 := by
    refine ⟨by decide,by decide,by decide,by decide,?_⟩
    intro e' hbat hz ram' hnames
    cases ram' <;> (revert e'; decide)
  have hkeeps : Keeps t t.mem.slot .mem1 (0,false) 0x80000000#32 :=
    ⟨by decide,by decide,by decide⟩
  intro _ _ b ram hb
  have hcases : b = (2,true) ∧ ram = .mem1 ∨
      ram = .mem1 ∧ (t.batOf b).bepi = 0x80000000#32 := by
    obtain ⟨hbat,hactive,hnames,hlow,-⟩ := hb
    cases ram <;> (revert b; decide)
  rw [passSlots, if_pos hold]
  rcases hcases with ⟨rfl,rfl⟩ | ⟨rfl,hbepi⟩
  · left
    change ∀ e : BatRef, t.HasBat e.1 → t.mem.slot .mem1 e ≠ (t.batOf (2,true)).bepi
    decide
  · refine .inr ⟨⟨hold,hlast,(0,false),fun _ => rfl,hown,?_⟩,fun _ => ⟨(0,false),?_⟩⟩
    · change _ = (t.batOf b).bepi
      rw [hbepi]
      decide
    · change Keeps t t.mem.slot .mem1 (0,false) (t.batOf b).bepi
      rw [hbepi]
      exact hkeeps

/-- A GameCube boots with its BATs covered, and has a third window covered behind the write that
sets it up. -/
theorem allCovered_third_window : ∃ s₀ s, boot consoleKernel gcnBoot = some s₀ ∧
    Run (sigillStep consoleKernel noBail) KeepsCover s₀ [setDbat2u 0x90001FFF#32] s ∧
      AllCovered s ∧ Owns s (2,true) .mem1 := by
  have hboot : boot consoleKernel gcnBoot = some (started consoleKernel gcnBoot) :=
    boot_eq_started (by decide)
  have hnext : sigillStep consoleKernel noBail (started consoleKernel gcnBoot)
      (setDbat2u 0x90001FFF#32) =
        some (handled consoleKernel (started consoleKernel gcnBoot) (setDbat2u 0x90001FFF#32)) :=
    sigillStep_eq_some.mpr ⟨by decide,rfl⟩
  have hrun : Run (sigillStep consoleKernel noBail) KeepsCover (started consoleKernel gcnBoot)
      ([] ++ [setDbat2u 0x90001FFF#32]) _ := .snoc .nil keepsCover_third hnext
  have hlast : (fixupsCalls (handled consoleKernel (started consoleKernel gcnBoot)
      (setDbat2u 0x90001FFF#32)).host.calls).head? = some (msrIr ||| msrDr,msrIr ||| msrDr) := by
    decide
  refine ⟨_,_,hboot,hrun,allCovered_of_run hboot (by decide) hrun (by decide) hlast
    (by decide),?_⟩
  refine ⟨by decide,by decide,by decide,by decide,?_⟩
  intro e' hbat hz ram' hnames
  cases ram' <;> (revert e'; decide)

/-- With zero in the uninitialised local, the first instruction BAT is taken to be mapped. -/
theorem first_ibat_lost :
    ¬ ∀ (bail : BailOut) (env : BootEnv) (s₀ s : EmuState) (es : List Trap) (oldMsr msr : Word),
      boot consoleKernel env = some s₀ →
      Run (sigillStep consoleKernel bail) (fun _ _ => True) s₀ es s → s.fatalError = false →
      (fixupsCalls s.host.calls).head? = some (oldMsr,msr) → isTranslating msr = true →
      AllCovered s := by
  intro h
  let s₀ := started consoleKernel { gcnBoot with vaddr := 0 }
  have hcov : AllCovered s₀ := h noBail _ s₀ s₀ [] (msrIr ||| msrDr) (msrIr ||| msrDr)
    (boot_eq_started (by decide)) .nil (by decide) (by decide) (by decide)
  have hown : Owns s₀ (0,false) .mem1 := by
    refine ⟨by decide,by decide,by decide,by decide,?_⟩
    intro e' hbat hz ram' hnames
    cases ram' <;> (revert e'; decide)
  obtain ⟨x,hx,-,-,hexec⟩ := hcov (0,false) .mem1 hown 0 (by decide)
  have hshown : s₀.host.space ((s₀.batOf (0,false)).bepi.toNat + 0) =
      some ⟨.mem1,0,false⟩ := by decide
  obtain rfl := Option.some.inj (hx.symm.trans hshown)
  exact absurd (hexec rfl) (by decide)

end DolTools
