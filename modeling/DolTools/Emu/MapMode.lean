import DolTools.Emu.Boot
import DolTools.Mem.Init
import DolTools.Library.Runs

/-! The host map against the MSR over the runs of the guest. Every instruction that changes
what the map depends on has the map fixed up in the same call of the handler, except for an
`mtmsr` that switches the translation. -/
namespace DolTools
open Runs

/-- The instruction is no `mtmsr` that flips MSR[IR] and MSR[DR] together. -/
def KeepsMode (s : EmuState) (e : Trap) : Prop :=
  ∀ regSrc, decodeIllegal e.val = .mtmsr regSrc →
    ¬ (irEnabled (e.ctx.gpr regSrc) ≠ irEnabled s.cpu.msr ∧
      drEnabled (e.ctx.gpr regSrc) ≠ drEnabled s.cpu.msr)

/-- The map installed last is the one that the MSR asks for; in real mode the RAMs are at
their physical addresses. -/
structure ModeMatches (s : EmuState) : Prop where
  real : isTranslating s.cpu.msr = false →
    lastMapChange s.host.calls = some .real ∧ RealMapped s
  bat : isTranslating s.cpu.msr = true → lastMapChange s.host.calls = some .bat

/-- What a return of the handler owes to the map. -/
structure FollowsMsr (k : Kernel) (s : EmuState) (e : Trap) (t : EmuState) : Prop where
  flag : t.needsMemMapUpdate = false
  fixedUp : ¬ SameTranslation s.cpu t.cpu →
    t = memMapFixups k e.vaddr s.cpu.msr (emulated s e) ∧ (emulated s e).cpu = t.cpu
  once : ¬ SameTranslation s.cpu t.cpu →
    fixupsCalls t.host.calls = (s.cpu.msr,t.cpu.msr)::fixupsCalls s.host.calls

/-- The invariant of the runs; `ok` is the success of `E_MemInit`. -/
structure ModeInv (ok : Prop) (s : EmuState) : Prop where
  flag : s.needsMemMapUpdate = false
  agree : s.fatalError = false → irEnabled s.cpu.msr = drEnabled s.cpu.msr
  rams : ok → RamsApart s
  mode : s.fatalError = false → ok → ModeMatches s

lemma SameTranslation.isTranslating {c d : CpuState} (h : SameTranslation c d) :
    isTranslating d.msr = isTranslating c.msr := by
  rw [DolTools.isTranslating, h.ir, h.dr, DolTools.isTranslating]

lemma RealMapped.congr {s t : EmuState} (h : RealMapped s) (hs : SameMap s t) :
    RealMapped t := by
  intro ram hram
  rw [hs.host, hs.size]
  exact h ram (hs.consoleType ▸ hram)

lemma ModeMatches.congr {s t : EmuState} (h : ModeMatches s) (hs : SameMap s t)
    (hm : isTranslating t.cpu.msr = isTranslating s.cpu.msr) : ModeMatches t where
  real ht := by
    obtain ⟨hl,hr⟩ := h.real (hm ▸ ht)
    exact ⟨by rw [hs.host, hl],hr.congr hs⟩
  bat ht := by
    rw [hs.host]
    exact h.bat (hm ▸ ht)

section

variable {k : Kernel} {vaddr oldMsr : Word} {s : EmuState}

lemma lastMapChange_memMapFixups :
    lastMapChange (memMapFixups k vaddr oldMsr s).host.calls =
      (mapChange oldMsr s.cpu.msr).or (lastMapChange s.host.calls) := by
  rw [lastMapChange, memMapFixups_fixups, List.findSome?_cons, lastMapChange]
  cases mapChange oldMsr s.cpu.msr <;> rfl

/-- A call of `E_MemMapFixups` without an error leaves the map that the MSR asks for, if the
map was right before a call that has nothing to change. -/
theorem modeMatches_memMapFixups (hrams : RamsApart s)
    (hold : isTranslating oldMsr = false → isTranslating s.cpu.msr = false →
      lastMapChange s.host.calls = some .real ∧ RealMapped s)
    (hok : (memMapFixups k vaddr oldMsr s).fatalError = false) :
    ModeMatches (memMapFixups k vaddr oldMsr s) := by
  have hagree := memMapFixups_agree hok
  constructor
  · intro hreal
    rw [memMapFixups_cpu] at hreal
    rw [lastMapChange_memMapFixups]
    cases hwas : isTranslating oldMsr with
    | true =>
      refine ⟨by simp [mapChange, hagree, hreal, hwas],?_⟩
      rw [memMapFixups_of_leaving hwas hreal hagree] at hok ⊢
      refine realMapped_mapReal ?_ hok
      rw [RamsApart, (unmapAll_mapStep _).size]
      exact hrams
    | false =>
      obtain ⟨hl,hr⟩ := hold hwas hreal
      refine ⟨by simp [mapChange, hagree, hreal, hwas, hl],?_⟩
      rw [memMapFixups_of_real hwas hreal hagree]
      exact hr
  · intro hbat
    rw [memMapFixups_cpu] at hbat
    rw [lastMapChange_memMapFixups]
    simp [mapChange, hagree, hbat]

end

section

variable {k : Kernel} {bail : BailOut} {ok : Prop} {s t : EmuState} {e : Trap}

/-- Where the flag stays down and no error is reported, a mode-keeping instruction changes
nothing the map depends on. -/
lemma emulated_sameTranslation (hagree : irEnabled s.cpu.msr = drEnabled s.cpu.msr)
    (hkeeps : KeepsMode s e) (hok : (emulated s e).fatalError = false)
    (hflag : (emulated s e).needsMemMapUpdate = false) :
    SameTranslation s.cpu (emulated s e).cpu := by
  rcases emulate_cases (decodeIllegal e.val) s e.ctx with h | h | ⟨regSrc,h⟩
  · rw [emulated] at hflag
    rw [hflag] at h
    contradiction
  · exact h.same
  · have heq : emulated s e = mtmsr (e.ctx.gpr regSrc) s := by rw [emulated, h, emulate]
    rw [heq] at hok ⊢
    have hnew := validateMsr_ok hok
    change irEnabled (e.ctx.gpr regSrc) = drEnabled (e.ctx.gpr regSrc) at hnew
    rw [(mtmsr_spec _ s).2]
    -- the two bits agree before and after, so that both would have flipped
    have hir : irEnabled (e.ctx.gpr regSrc) = irEnabled s.cpu.msr := by
      by_contra hne
      exact hkeeps regSrc h ⟨hne,by rwa [← hnew, ← hagree]⟩
    exact ⟨⟨rfl,rfl,rfl,rfl⟩,hir,by rw [← hnew, hir, hagree]⟩

lemma emulated_ramsApart (h : RamsApart s) : RamsApart (emulated s e) := by
  rw [RamsApart, emulated, (emulate_cpuStep (decodeIllegal e.val) s e.ctx).mem]
  exact h

/-- Behind a call of `E_MemMapFixups` the invariant holds, if a call that changes nothing found
the right map. -/
theorem modeInv_memMapFixups {vaddr oldMsr : Word} (hrams : ok → RamsApart s)
    (hold : ok → isTranslating oldMsr = false → isTranslating s.cpu.msr = false →
      lastMapChange s.host.calls = some .real ∧ RealMapped s) :
    ModeInv ok (memMapFixups k vaddr oldMsr s) where
  flag := memMapFixups_flag
  agree hok := by
    rw [memMapFixups_cpu]
    exact memMapFixups_agree hok
  rams hmem := by
    rw [RamsApart, memMapFixups_mapStep.size]
    exact hrams hmem
  mode hok hmem := modeMatches_memMapFixups (hrams hmem) (hold hmem) hok

theorem modeInv_step (h : ModeInv ok s) (hkeeps : KeepsMode s e)
    (hstep : sigillStep k bail s e = some t) : ModeInv ok t := by
  obtain ⟨hs,rfl⟩ := sigillStep_eq_some.mp hstep
  have hcpu := emulate_cpuStep (decodeIllegal e.val) s e.ctx
  have hrams : ok → RamsApart (emulated s e) := fun hmem => emulated_ramsApart (h.rams hmem)
  cases hflag : (emulated s e).needsMemMapUpdate with
  | true =>
    rw [handled_of_flag hflag]
    apply modeInv_memMapFixups hrams
    intro hmem hwas _
    obtain ⟨hl,hr⟩ := (h.mode hs hmem).real hwas
    refine ⟨by rw [emulated, hcpu.host, hl],?_⟩
    intro ram hram
    rw [emulated, hcpu.host, hcpu.mem]
    exact hr ram (hcpu.consoleType ▸ hram)
  | false =>
    rw [handled_of_not_flag hflag]
    refine ⟨hflag,?_,hrams,?_⟩
    · intro hok
      have hsame := emulated_sameTranslation (h.agree hs) hkeeps hok hflag
      rw [hsame.ir, hsame.dr]
      exact h.agree hs
    · intro hok hmem
      have hsame := emulated_sameTranslation (h.agree hs) hkeeps hok hflag
      exact (h.mode hs hmem).congr (emulated_sameMap hflag) hsame.isTranslating

theorem followsMsr_step (h : ModeInv ok s) (hkeeps : KeepsMode s e)
    (hstep : sigillStep k bail s e = some t) (hok : t.fatalError = false) :
    FollowsMsr k s e t := by
  obtain ⟨hs,rfl⟩ := sigillStep_eq_some.mp hstep
  have hhost := (emulate_cpuStep (decodeIllegal e.val) s e.ctx).host
  cases hflag : (emulated s e).needsMemMapUpdate with
  | true =>
    rw [handled_of_flag hflag] at hok ⊢
    refine ⟨memMapFixups_flag,fun _ => ⟨rfl,memMapFixups_cpu.symm⟩,fun _ => ?_⟩
    rw [memMapFixups_fixups, memMapFixups_cpu, ← hhost]
    rfl
  | false =>
    rw [handled_of_not_flag hflag] at hok ⊢
    have hsame := emulated_sameTranslation (h.agree hs) hkeeps hok hflag
    exact ⟨hflag,fun hne => absurd hsame hne,fun hne => absurd hsame hne⟩

lemma ModeInv.initStep (h : ModeInv ok s) (hs : InitStep s t) (hok : s.fatalError = false) :
    ModeInv ok t where
  flag := hs.flag.trans h.flag
  agree _ := by
    rw [hs.msr]
    exact h.agree hok
  rams hmem := by
    rw [RamsApart, hs.map.size]
    exact h.rams hmem
  mode _ hmem := (h.mode hok hmem).congr hs.map (congrArg isTranslating hs.msr)

lemma memInit_flag_rams (k : Kernel) (env : BootEnv) :
    (memInit k env.vaddr env.mem (bootStart env)).2.needsMemMapUpdate = false ∧
      (MemInitSucceeds k env →
        RamsApart (memInit k env.vaddr env.mem (bootStart env)).2) := by
  have hflag : (bootStart env).needsMemMapUpdate = false := by
    unfold bootStart timerInit
    dsimp only
    split <;> rfl
  by_cases h : MemInitSucceeds k env
  · rw [memInit_of_succeeds h]
    refine ⟨memMapFixups_flag,fun _ => ?_⟩
    rw [RamsApart, memMapFixups_mapStep.size]
    exact (memRegions_succeeds (memInit_fst.mp h)).ramsApart
  · rw [memInit_of_fails h]
    exact ⟨(memRegions_step _ _).flag.trans hflag,fun hmem => absurd hmem h⟩

end

lemma isTranslating_both : isTranslating (msrIr ||| msrDr) = true := rfl

lemma bootStart_msr (env : BootEnv) :
    (bootStart env).cpu.msr = if env.usePhys then 0 else msrIr ||| msrDr := rfl

lemma modeInv_memInit {k : Kernel} {env : BootEnv} (hvirt : env.usePhys = false) :
    ModeInv (MemInitSucceeds k env) (memInit k env.vaddr env.mem (bootStart env)).2 := by
  have hmsr : (bootStart env).cpu.msr = msrIr ||| msrDr := by
    rw [bootStart_msr, hvirt]
    rfl
  by_cases h : MemInitSucceeds k env
  · rw [memInit_of_succeeds h, hmsr]
    refine modeInv_memMapFixups (fun _ => ?_) (fun _ hwas => ?_)
    · exact (memRegions_succeeds (memInit_fst.mp h)).ramsApart
    · rw [isTranslating_both] at hwas
      contradiction
  · have hm := memInit_of_fails h
    refine ⟨(memInit_flag_rams k env).1,?_,fun hmem => absurd hmem h,fun _ hmem => absurd hmem h⟩
    rw [hm, (memRegions_step _ _).msr, hmsr]
    intro _
    decide

/-- The guest starts with the map that its MSR asks for. -/
theorem modeInv_boot {k : Kernel} {env : BootEnv} {s : EmuState} (h : boot k env = some s) :
    ModeInv (MemInitSucceeds k env) s := by
  obtain ⟨u,hu,hm,hok,hs⟩ := boot_eq_some h
  have hremap := hs.ok hok
  cases hphys : env.usePhys with
  | false =>
    have heq : bootRemap k env u = u := by simp [bootRemap, hphys]
    rw [heq] at hs
    exact (modeInv_memInit hphys).initStep (hu.trans hs) hm
  | true =>
    refine ModeInv.initStep ?_ hs hremap
    rw [bootRemap, if_pos hphys]
    refine modeInv_memMapFixups (fun hmem => ?_) (fun _ hwas => ?_)
    · rw [RamsApart]
      change (u.mem.size .mem1).toNat ≤ 0x10000000
      rw [hu.map.size]
      exact (memInit_flag_rams k env).2 hmem
    · rw [isTranslating_both] at hwas
      contradiction

/-- In every run from boot without a mode switch by `mtmsr`, every return of the handler
without an error leaves the host map as the MSR has it. -/
theorem followsMsr_of_run {k : Kernel} {bail : BailOut} {env : BootEnv} {s₀ s t : EmuState}
    {es : List Trap} {e : Trap} (hboot : boot k env = some s₀)
    (hrun : Run (sigillStep k bail) KeepsMode s₀ es s) (hkeeps : KeepsMode s e)
    (hstep : sigillStep k bail s e = some t) (hok : t.fatalError = false) :
    FollowsMsr k s e t ∧ (MemInitSucceeds k env → ModeMatches t) := by
  have hinv : ModeInv (MemInitSucceeds k env) s :=
    hrun.invariant (modeInv_boot hboot) (fun _ _ _ hs hg hn => modeInv_step hs hg hn)
  exact ⟨followsMsr_step hinv hkeeps hstep hok,(modeInv_step hinv hkeeps hstep).mode hok⟩

def gcnStart : EmuState := started consoleKernel gcnBoot

lemma boot_gcnBoot : boot consoleKernel gcnBoot = some gcnStart := boot_eq_started (by decide)

/-- The first instruction is an `rfi` into real mode. -/
theorem followsMsr_rfi : ∃ s₀ t, boot consoleKernel gcnBoot = some s₀ ∧
    sigillStep consoleKernel noBail s₀ (trapWith rfiWord 0) = some t ∧
    FollowsMsr consoleKernel s₀ (trapWith rfiWord 0) t ∧
    (MemInitSucceeds consoleKernel gcnBoot → ModeMatches t) := by
  have hmap : (sigillStep consoleKernel noBail gcnStart (trapWith rfiWord 0)).map
      (·.fatalError) = some false := by decide
  obtain ⟨t,ht,hok⟩ := Option.map_eq_some_iff.mp hmap
  have hkeeps : KeepsMode gcnStart (trapWith rfiWord 0) := by
    intro regSrc h
    change Emulated.rfi = .mtmsr regSrc at h
    contradiction
  exact ⟨gcnStart,t,boot_gcnBoot,ht,followsMsr_of_run boot_gcnBoot .nil hkeeps ht hok⟩

/-- An `mtmsr` of zero as the first instruction enters real mode under the BAT map. -/
theorem mtmsr_keeps_bat_map :
    ¬ ∀ (k : Kernel) (bail : BailOut) (env : BootEnv) (s₀ s t : EmuState) (es : List Trap)
      (e : Trap), boot k env = some s₀ → Run (sigillStep k bail) (fun _ _ => True) s₀ es s →
      sigillStep k bail s e = some t → t.fatalError = false →
      FollowsMsr k s e t ∧ (MemInitSucceeds k env → ModeMatches t) := by
  intro h
  have hmap : (sigillStep consoleKernel noBail gcnStart (trapWith 0x7C600124#32 0)).map
      (fun t => (t.fatalError,isTranslating t.cpu.msr,lastMapChange t.host.calls)) =
      some (false,false,some .bat) := by decide
  obtain ⟨t,ht,hproj⟩ := Option.map_eq_some_iff.mp hmap
  obtain ⟨hok,hreal,hlast⟩ : t.fatalError = false ∧ isTranslating t.cpu.msr = false ∧
      lastMapChange t.host.calls = some .bat := by simpa using hproj
  have hmode := (h _ _ _ _ _ _ _ _ boot_gcnBoot .nil ht hok).2 memInitSucceeds_gcnBoot
  rw [(hmode.real hreal).1] at hlast
  contradiction

end DolTools
