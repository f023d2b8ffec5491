import DolTools.Emu.DspFromBoot
import DolTools.Emu.FailedAccess
import DolTools.Emu.MapMode
import DolTools.Emu.SprCells
import DolTools.Library.BitMask
import DolTools.Mem.FixupErrors

/-! Why a run of the emulator fails. Each signal has its causes, told by the state it finds and
the answers of the kernel, and the error flag is up behind a run exactly when one of them was met
on the way. -/
namespace DolTools
open Runs BitMask

/-- A write that `mtspr` accepts: an open register takes the value, or a counter is cleared. -/
def SprTaken (s : EmuState) (spr : ℕ) (val : Word) : Prop :=
  (∃ r : SprReg, r.spr = spr ∧ r.closed s = false ∧ r.Takes val s.cpu) ∨
    ((∃ i, spr = pmcSpr i) ∧ val = 0)

namespace Emulated

/-- The instructions that are an error in themselves. -/
def Refused (s : EmuState) (ctx : Context) : Emulated → Prop
  | mfspr _ spr => spr ∉ mfsprCases ∨ ∃ r : SprReg, r.spr = spr ∧ r.closed s = true
  | mtspr spr regSrc => ¬ SprTaken s spr (ctx.gpr regSrc)
  | mtmsr regSrc => ¬ MsrSafe { s.cpu with msr := ctx.gpr regSrc }
  | rfi => ¬ MsrSafe { s.cpu with msr := rfiMsr s.cpu }
  | unhandled => True
  | mfmsr _ | mtsr .. | mfsr .. | dcbi => False

/-- The instructions behind which the map is fixed up. -/
def Remaps : Emulated → Prop
  | mtspr spr _ => (batSpr spr).isSome = true
  | rfi => True
  | _ => False

end Emulated

/-- The calls of the dispatchers that end in an error. -/
def ChipsetCall.Refused (c : ChipsetCall) : Prop :=
  match c.route, c.written with
  | .block b, none => ReadFails b c.addr c.accessWidth
  | .block b, some _ => WriteReturns b c.addr c.accessWidth
  | .fatal, _ => True
  | .forwarded, _ | .nothing, _ => False

/-- The faults that end in an error: the handler finds no access to make, or makes such a call. -/
def Fault.Refused (s : EmuState) (f : Fault) : Prop :=
  NotEmulated f.instr s f.ctx ∨ ∃ c, f.call s = some c ∧ c.Refused

/-- The causes for which a signal that finds the first state and leaves the second is an error. -/
def Signal.Fails (k : Kernel) (s t : EmuState) : Signal → Prop
  | sigill e => (decodeIllegal e.val).Refused s e.ctx ∨
      ((decodeIllegal e.val).Remaps ∧ FixupsFail k s.cpu.msr t)
  | sigsegv f => f.Refused s
  | sigalrm mem => SeedFails s.chipset.dsp (hookEnv mem s) ∨
      SeedFaults s.chipset.dsp (hookEnv mem s) ∨ BlockFails s.chipset.dsp

/-- The state that a signal leaves, an alarm also where its handler does not come back. -/
def Signal.after (k : Kernel) (hw : Hardware) (bail : BailOut) (s : EmuState) :
    Signal → Option EmuState
  | sigalrm mem => some (sigalrmHandler mem s)
  | e => machineStep k hw bail s e

section

variable {k : Kernel} {hw : Hardware} {bail : BailOut} {env : BootEnv} {s t : EmuState}
  {es : List Signal} {spr : ℕ} {val : Word} {r : SprReg}

/-! Instructions. -/

/-- The comparison of the source is one of the two flags. -/
lemma translation_iff (msr : Word) :
    (msr &&& msrIr) >>> (31 - 26) = (msr &&& msrDr) >>> (31 - 27) ↔
      irEnabled msr = drEnabled msr := by
  unfold irEnabled drEnabled msrIr msrDr
  rw [bit_shiftRight (by decide), bit_shiftRight (by decide)]
  cases msr.getLsbD (31 - 26) <;> cases msr.getLsbD (31 - 27) <;> decide

lemma validateMsr_fatal_iff (hok : s.fatalError = false) :
    (validateMsr s).fatalError = true ↔ ¬ MsrSafe s.cpu := by
  constructor
  · intro h hsafe
    rw [validateMsr, if_neg, if_neg, hok] at h
    · contradiction
    · exact not_not.mpr ((translation_iff _).mpr hsafe.translation)
    · rintro ⟨hlow,hpow⟩
      exact hsafe.power ⟨hpow,asksLowPower_iff.mp hlow⟩
  · intro h
    by_contra hne
    exact h (validateMsr_safe (by simpa using hne))

lemma mfspr_fatal_iff (hok : s.fatalError = false) : (mfspr spr s).2.fatalError = true ↔
    spr ∉ mfsprCases ∨ ∃ r : SprReg, r.spr = spr ∧ r.closed s = true := by
  constructor
  · intro h
    by_contra hno
    push Not at hno
    obtain ⟨hmem,hopen⟩ := hno
    obtain ⟨r,hr⟩ := exists_sprReg hmem
    have hread : (mfspr spr s).2 = s := by
      rcases sprSource_eq hr with rfl | ⟨rfl,-⟩ | ⟨rfl,-⟩
      · rw [mfspr_of_open ((Bool.not_eq_true _).mp (hopen r rfl))]
      · rfl
      · rfl
    rw [hread, hok] at h
    contradiction
  · rintro (hno | ⟨r,rfl,hclosed⟩)
    · rw [mfspr_of_not_mem hno]
      rfl
    · exact mfspr_closed hclosed

/-- An open register takes such a value. -/
lemma mtspr_of_open (hopen : r.closed s = false) (htakes : r.Takes val s.cpu) :
    (mtspr r.spr val s).fatalError = s.fatalError := by
  cases r with
  | bat reg =>
    change (mtspr reg.spr val s).fatalError = _
    rw [mtspr, batSpr_spr]
    have hillegal : ¬ (reg.high && highBatIllegal { s with needsMemMapUpdate := true }) = true := by
      rw [show (reg.high && highBatIllegal { s with needsMemMapUpdate := true }) = false
        from hopen]
      decide
    have hset : mtsprBat reg reg.high val s =
      { s with needsMemMapUpdate := true, cpu := reg.set val s.cpu } := if_neg hillegal
    change (mtsprBat reg reg.high val s).fatalError = _
    rw [hset]
  | hid0 =>
    have hset : mtspr sprHid0 val s = { s with cpu := { s.cpu with hid0 := val } } := if_neg htakes
    change (mtspr sprHid0 val s).fatalError = _
    rw [hset]
  | hid1 => exact htakes.elim
  | hid4 =>
    have hc : s.consoleType ≠ .gamecube := of_decide_eq_false hopen
    have hset : mtspr sprHid4 val s = { s with cpu := { s.cpu with hid4 := hid4Value val } } :=
      if_neg hc
    change (mtspr sprHid4 val s).fatalError = _
    rw [hset]
  | sprg i => fin_cases i <;> rfl
  | mmcr0 | mmcr1 =>
    obtain rfl : val = 0 := htakes
    rfl
  | _ => rfl

lemma mtspr_fatal_iff (hok : s.fatalError = false) :
    (mtspr spr val s).fatalError = true ↔ ¬ SprTaken s spr val := by
  constructor
  · rintro h (⟨r,rfl,hopen,htakes⟩ | ⟨⟨i,rfl⟩,rfl⟩)
    · rw [mtspr_of_open hopen htakes, hok] at h
      contradiction
    · rw [mtspr_pmc i s, hok] at h
      contradiction
  · intro hno
    by_contra hne
    have hok' : (mtspr spr val s).fatalError = false := (Bool.not_eq_true _).mp hne
    apply hno
    cases mtspr_sprWrite spr val s with
    | refused fatal cpu => exact absurd fatal hne
    | lowPower fatal cpu => exact absurd fatal hne
    | stored r number takes cpu fatal =>
      subst number
      refine .inl ⟨r,rfl,?_,takes⟩
      by_contra hclosed
      exact hne (mtspr_closed ((Bool.not_eq_false _).mp hclosed) val).2
    | counter i number cpu fatal =>
      obtain ⟨j,rfl⟩ := pmcSpr_of_accepted number hok'
      exact .inr ⟨⟨j,rfl⟩,mtspr_pmc_val hok'⟩

lemma emulate_fatal_iff (op : Emulated) (ctx : Context) (hok : s.fatalError = false) :
    (emulate op s ctx).1.fatalError = true ↔ op.Refused s ctx := by
  cases op with
  | mfspr regDest spr => exact mfspr_fatal_iff hok
  | mtspr spr regSrc => exact mtspr_fatal_iff hok
  | mtmsr regSrc =>
    exact validateMsr_fatal_iff (s := { s with cpu := { s.cpu with msr := ctx.gpr regSrc } }) hok
  | rfi =>
    exact validateMsr_fatal_iff
      (s := { s with cpu := { s.cpu with msr := rfiMsr s.cpu }, needsMemMapUpdate := true }) hok
  | unhandled => exact ⟨fun _ => trivial,fun _ => rfl⟩
  | _ =>
    refine ⟨fun h => ?_,False.elim⟩
    rw [show (emulate _ s ctx).1.fatalError = s.fatalError from rfl, hok] at h
    contradiction

lemma emulate_flag_iff (op : Emulated) (ctx : Context)
    (hflag : s.needsMemMapUpdate = false) :
    (emulate op s ctx).1.needsMemMapUpdate = true ↔ op.Remaps := by
  cases op with
  | mfspr regDest spr =>
    refine ⟨fun h => ?_,False.elim⟩
    rw [show (emulate (.mfspr regDest spr) s ctx).1.needsMemMapUpdate = s.needsMemMapUpdate
      from (mfspr_quiet spr s).flag, hflag] at h
    contradiction
  | mtspr spr regSrc =>
    change (mtspr spr (ctx.gpr regSrc) s).needsMemMapUpdate = true ↔ (batSpr spr).isSome = true
    unfold mtspr
    cases batSpr spr with
    | some x =>
      obtain ⟨reg,high⟩ := x
      exact ⟨fun _ => rfl,fun _ => (mtsprBat_spec reg high _ s).2⟩
    | none =>
      change (mtsprOther spr _ s).needsMemMapUpdate = true ↔ _
      rw [(mtsprOther_quiet spr _ s).flag, hflag]
      simp
  | mtmsr regSrc =>
    refine ⟨fun h => ?_,False.elim⟩
    rw [show (emulate (.mtmsr regSrc) s ctx).1.needsMemMapUpdate = s.needsMemMapUpdate
      from validateMsr_flag _, hflag] at h
    contradiction
  | rfi => exact ⟨fun _ => trivial,fun _ => validateMsr_flag _⟩
  | _ =>
    refine ⟨fun h => ?_,False.elim⟩
    rw [show (emulate _ s ctx).1.needsMemMapUpdate = s.needsMemMapUpdate from rfl, hflag] at h
    contradiction

/-- The handler of illegal instructions, which fixes up the map behind an instruction that has
failed as well. -/
lemma handled_fatal_iff (e : Trap) (hok : s.fatalError = false)
    (hflag : s.needsMemMapUpdate = false) : (handled k s e).fatalError = true ↔
      (decodeIllegal e.val).Refused s e.ctx ∨
        ((decodeIllegal e.val).Remaps ∧ FixupsFail k s.cpu.msr (handled k s e)) := by
  rw [← emulate_fatal_iff _ e.ctx hok, ← emulate_flag_iff _ e.ctx hflag]
  change _ ↔ (emulated s e).fatalError = true ∨ ((emulated s e).needsMemMapUpdate = true ∧ _)
  cases hfirst : (emulated s e).fatalError with
  | true =>
    refine ⟨fun _ => .inl rfl,fun _ => ?_⟩
    by_contra hne
    rw [handled_ok ((Bool.not_eq_true _).mp hne)] at hfirst
    contradiction
  | false =>
    cases hmap : (emulated s e).needsMemMapUpdate with
    | true =>
      rw [handled_of_flag hmap, memMapFixups_fatal_iff hfirst]
      simp
    | false =>
      rw [handled_of_not_flag hmap, hfirst]
      simp

/-! Faults. -/

lemma run_fatal_iff (c : ChipsetCall) (hok : s.fatalError = false) :
    (c.run hw s).fatalError = true ↔ c.Refused := by
  unfold ChipsetCall.Refused
  cases hc : c.written with
  | none =>
    rw [run_read hc]
    cases hroute : c.route with
    | block b =>
      change (onBlock b (b.read c.addr c.accessWidth) s).s.fatalError = true ↔ _
      rw [onBlock_read]
      simp [hok]
    | forwarded =>
      change (forwardedRead hw c.addr c.accessWidth s).s.fatalError = true ↔ False
      rw [forwardedRead, forwardPtr_window s (route_forwarded hroute)]
      dsimp only
      split_ifs <;> simp [logForward, hok]
    | fatal => simp [routeRead, EmuState.fatal]
    | nothing => simp [routeRead, hok]
  | some val =>
    rw [run_write hc]
    cases hroute : c.route with
    | block b =>
      change (onBlock b (b.write c.addr val c.accessWidth) s).s.fatalError = true ↔ _
      rw [onBlock_write]
      simp [hok]
    | forwarded =>
      change (forwardedWrite c.addr val c.accessWidth s).s.fatalError = true ↔ False
      rw [forwardedWrite, forwardPtr_window s (route_forwarded hroute)]
      dsimp only
      split_ifs <;> simp [logForward, hok]
    | fatal => simp [routeWrite, EmuState.fatal]
    | nothing => simp [routeWrite, hok]

lemma decode_of_known (u : SegvUninit) (ctx : Context) {instr : Word}
    (h : primaryOpcode instr ∈ loadOpcodes ++ storeOpcodes) :
    ∃ l, decodeLoadStore u instr ctx = some l := by
  simp only [loadOpcodes, storeOpcodes, List.mem_append, List.mem_cons, List.not_mem_nil,
    or_false] at h
  unfold decodeLoadStore
  rcases h with (h | h | h) | h | h | h <;> rw [h] <;> exact ⟨_,rfl⟩

lemma chipsetAddr_none {console : ConsoleType} {paddr : Word}
    (h : chipsetAddr console paddr = none) :
    paddr &&& 0xFFF00000#32 ∉ [flipperRange, hollywoodMirror, hollywoodRange] ∨
      (paddr &&& 0xFFF00000#32 ∈ [hollywoodMirror, hollywoodRange] ∧ console = .gamecube) := by
  unfold chipsetAddr at h
  dsimp only at h
  split_ifs at h with hf hh hc
  · exact .inr ⟨by simpa using hh,hc⟩
  · left
    simp only [List.mem_cons, List.not_mem_nil, or_false, not_or]
    exact ⟨hf,not_or.mp hh⟩

/-- The handler finds an access to make but for the faults that it cannot emulate. -/
lemma call_eq_none_iff (f : Fault) (hok : s.fatalError = false) :
    f.call s = none ↔ NotEmulated f.instr s f.ctx := by
  unfold Fault.call
  constructor
  · intro h
    split_ifs at h with hkind
    · rw [handlerCall, if_neg (by simp [hok])] at h
      by_cases hknown : primaryOpcode f.instr ∈ loadOpcodes ++ storeOpcodes
      · obtain ⟨l,hl⟩ := decode_of_known f.uninit f.ctx hknown
        rw [hl, Option.bind_some] at h
        cases hp : faultPaddr s f.ctx with
        | none => exact .unmapped hp
        | some paddr =>
          rw [hp, Option.bind_some, segvCall, Option.map_eq_none_iff] at h
          rcases chipsetAddr_none h with hrange | ⟨hhollywood,hc⟩
          · exact .range hp hrange
          · exact .console hp hhollywood hc
      · rw [List.mem_append, not_or] at hknown
        exact .instruction hknown.1 hknown.2
    · rw [Bool.or_eq_true, not_or, Bool.not_eq_true, Bool.not_eq_true] at hkind
      exact .kind hkind.1 hkind.2
  · intro h
    split_ifs with hkind
    · exact handlerCall_eq_none h (by simpa using hkind)
    · rfl

lemma faulted_fatal_iff (f : Fault) (hok : s.fatalError = false) :
    (faulted hw s f).fatalError = true ↔ f.Refused s := by
  unfold faulted Fault.Refused
  rw [← call_eq_none_iff f hok]
  cases f.call s with
  | none => simp [EmuState.fatal]
  | some c => simp [run_fatal_iff c hok]

/-! Runs. -/

/-- Between the signals no fixup of the map is outstanding. -/
lemma MachineStep.flag {e : Signal} (h : MachineStep k hw s e t)
    (hs : s.needsMemMapUpdate = false) : t.needsMemMapUpdate = false := by
  cases h with
  | sigill x ok =>
    cases hmap : (emulated s x).needsMemMapUpdate with
    | true =>
      rw [handled_of_flag hmap]
      exact memMapFixups_flag
    | false =>
      rw [handled_of_not_flag hmap]
      exact hmap
  | sigsegv f ok =>
    rw [faultStep_faulted.rest]
    exact hs
  | sigalrm mem back =>
    rw [sigalrmHandler_tickStep.rest]
    exact hs

/-- One signal raises the error flag exactly for one of its causes. -/
lemma after_fatal_iff {e : Signal} (h : e.after k hw bail s = some t)
    (hok : s.fatalError = false) (hflag : s.needsMemMapUpdate = false)
    (hhooks : s.timersHooks = bootHooks) : t.fatalError = true ↔ e.Fails k s t := by
  cases e with
  | sigill x =>
    obtain ⟨-,rfl⟩ := sigillStep_eq_some.mp h
    exact handled_fatal_iff x hok hflag
  | sigsegv f =>
    obtain ⟨-,rfl⟩ := sigsegvStep_eq_some.mp h
    exact faulted_fatal_iff f hok
  | sigalrm mem =>
    obtain rfl := Option.some.inj h
    rw [sigalrmHandler_flag hhooks]
    exact dspTick_fatal_iff (d := ⟨s.chipset.dsp,s.fatalError⟩) hok (hookEnv mem s)

lemma after_of_step {e : Signal} (h : machineStep k hw bail s e = some t) :
    e.after k hw bail s = some t := by
  cases e with
  | sigill | sigsegv => exact h
  | sigalrm mem =>
    cases machineStep_eq_some.mp h with
    | sigalrm mem back => rfl

/-- In every run from `main`, whatever instructions, faults and alarms come, the error flag is up
exactly when one of the signals has met a cause of its own: an instruction that is refused, a
fixup of the map that fails, an access that is not emulated or that a device does not know, or an
alarm that finds no MEM1 to seed the IRAM from, cannot read it there, or finds a transfer that is
no whole number of blocks. So it is with the signal that comes next, also with an alarm that does
not come back. -/
theorem error_of_run (hboot : boot k env = some s)
    (hrun : Run (machineStep k hw bail) (fun _ _ => True) s es t) :
    (t.fatalError = true ↔ ∃ pre e post u v, es = pre ++ e::post ∧
      Run (machineStep k hw bail) (fun _ _ => True) s pre u ∧ u.fatalError = false ∧
      machineStep k hw bail u e = some v ∧ e.Fails k u v) ∧
    (t.fatalError = false → ∀ (e : Signal) (u : EmuState), e.after k hw bail t = some u →
      (u.fatalError = true ↔ e.Fails k t u)) := by
  obtain ⟨-,-,-,hok,-⟩ := boot_eq_some hboot
  have hready : ∀ pre u, Run (machineStep k hw bail) (fun _ _ => True) s pre u →
      u.needsMemMapUpdate = false ∧ u.timersHooks = bootHooks := by
    intro pre u hpre
    refine ⟨?_,(sameSetup_of_run hpre).timersHooks.trans (boot_hooks hboot)⟩
    apply hpre.invariant (modeInv_boot hboot).flag
    exact fun _ _ _ hs _ hnext => (machineStep_eq_some.mp hnext).flag hs
  constructor
  · rw [hrun.raised_iff (P := fun u => u.fatalError = true) (by simp [hok])
      (fun _ _ _ hs hnext => (machineStep_eq_some.mp hnext).fatal hs)]
    constructor
    · rintro ⟨pre,e,post,u,v,rfl,hpre,hu,hnext,hv⟩
      obtain ⟨hflag,hhooks⟩ := hready pre u hpre
      have hu' : u.fatalError = false := (Bool.not_eq_true _).mp hu
      exact ⟨pre,e,post,u,v,rfl,hpre,hu',hnext,
        (after_fatal_iff (after_of_step hnext) hu' hflag hhooks).mp hv⟩
    · rintro ⟨pre,e,post,u,v,rfl,hpre,hu,hnext,hfails⟩
      obtain ⟨hflag,hhooks⟩ := hready pre u hpre
      exact ⟨pre,e,post,u,v,rfl,hpre,by simp [hu],hnext,
        (after_fatal_iff (after_of_step hnext) hu hflag hhooks).mpr hfails⟩
  · intro ht e u hafter
    obtain ⟨hflag,hhooks⟩ := hready es t hrun
    exact after_fatal_iff hafter ht hflag hhooks

end

/-- A word that the handler does not know; and, instead of it, an alarm that is to seed the IRAM
from where nothing is mapped. -/
theorem error_of_run_unhandled : (∃ pre e post u v,
    [.sigsegv seedDsp, .sigill (trapWith 0 0)] = pre ++ e::post ∧
    Run (machineStep consoleKernel zeroHardware noBail) (fun _ _ => True)
      (started consoleKernel gcnBoot) pre u ∧ u.fatalError = false ∧
    machineStep consoleKernel zeroHardware noBail u e = some v ∧ e.Fails consoleKernel u v) ∧
    (sigalrmHandler bareMem
      (faulted zeroHardware (started consoleKernel gcnBoot) seedDsp)).fatalError = true := by
  have hnil : Run (machineStep consoleKernel zeroHardware noBail) (fun _ _ => True)
    (started consoleKernel gcnBoot) [] _ := .nil
  have hseed := hnil.snoc trivial (machineStep_eq_some.mpr (.sigsegv seedDsp (by decide)))
  have hrun := hseed.snoc trivial (machineStep_eq_some.mpr (.sigill (trapWith 0 0) (by decide)))
  refine ⟨(error_of_run (boot_eq_started (by decide)) hrun).1.mp (by decide),?_⟩
  refine ((error_of_run (boot_eq_started (by decide)) hseed).2 (by decide) (.sigalrm bareMem) _
    rfl).mpr (.inr (.inl ⟨by decide,by decide,0,by decide,by decide⟩))

end DolTools
