import DolTools.Cpu.SprFile
import DolTools.Emu.Boot
import DolTools.Library.Runs

/-! The registers over whole runs: the two conditions on MSR and HID0 that the validation
enforces, and the bits that no instruction can change. -/
namespace DolTools
open Runs

/-- Both translation bits agree, and power management is not enabled while HID0 asks for a
low-power mode. -/
structure MsrSafe (c : CpuState) : Prop where
  translation : irEnabled c.msr = drEnabled c.msr
  power : ¬ (c.msr &&& msrPow ≠ 0 ∧
    (c.hid0 &&& hid0Doze ≠ 0 ∨ c.hid0 &&& hid0Nap ≠ 0 ∨ c.hid0 &&& hid0Sleep ≠ 0))

/-- The bits that are fixed, and the registers that are read-only or zero. -/
structure ReservedBits (c : CpuState) : Prop where
  hid1 : c.hid1 = 0
  mmcr : c.mmcr0 = 0 ∧ c.mmcr1 = 0
  pmc : ∀ i, c.pmc i = 0
  hid2 : c.hid2 &&& hid2Rsrvd0 = 0 ∧ c.hid2 &&& hid2Dmaql = 0
  hid4 : c.hid4.getLsbD 31 = true ∧ c.hid4 &&& hid4Rsrvd0 = 0
  l2cr : c.l2cr &&& l2crRsrvd0 = 0

lemma asksLowPower_iff {hid0 : Word} : asksLowPower hid0 = true ↔
    hid0 &&& hid0Doze ≠ 0 ∨ hid0 &&& hid0Nap ≠ 0 ∨ hid0 &&& hid0Sleep ≠ 0 := by
  simp [asksLowPower, or_assoc]

lemma validateMsr_safe {s : EmuState} (hok : (validateMsr s).fatalError = false) :
    MsrSafe s.cpu := by
  refine ⟨validateMsr_ok hok,?_⟩
  rintro ⟨hpow,hlow⟩
  rw [← asksLowPower_iff] at hlow
  rw [validateMsr, if_pos ⟨hlow,hpow⟩] at hok
  contradiction

/-- What an instruction does to the registers. -/
inductive RegisterChange (s t : EmuState) : Prop
  | same (cpu : t.cpu = s.cpu)
  | spr (spr : ℕ) (val : Word) (write : SprWrite spr val s t)
  | msr (msr : Word) (cpu : t.cpu = { s.cpu with msr := msr })
      (valid : t.fatalError = false → MsrSafe t.cpu)
  | segments (regs : Fin 16 → Word) (cpu : t.cpu = { s.cpu with segmentRegs := regs })

lemma mfspr_cpu (spr : ℕ) (s : EmuState) : (mfspr spr s).2.cpu = s.cpu := by
  rcases mfspr_snd spr s with h | h
  · rw [h]
  · rw [h]
    rfl

theorem emulate_registerChange (op : Emulated) (s : EmuState) (ctx : Context) :
    RegisterChange s (emulate op s ctx).1 := by
  cases op with
  | mfspr regDest spr => exact .same (mfspr_cpu spr s)
  | mtspr spr regSrc => exact .spr spr _ (mtspr_sprWrite spr _ s)
  | mfmsr regDest => exact .same rfl
  | mtmsr regSrc =>
    refine .msr (ctx.gpr regSrc) (validateMsr_cpu _) ?_
    intro hok
    rw [show (emulate (.mtmsr regSrc) s ctx).1.cpu = _ from validateMsr_cpu _]
    exact validateMsr_safe hok
  | rfi =>
    refine .msr (rfiMsr s.cpu) (validateMsr_cpu _) ?_
    intro hok
    rw [show (emulate .rfi s ctx).1.cpu = _ from validateMsr_cpu _]
    exact validateMsr_safe hok
  | mtsr segmentReg regSrc => exact .segments _ rfl
  | mfsr regDest segmentReg => exact .same rfl
  | dcbi => exact .same rfl
  | unhandled => exact .same rfl

section

variable {s t : EmuState}

/-- One instruction that is not an error keeps the two conditions. -/
theorem RegisterChange.msrSafe (h : RegisterChange s t) (hs : MsrSafe s.cpu)
    (hok : t.fatalError = false) : MsrSafe t.cpu := by
  cases h with
  | same cpu => rwa [cpu]
  | msr msr cpu valid => exact valid hok
  | segments regs cpu =>
    rw [cpu]
    exact ⟨hs.translation,hs.power⟩
  | spr spr val write =>
    cases write with
    | refused fatal cpu => simp [fatal] at hok
    | lowPower fatal cpu => simp [fatal] at hok
    | counter i number cpu fatal =>
      rw [cpu]
      exact ⟨hs.translation,hs.power⟩
    | stored r number takes cpu fatal =>
      have hmsr : t.cpu.msr = s.cpu.msr := by rw [cpu, SprReg.set_msr]
      refine ⟨by rw [hmsr, hs.translation],?_⟩
      have hhid0 := SprReg.get_set .hid0 r (r.rule val s.cpu) s.cpu
      rw [← cpu] at hhid0
      change t.cpu.hid0 = _ at hhid0
      rw [hmsr, hhid0]
      by_cases hr : SprReg.hid0 = r
      · subst hr
        rw [if_pos rfl]
        rintro ⟨hpow,hlow⟩
        exact takes ⟨asksLowPower_iff.mpr hlow,hpow⟩
      · rw [if_neg hr]
        exact hs.power

lemma and_not_and (x m : Word) : x &&& ~~~m &&& m = 0 := by
  rw [BitVec.and_assoc, BitVec.and_comm (~~~m) m, BitVec.and_not_self]
  exact BitVec.and_zero

lemma and_and_eq_zero {x m : Word} (h : x &&& m = 0) (y : Word) : x &&& y &&& m = 0 := by
  rw [BitVec.and_assoc, BitVec.and_comm y m, ← BitVec.and_assoc, h]
  exact BitVec.zero_and

lemma hid2_rule_reserved (val : Word) {c : CpuState} (h : c.hid2 &&& hid2Dmaql = 0) :
    SprReg.hid2.rule val c &&& hid2Rsrvd0 = 0 ∧ SprReg.hid2.rule val c &&& hid2Dmaql = 0 := by
  have hlow : val &&& 0xFFFF0000#32 &&& hid2Rsrvd0 = 0 := and_not_and val hid2Rsrvd0
  simp only [SprReg.rule, h]
  split
  · -- the previous DMAQL field is zero, so a blocked write clears the field
    rw [show ∀ x : Word, x ||| 0 = x from fun x => BitVec.or_zero]
    exact ⟨and_and_eq_zero hlow _,and_not_and _ _⟩
  · rename_i hq
    exact ⟨hlow,not_not.mp hq⟩

lemma hid4_rule_reserved (val : Word) (c : CpuState) :
    (SprReg.hid4.rule val c).getLsbD 31 = true ∧ SprReg.hid4.rule val c &&& hid4Rsrvd0 = 0 := by
  refine ⟨?_,and_not_and _ _⟩
  have htop : hid4Rsrvd1.getLsbD 31 = true := hid4Rsrvd1_getLsbD 31
  have hkept : (~~~hid4Rsrvd0).getLsbD 31 = true := by decide
  change ((val ||| hid4Rsrvd1) &&& ~~~hid4Rsrvd0).getLsbD 31 = true
  rw [BitVec.getLsbD_and, BitVec.getLsbD_or, htop, hkept, Bool.or_true, Bool.and_true]

/-- No instruction changes a reserved bit or a read-only register, be it an error or not. -/
theorem RegisterChange.reservedBits (h : RegisterChange s t) (hs : ReservedBits s.cpu) :
    ReservedBits t.cpu := by
  cases h with
  | same cpu => rwa [cpu]
  | msr msr cpu valid =>
    rw [cpu]
    exact { hs with }
  | segments regs cpu =>
    rw [cpu]
    exact { hs with }
  | spr spr val write =>
    cases write with
    | refused fatal cpu => rwa [cpu]
    | lowPower fatal cpu =>
      rw [cpu]
      exact { hs with }
    | counter i number cpu fatal =>
      rw [cpu]
      refine { hs with pmc := ?_ }
      intro j
      change Function.update s.cpu.pmc i 0 j = 0
      rw [Function.update_apply]
      split
      · rfl
      · exact hs.pmc j
    | stored r number takes cpu fatal =>
      rw [cpu]
      cases r with
      | hid1 => exact takes.elim
      | hid2 => exact { hs with hid2 := hid2_rule_reserved val hs.hid2.2 }
      | hid4 => exact { hs with hid4 := hid4_rule_reserved val s.cpu }
      | l2cr => exact { hs with l2cr := and_not_and val l2crRsrvd0 }
      | mmcr0 => exact { hs with mmcr := ⟨takes,hs.mmcr.2⟩ }
      | mmcr1 => exact { hs with mmcr := ⟨hs.mmcr.1,takes⟩ }
      | bat reg => cases reg <;> exact { hs with }
      | _ => exact { hs with }

lemma emulated_registerChange (s : EmuState) (e : Trap) : RegisterChange s (emulated s e) :=
  emulate_registerChange _ s e.ctx

/-- The handler changes the registers by emulating the instruction, not by mapping. -/
lemma handled_cpu (k : Kernel) (s : EmuState) (e : Trap) :
    (handled k s e).cpu = (emulated s e).cpu := by
  unfold handled
  split
  · exact memMapFixups_cpu
  · rfl

lemma handled_ok {k : Kernel} {e : Trap} (hok : (handled k s e).fatalError = false) :
    (emulated s e).fatalError = false := by
  unfold handled at hok
  split at hok
  · exact memMapFixups_mapStep.ok hok
  · exact hok

end

lemma timerAddHook_cpu (hook : TimerHook) (s : EmuState) : (timerAddHook hook s).cpu = s.cpu := by
  unfold timerAddHook
  split <;> rfl

lemma cpuInit_msrSafe {s : EmuState} (h : s.cpu.msr = 0 ∨ s.cpu.msr = msrIr ||| msrDr) :
    MsrSafe (cpuInit s).cpu := by
  have hmsr : (cpuInit s).cpu.msr = s.cpu.msr := (cpuInit_initStep s).msr
  have hhid0 : (cpuInit s).cpu.hid0 = 0 := by
    rw [cpuInit, timerAddHook_cpu]
  refine ⟨?_,?_⟩
  · rw [hmsr]
    rcases h with h | h <;> rw [h] <;> decide
  · rw [hhid0]
    rintro ⟨-,h | h | h⟩ <;> exact h BitVec.zero_and

lemma cpuInit_reservedBits (s : EmuState) : ReservedBits (cpuInit s).cpu := by
  have hhid2 : (0 : Word) &&& hid2Rsrvd0 = 0 ∧ (0 : Word) &&& hid2Dmaql = 0 := by decide
  have hhid4 : hid4Rsrvd1.getLsbD 31 = true ∧ hid4Rsrvd1 &&& hid4Rsrvd0 = 0 := by decide
  rw [cpuInit, timerAddHook_cpu]
  exact ⟨rfl,⟨rfl,rfl⟩,fun _ => rfl,hhid2,hhid4,BitVec.zero_and⟩

/-- From the MSR values that `main` sets up, the two conditions hold in every state without
an error that a run of emulated instructions reaches. -/
theorem msrSafe_of_run {k : Kernel} {bail : BailOut} {s t : EmuState} {es : List Trap}
    (hstart : s.cpu.msr = 0 ∨ s.cpu.msr = msrIr ||| msrDr)
    (hrun : Run (sigillStep k bail) (fun _ _ => True) (cpuInit s) es t)
    (hok : t.fatalError = false) : MsrSafe t.cpu := by
  have hinv : t.fatalError = false → MsrSafe t.cpu := by
    apply hrun.invariant
    · intro _
      exact cpuInit_msrSafe hstart
    · intro s e t hsafe _ hnext hok
      obtain ⟨hs,rfl⟩ := sigillStep_eq_some.mp hnext
      rw [handled_cpu]
      exact (emulated_registerChange s e).msrSafe (hsafe hs) (handled_ok hok)
  exact hinv hok

/-- A run of one `mtmsr` that sets the power bit. -/
theorem msrSafe_of_run_mtmsr :
    MsrSafe (handled consoleKernel (cpuInit .zero) (trapWith 0x7C000124#32 msrPow)).cpu := by
  have hnil : Run (sigillStep consoleKernel noBail) (fun _ _ => True) (cpuInit .zero) []
    (cpuInit .zero) := .nil
  have hstep : sigillStep consoleKernel noBail (cpuInit .zero) (trapWith 0x7C000124#32 msrPow) =
      some (handled consoleKernel (cpuInit .zero) (trapWith 0x7C000124#32 msrPow)) :=
    sigillStep_eq_some.mpr ⟨by decide,rfl⟩
  exact msrSafe_of_run (.inl rfl) (hnil.snoc trivial hstep) (by decide)

/-- From `E_CPU_Init` on the reserved bits hold after every sequence of instructions, be they
errors or not. -/
theorem reservedBits_of_instructions (k : Kernel) (s : EmuState) (es : List Trap) :
    ReservedBits (es.foldl (handled k) (cpuInit s)).cpu := by
  induction es using List.reverseRecOn with
  | nil => exact cpuInit_reservedBits s
  | append_singleton es e ih =>
    rw [List.foldl_append, List.foldl_cons, List.foldl_nil, handled_cpu]
    exact (emulated_registerChange _ e).reservedBits ih

end DolTools
