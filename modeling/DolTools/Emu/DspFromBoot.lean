import DolTools.Emu.ChipsetRuns
import DolTools.Mmio.DspIram
import DolTools.Mmio.DspMail
import DolTools.Mmio.DspTransfer

/-! The DSP in the runs of the emulator, from `main` on: whatever the guest does to the other
devices and to the processor, the order of halting and of a reset holds, its instruction memory is
changed by a reset alone, an alarm is an error only where a reset finds no MEM1 or its copy faults,
its mailbox tells of nothing but a resume, and a transfer takes as many alarms as it has blocks. -/
namespace DolTools
open Runs Views

section

variable {k : Kernel} {hw : Hardware} {bail : BailOut} {env : BootEnv} {s t m : EmuState}
  {es : List Signal}

lemma ticks_dspEvents (s : EmuState) (e : Signal) : ticks (e.dspEvents s) = ticksOf [e] := by
  cases e with
  | sigill e => rfl
  | sigalrm mem => rfl
  | sigsegv f =>
    have hwrite : ∀ op : BlockWrite, ∀ e ∈ op.dspEvent, e.isTick = false := by
      intro op e he
      unfold BlockWrite.dspEvent at he
      split_ifs at he
      · obtain rfl := Option.some.inj he
        rfl
      · contradiction
    change (((f.call s).toList.filterMap ChipsetCall.blockWrite).filterMap
      BlockWrite.dspEvent).countP DspEvent.isTick = 0
    rw [List.countP_eq_zero]
    intro e he
    obtain ⟨op,-,hop⟩ := List.mem_filterMap.mp he
    simp [hwrite op e hop]

lemma dspEventsOf_snoc (hrun : Run (machineStep k hw bail) (fun _ _ => True) s es t) (e : Signal) :
    dspEventsOf k hw bail s (es ++ [e]) = dspEventsOf k hw bail s es ++ e.dspEvents t :=
  trace_snoc hrun e

lemma ticks_dspEventsOf (hrun : Run (machineStep k hw bail) (fun _ _ => True) s es t) :
    ticks (dspEventsOf k hw bail s es) = ticksOf es := by
  induction hrun with
  | nil => rfl
  | @snoc es m e t head ok next ih =>
    rw [dspEventsOf_snoc head, ticksOf_append, ← ih, ← ticks_dspEvents m e]
    exact List.countP_append

lemma dspRun_of_boot (hboot : boot k env = some s)
    (hrun : Run (machineStep k hw bail) (fun _ _ => True) s es t) : t.chipset.dsp =
      (dspRun ⟨dspInit env.iram,false⟩ (dspEventsOf k hw bail s es)).regs := by
  rw [dsp_of_run (boot_hooks hboot) hrun, boot_chipset hboot]

/-- From `main` on, in every state of every run: a reset of the DSP is in one of its stages, and
two alarms complete it unless the guest begins another; once the guest has written CSR, it reads
there whether the DSP is halted. -/
theorem dsp_of_boot (hboot : boot k env = some s)
    (hrun : Run (machineStep k hw bail) (fun _ _ => True) s es t) :
    ResetStages t.chipset.dsp ∧
    ((∃ e ∈ dspEventsOf k hw bail s es, e.csrValue.isSome) → HaltInStep t.chipset.dsp) ∧
    ∀ es' u, Run (machineStep k hw bail) (fun _ _ => True) t es' u → 2 ≤ ticksOf es' →
      (∀ e ∈ dspEventsOf k hw bail t es', ¬ e.Restarts) →
      u.chipset.dsp.csr &&& dspCsrReset = 0#16 ∧ u.chipset.dsp.privResetTimer = 0 := by
  have ht := dspRun_of_boot hboot hrun
  have hstages : ResetStages t.chipset.dsp := by
    rw [ht]
    exact resetStages_dspRun (resetStages_dspInit env.iram) _
  refine ⟨hstages,?_,?_⟩
  · intro hcsr
    rw [ht]
    exact haltInStep_dspRun _ hcsr
  · intro es' u hrun' htwo hnone
    have hhooks' := (sameSetup_of_run hrun).timersHooks.trans (boot_hooks hboot)
    have hd : ResetStages (Device.mk t.chipset.dsp false).regs := hstages
    rw [← ticks_dspEventsOf hrun'] at htwo
    rw [dsp_of_run hhooks' hrun']
    have htimer := dspRun_timer hd hnone
    have hzero : (dspRun ⟨t.chipset.dsp,false⟩ (dspEventsOf k hw bail t es')).regs.privResetTimer =
        0 := by
      have hstage := hd.timer
      omega
    refine ⟨?_,hzero⟩
    by_contra hset
    have hpending := (resetStages_dspRun hd (dspEventsOf k hw bail t es')).pending hset
    omega

/-- Behind the reset, and two alarms later. -/
theorem dsp_of_boot_trial : HaltInStep trialReset.chipset.dsp ∧
    (sigalrmHandler zeroMem (sigalrmHandler zeroMem trialReset)).chipset.dsp.csr &&& dspCsrReset =
      0#16 := by
  have hnil : Run (machineStep consoleKernel zeroHardware noBail) (fun _ _ => True) trialReset []
    trialReset := .nil
  have halarm : ∀ s, machineStep consoleKernel zeroHardware noBail s (.sigalrm zeroMem) =
      some (sigalrmHandler zeroMem s) :=
    fun s => machineStep_eq_some.mpr (.sigalrm zeroMem (alarmFaults_zeroMem s))
  have hticks : Run (machineStep consoleKernel zeroHardware noBail) (fun _ _ => True) trialReset
      [.sigalrm zeroMem, .sigalrm zeroMem] _ :=
    (hnil.snoc trivial (halarm _)).snoc trivial (halarm _)
  obtain ⟨-,hhalt,htwo⟩ := dsp_of_boot (boot_eq_started (by decide)) trialReset_run
  refine ⟨hhalt ⟨.write 0x0C00500A#32 0x801#32 2,?_,by decide⟩,(htwo _ _ hticks (by decide) ?_).1⟩
  · have hcall : resetDsp.call (handled consoleKernel (started consoleKernel gcnBoot) setDbat2) =
      some (.flipperWrite 0x0C00500A#32 0x801#32 2) := by decide
    have hnil' : Run (machineStep consoleKernel zeroHardware noBail) (fun _ _ => True)
      (started consoleKernel gcnBoot) [] _ := .nil
    have hbat := hnil'.snoc trivial (machineStep_eq_some.mpr (.sigill setDbat2 (by decide)))
    have hevents := dspEventsOf_snoc hbat (.sigsegv resetDsp)
    rw [Signal.dspEvents, hcall] at hevents
    exact hevents ▸ List.mem_append_right _ List.mem_cons_self
  · intro e he
    rw [show [Signal.sigalrm zeroMem, .sigalrm zeroMem] = ([] ++ [.sigalrm zeroMem]) ++
      [.sigalrm zeroMem] from rfl, dspEventsOf_snoc (hnil.snoc trivial (halarm _)),
      dspEventsOf_snoc hnil] at he
    rintro ⟨v,hv,-⟩
    simp only [dspEventsOf, trace_nil, Signal.dspEvents, List.nil_append, List.mem_append,
      List.mem_singleton] at he
    rcases he with rfl | rfl <;> contradiction

/-- In every run from `main` the IRAM is what `malloc` gave but for its first 1024 bytes; these
are seeded at most once for every reset that the guest begins, and hold what the process showed at
the last seeding where `E_MemPhysToVirt` puts MEM1: bytes of a RAM as far as the host maps one
there. -/
theorem iram_of_boot (hboot : boot k env = some s)
    (hrun : Run (machineStep k hw bail) (fun _ _ => True) s es t) :
    let d : Device DspState := ⟨dspInit env.iram,false⟩
    (∀ i : Fin 8192, 1024 ≤ i.val → t.chipset.dsp.iram i = env.iram i) ∧
    seedings d (dspEventsOf k hw bail s es) ≤
      (dspEventsOf k hw bail s es).countP (fun e => decide e.Restarts) ∧
    (seedings d (dspEventsOf k hw bail s es) = 0 → t.chipset.dsp.iram = env.iram) ∧
    ∀ pre mem post u v, es = pre ++ .sigalrm mem::post →
      Run (machineStep k hw bail) (fun _ _ => True) s pre u →
      machineStep k hw bail u (.sigalrm mem) = some v → Seeds u.chipset.dsp (hookEnv mem u) →
      seedings ⟨v.chipset.dsp,false⟩ (dspEventsOf k hw bail v post) = 0 →
      ∀ i : Fin 8192, i.val < 1024 → mem.read u.host.space
        ((memPhysToVirt u 0x01000000#32 true).addr + BitVec.ofNat 32 i.val) =
          some (t.chipset.dsp.iram i) := by
  intro d
  refine ⟨?_,seedings_le d _,?_,?_⟩
  · rw [dspRun_of_boot hboot hrun]
    exact fun i hi => iram_high d _ hi
  · rw [dspRun_of_boot hboot hrun]
    exact iram_unseeded
  · rintro pre mem post u v rfl hpre hstep hseeds hpost i hi
    obtain ⟨u',v',hpre',-,hstep',htail⟩ := hrun.at_event
    obtain rfl := hpre.unique hpre'
    obtain rfl := Option.some.inj (hstep.symm.trans hstep')
    have hhooks := (sameSetup_of_run hpre).timersHooks.trans (boot_hooks hboot)
    have hhooks' := (machineStep_eq_some.mp hstep).sameSetup.timersHooks.trans hhooks
    have hv : v.chipset.dsp.iram = seededIram u.chipset.dsp.iram (hookEnv mem u) := by
      rw [machineStep_dsp (machineStep_eq_some.mp hstep) hhooks]
      change (dspTick ⟨u.chipset.dsp,false⟩ (hookEnv mem u)).regs.iram = _
      rw [dspTick_of_seeds hseeds]
    have ht : t.chipset.dsp.iram = v.chipset.dsp.iram := by
      rw [dsp_of_run hhooks' htail]
      exact iram_unseeded hpost
    obtain ⟨b,hb⟩ := Option.isSome_iff_exists.mp (hseeds.2.2 i.val hi)
    have hbyte : t.chipset.dsp.iram i = b := by
      rw [ht, hv, seededIram, if_pos hi, hb]
      rfl
    rw [hbyte]
    exact hb

/-- `mtspr` of DBAT0U: 32 MiB, so that the way back from physical addresses is right for
0x01000000. -/
def shrinkDbat0 : Trap := trapWith 0x7C7883A6#32 0x800003FF#32

/-- `sth` of 1 to CSR, a reset out of boot mode. -/
def seedDsp : Fault :=
  ⟨⟨7,0,0⟩,0xB0640000#32,⟨fun _ => 1#32,0,0xCC00500A#32,0x42000000#32⟩⟩

def markedMem : ProcessMem := ⟨fun _ o => if o = 0x01000003 then 0xAB#8 else 0#8,fun _ => some 0⟩

def seedStart : EmuState :=
  faulted zeroHardware (handled consoleKernel (started consoleKernel gcnBoot) shrinkDbat0) seedDsp

/-- The fourth byte of the IRAM is the one of MEM1. -/
theorem iram_of_boot_seeded : (sigalrmHandler markedMem seedStart).chipset.dsp.iram 3 = 0xAB#8 := by
  have hnil : Run (machineStep consoleKernel zeroHardware noBail) (fun _ _ => True)
    (started consoleKernel gcnBoot) [] _ := .nil
  have hpre := (hnil.snoc trivial (machineStep_eq_some.mpr (.sigill shrinkDbat0 (by decide)))).snoc
    trivial (machineStep_eq_some.mpr (.sigsegv seedDsp (by decide)))
  have hother : ∀ addr, (markedMem.other addr).isSome = true := fun _ => rfl
  have halarm : machineStep consoleKernel zeroHardware noBail seedStart (.sigalrm markedMem) =
      some (sigalrmHandler markedMem seedStart) :=
    machineStep_eq_some.mpr (.sigalrm markedMem (alarmFaults_of_readable hother _))
  have hseeds : Seeds seedStart.chipset.dsp (hookEnv markedMem seedStart) :=
    ⟨by decide,by decide,fun _ _ => markedMem.read_isSome hother _ _⟩
  have hlast := (iram_of_boot (boot_eq_started (by decide)) (hpre.snoc trivial halarm)).2.2.2 _ _ []
    _ _ rfl hpre halarm hseeds rfl 3 (by decide)
  have hread : markedMem.read seedStart.host.space
      ((memPhysToVirt seedStart 0x01000000#32 true).addr + BitVec.ofNat 32 3) = some 0xAB#8 := by
    decide
  exact Option.some.inj (hlast.symm.trans hread)

/-- If the guest counts its transfers in whole blocks of 32 bytes, in every state of every run
without an error an alarm is an error exactly when a reset is to seed the IRAM and the lookup does
not find MEM1, or a byte cannot be read where it finds it; in the second case the handler does not
come back. -/
theorem alarm_fatal_iff (hboot : boot k env = some s)
    (hrun : Run (machineStep k hw bail) (fun _ _ => True) s es t)
    (haligned : ∀ e ∈ dspEventsOf k hw bail s es, e.Aligned) (hok : t.fatalError = false)
    (mem : ProcessMem) :
    ((sigalrmHandler mem t).fatalError = true ↔
      SeedFails t.chipset.dsp (hookEnv mem t) ∨ SeedFaults t.chipset.dsp (hookEnv mem t)) ∧
    (machineStep k hw bail t (.sigalrm mem) = none ↔
      SeedFaults t.chipset.dsp (hookEnv mem t)) := by
  have hhooks := (sameSetup_of_run hrun).timersHooks.trans (boot_hooks hboot)
  have hblocks : WholeBlocks t.chipset.dsp := by
    rw [dspRun_of_boot hboot hrun]
    exact wholeBlocks_dspRun (d := ⟨dspInit env.iram,false⟩) BitVec.zero_and haligned
  have hmoves : ¬ BlockFails t.chipset.dsp := fun h => h.uneven hblocks
  constructor
  · have hflag : (sigalrmHandler mem t).fatalError = true ↔
        SeedFails t.chipset.dsp (hookEnv mem t) ∨ SeedFaults t.chipset.dsp (hookEnv mem t) ∨
          BlockFails t.chipset.dsp := by
      rw [sigalrmHandler_flag hhooks]
      exact dspTick_fatal_iff (d := ⟨t.chipset.dsp,t.fatalError⟩) hok (hookEnv mem t)
    rw [hflag]
    simp [hmoves]
  · rw [← alarmFaults_ready hhooks, machineStep]
    split_ifs with hfaults
    · simp [hfaults]
    · simp [hfaults]

def bareMem : ProcessMem := ⟨fun _ _ => 0,fun _ => none⟩

/-- A reset out of boot mode with the BATs of `main`: the lookup gives 0x8F000000 for MEM1, where
nothing is mapped. -/
theorem alarm_fatal_iff_faults : (sigalrmHandler bareMem
    (faulted zeroHardware (started consoleKernel gcnBoot) seedDsp)).fatalError = true := by
  have hnil : Run (machineStep consoleKernel zeroHardware noBail) (fun _ _ => True)
    (started consoleKernel gcnBoot) [] _ := .nil
  have hrun := hnil.snoc trivial (machineStep_eq_some.mpr (.sigsegv seedDsp (by decide)))
  have hcall : seedDsp.call (started consoleKernel gcnBoot) =
      some (.flipperWrite 0x0C00500A#32 1#32 2) := by decide
  have haligned : ∀ e ∈ dspEventsOf consoleKernel zeroHardware noBail
      (started consoleKernel gcnBoot) ([] ++ [.sigsegv seedDsp]), e.Aligned := by
    rw [dspEventsOf_snoc hnil, Signal.dspEvents, hcall]
    intro e he
    obtain rfl := List.mem_singleton.mp he
    rintro (⟨hw,-⟩ | ⟨-,ho⟩)
    · contradiction
    · revert ho
      decide
  exact (alarm_fatal_iff (boot_eq_started (by decide)) hrun haligned (by decide) bareMem).1.mpr
    (.inr ⟨by decide,by decide,0,by decide,by decide⟩)

/-- In every run from `main` the outgoing mailbox is empty but for its flag, and the flag is up
just when the guest has halted the DSP and resumed it, or raised the flag itself, and has not
lowered it since. -/
theorem mail_of_boot (hboot : boot k env = some s)
    (hrun : Run (machineStep k hw bail) (fun _ _ => True) s es t) :
    (t.chipset.dsp.outMboxH = 0#16 ∨ t.chipset.dsp.outMboxH = 0x8000#16) ∧
    t.chipset.dsp.outMboxL = 0#16 ∧
    (t.chipset.dsp.outMboxH = 0x8000#16 ↔ Announced (dspEventsOf k hw bail s es)) := by
  have hmail : MailOf t.chipset.dsp (mailRun ⟨false,false⟩ (dspEventsOf k hw bail s es)) := by
    rw [dspRun_of_boot hboot hrun]
    exact mailOf_dspRun (d := ⟨dspInit env.iram,false⟩) (mailOf_dspInit env.iram) _
  rw [hmail.high, ← announced_iff, MailState.flag]
  refine ⟨?_,hmail.low,?_⟩ <;>
    cases (mailRun ⟨false,false⟩ (dspEventsOf k hw bail s es)).announced <;> decide

/-- `sth` of 0x8000 to the outgoing mailbox. -/
def storeMail : Fault :=
  ⟨⟨7,0,0⟩,0xB0640000#32,⟨fun _ => 0x8000#32,0,0xCC005004#32,0x42000000#32⟩⟩

/-- The guest raises the flag itself. -/
theorem mail_of_boot_sth :
    (faulted zeroHardware (started consoleKernel gcnBoot) storeMail).chipset.dsp.outMboxH =
      0x8000#16 := by
  have hnil : Run (machineStep consoleKernel zeroHardware noBail) (fun _ _ => True)
    (started consoleKernel gcnBoot) [] _ := .nil
  have hrun := hnil.snoc trivial (machineStep_eq_some.mpr (.sigsegv storeMail (by decide)))
  have hcall : storeMail.call (started consoleKernel gcnBoot) =
      some (.flipperWrite 0x0C005004#32 0x8000#32 2) := by decide
  have hevents : dspEventsOf consoleKernel zeroHardware noBail (started consoleKernel gcnBoot)
      ([] ++ [.sigsegv storeMail]) = [.write 0x0C005004#32 0x8000#32 2] := by
    rw [dspEventsOf_snoc hnil, Signal.dspEvents, hcall]
    rfl
  refine (mail_of_boot (boot_eq_started (by decide)) hrun).2.2.mpr ?_
  rw [hevents]
  exact .inl ⟨[],_,[],0x8000#16,rfl,by decide,by decide,fun e he => absurd he List.not_mem_nil⟩

/-! A transfer. -/

/-- The event leaves a transfer to the timer hook: it neither resets nor halts the DSP, and it
writes none of the registers of the transfer. -/
structure DspEvent.KeepsTransfer (e : DspEvent) : Prop where
  restarts : ¬ e.Restarts
  halts : ¬ e.Halts
  apart : ∀ addr val w, e = .write addr val w →
    offset addr 0x00000FFF#32 < 0x020 ∨ 0x02C ≤ offset addr 0x00000FFF#32

lemma keepsTransfer_tick (h : HookEnv) : (DspEvent.tick h).KeepsTransfer := by
  refine ⟨?_,?_,fun addr val w h => DspEvent.noConfusion h⟩ <;>
    rintro ⟨v,hv,-⟩ <;> contradiction

def transferRegs (r : DspState) : Word × Bool × Word × Word :=
  (r.dmaSize,r.privDmaDir,r.privDmaSrcPtr,r.privDmaDestPtr)

lemma dspWrite_transfer {d : Device DspState} {addr val : Word} {w : ℤ}
    (hcsr : (DspEvent.write addr val w).csrValue = none)
    (hapart : offset addr 0x00000FFF#32 < 0x020 ∨ 0x02C ≤ offset addr 0x00000FFF#32) :
    transferRegs (dspWrite addr val w d).dev.regs = transferRegs d.regs := by
  simp only [DspEvent.csrValue, ite_eq_right_iff, reduceCtorEq, imp_false, not_and] at hcsr
  simp only [dspWrite]
  split
  · split <;> first | rfl | omega
  · split
    · rename_i hw
      split <;> try first | rfl | omega
      · split_ifs <;> rfl
      · split_ifs <;> rfl
      · split_ifs <;> rfl
    · split <;> rfl

/-- A running DSP moves a block at a tick, and nothing else touches the transfer. -/
lemma blocksMoved_dspRegsStep {r : DspState} {e : DspEvent} {n : ℕ} (htimer : r.privResetTimer = 0)
    (hhalt : r.privHalt = false) (hsize : (r.dmaSize &&& 0x7FFFFFFF#32).toNat = 32*n)
    (he : e.KeepsTransfer) :
    BlocksMoved (min (ticks [e]) n) ⟨r,false⟩ ⟨dspRegsStep r e,false⟩ ∧
      (dspRegsStep r e).privHalt = false := by
  have hstep : ∀ d' : Device DspState, dspStep ⟨r,false⟩ e = d' →
      BlocksMoved (min (ticks [e]) n) ⟨r,false⟩ d' →
      BlocksMoved (min (ticks [e]) n) ⟨r,false⟩ ⟨dspRegsStep r e,false⟩ := by
    rintro d' rfl h
    exact { h with fatalError := rfl }
  cases e with
  | tick t =>
    have hmoved := blocksMoved_dspStep (d := ⟨r,false⟩) htimer hsize (e := .tick t) (.inl rfl)
    refine ⟨hstep _ rfl ?_,(dspTick_control ⟨r,false⟩ t).1.trans hhalt⟩
    simpa [movesNow, hhalt, ticks, DspEvent.isTick] using hmoved
  | write addr val w =>
    have hnone : min (ticks [DspEvent.write addr val w]) n = 0 := by simp [ticks, DspEvent.isTick]
    rw [hnone] at hstep ⊢
    cases hcsr : (DspEvent.write addr val w).csrValue with
    | some v =>
      have hreset : v &&& dspCsrReset = 0#16 := by
        by_contra hne
        exact he.restarts ⟨v,hcsr,hne⟩
      have hrun : v &&& dspCsrHalt = 0#16 := by
        by_contra hne
        exact he.halts ⟨v,hcsr,hne⟩
      refine ⟨hstep _ (dspStep_csr hcsr _) (blocksMoved_dspWriteCsr hreset _),?_⟩
      rw [dspRegsStep, dspStep_csr hcsr]
      simpa using (dspWriteCsr_outMbox v r).2.2.not.mpr (not_not.mpr hrun)
    | none =>
      have hregs := dspWrite_transfer (d := ⟨r,false⟩) hcsr (he.apart addr val w rfl)
      simp only [transferRegs, Prod.mk.injEq] at hregs
      obtain ⟨hdma,hdir,hsrc,hdest⟩ := hregs
      have hsame := sameControl_write hcsr ⟨r,false⟩
      refine ⟨⟨?_,?_,hdir,?_,?_,hsame.timer,rfl⟩,hsame.halt.trans hhalt⟩
      · exact congrArg (fun s : Word => (s &&& 0x7FFFFFFF#32).toNat) hdma
      · exact congrArg (fun s : Word => s &&& 0x80000000#32) hdma
      · exact hsrc.trans (BitVec.add_zero _).symm
      · exact hdest.trans (BitVec.add_zero _).symm

lemma blocksMoved_foldl {r : DspState} {n : ℕ} {es : List DspEvent} (htimer : r.privResetTimer = 0)
    (hhalt : r.privHalt = false) (hsize : (r.dmaSize &&& 0x7FFFFFFF#32).toNat = 32*n)
    (hes : ∀ e ∈ es, e.KeepsTransfer) :
    BlocksMoved (min (ticks es) n) ⟨r,false⟩ ⟨es.foldl dspRegsStep r,false⟩ := by
  induction es generalizing r n with
  | nil =>
    rw [show ticks [] = 0 from rfl, Nat.zero_min]
    exact blocksMoved_zero _
  | cons e es ih =>
    rw [List.forall_mem_cons] at hes
    obtain ⟨hone,hhalt'⟩ := blocksMoved_dspRegsStep htimer hhalt hsize hes.1
    have hcount : ((dspRegsStep r e).dmaSize &&& 0x7FFFFFFF#32).toNat + 32 * min (ticks [e]) n =
        (r.dmaSize &&& 0x7FFFFFFF#32).toNat := hone.count
    have hleft : ((dspRegsStep r e).dmaSize &&& 0x7FFFFFFF#32).toNat =
        32*(n - min (ticks [e]) n) := by omega
    have hrest := ih (hone.timer.trans htimer) hhalt' hleft hes.2
    have hticks : ticks ([e] ++ es) = ticks [e] + ticks es := List.countP_append
    rw [List.singleton_append] at hticks
    have hsum : min (ticks (e::es)) n =
        min (ticks [e]) n + min (ticks es) (n - min (ticks [e]) n) := by omega
    rw [hsum]
    exact hone.trans hrest

/-- From `main` on, whatever instructions, faults and alarms come: a transfer of `n` blocks that
the guest has begun is finished behind `n` alarms and not before, and stays finished, as long as
the guest leaves it to the DSP. -/
theorem transfer_of_boot {n : ℕ} {es' : List Signal} {u : EmuState} (hboot : boot k env = some s)
    (hrun : Run (machineStep k hw bail) (fun _ _ => True) s es t)
    (htimer : t.chipset.dsp.privResetTimer = 0) (hhalt : t.chipset.dsp.privHalt = false)
    (hsize : (t.chipset.dsp.dmaSize &&& 0x7FFFFFFF#32).toNat = 32*n)
    (hrun' : Run (machineStep k hw bail) (fun _ _ => True) t es' u)
    (hes : ∀ e ∈ dspEventsOf k hw bail t es', e.KeepsTransfer) :
    let moved := min (ticksOf es') n
    (u.chipset.dsp.dmaSize &&& 0x7FFFFFFF#32).toNat = 32*(n - moved) ∧
    u.chipset.dsp.dmaSize &&& 0x80000000#32 = t.chipset.dsp.dmaSize &&& 0x80000000#32 ∧
    u.chipset.dsp.privDmaSrcPtr = t.chipset.dsp.privDmaSrcPtr + BitVec.ofNat 32 (32*moved) ∧
    u.chipset.dsp.privDmaDestPtr = t.chipset.dsp.privDmaDestPtr + BitVec.ofNat 32 (32*moved) := by
  have hhooks := (sameSetup_of_run hrun).timersHooks.trans (boot_hooks hboot)
  have hu : u.chipset.dsp = (dspEventsOf k hw bail t es').foldl dspRegsStep t.chipset.dsp := by
    rw [dsp_of_run hhooks hrun', dspRun_regs]
  have hmoved := blocksMoved_foldl htimer hhalt hsize hes
  rw [← hu, ticks_dspEventsOf hrun'] at hmoved
  have hcount : (u.chipset.dsp.dmaSize &&& 0x7FFFFFFF#32).toNat + 32 * min (ticksOf es') n =
      (t.chipset.dsp.dmaSize &&& 0x7FFFFFFF#32).toNat := hmoved.count
  exact ⟨by omega,hmoved.direction,hmoved.src,hmoved.dest⟩

/-- `stw` of one block to the count of a transfer. -/
def storeSize : Fault :=
  ⟨⟨7,0,0⟩,0x90640000#32,⟨fun _ => 32#32,0,0xCC005028#32,0x42000000#32⟩⟩

/-- One alarm behind the store, the count is zero. -/
theorem transfer_of_boot_stw : ((sigalrmHandler zeroMem (faulted zeroHardware
    (started consoleKernel gcnBoot) storeSize)).chipset.dsp.dmaSize &&& 0x7FFFFFFF#32).toNat =
      0 := by
  have hnil : Run (machineStep consoleKernel zeroHardware noBail) (fun _ _ => True)
    (started consoleKernel gcnBoot) [] _ := .nil
  have hrun := hnil.snoc trivial (machineStep_eq_some.mpr (.sigsegv storeSize (by decide)))
  have hnil' : Run (machineStep consoleKernel zeroHardware noBail) (fun _ _ => True)
    (faulted zeroHardware (started consoleKernel gcnBoot) storeSize) [] _ := .nil
  have hrun' := hnil'.snoc trivial
    (machineStep_eq_some.mpr (.sigalrm zeroMem (alarmFaults_zeroMem _)))
  refine (transfer_of_boot (n := 1) (boot_eq_started (by decide)) hrun (by decide) (by decide)
    (by decide) hrun' ?_).1
  intro e he
  rw [dspEventsOf_snoc hnil'] at he
  obtain rfl := List.mem_singleton.mp he
  exact keepsTransfer_tick _

end

end DolTools
