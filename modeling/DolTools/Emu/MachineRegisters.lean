import DolTools.Emu.HighBats
import DolTools.Emu.Ticks

/-! The registers of the processor over whole runs of the emulator. Faulting accesses and alarms
leave them alone but for the decrementer, so that what holds of instructions holds of every run,
and an SPR shows the last write to it whatever lies between. -/
namespace DolTools
open Runs Views

section

variable {k : Kernel} {hw : Hardware} {bail : BailOut} {env : BootEnv} {s t m : EmuState}
  {es : List Signal}

/-! From `main`. -/

lemma boot_msr (h : boot k env = some s) : s.cpu.msr = 0 ∨ s.cpu.msr = msrIr ||| msrDr := by
  have hstart : (bootStart env).cpu.msr = 0 ∨ (bootStart env).cpu.msr = msrIr ||| msrDr := by
    rw [bootStart_cpu]
    cases env.usePhys
    · exact .inr rfl
    · exact .inl rfl
  have hmem : (memInit k env.vaddr env.mem (bootStart env)).2.cpu.msr =
      (bootStart env).cpu.msr := by
    rw [memInit_cpu]
    exact (memRegions_step env.mem (bootStart env)).msr
  obtain ⟨u,hu,-,-,hs⟩ := boot_eq_some h
  rw [hs.msr]
  unfold bootRemap
  split_ifs
  · rw [memMapFixups_cpu]
    exact .inl rfl
  · rw [hu.msr, hmem]
    exact hstart

/-- What a signal does to the registers. -/
lemma machineStep_registerChange {e : Signal} (h : MachineStep k hw s e t) :
    (∃ x, e = .sigill x ∧ RegisterChange s (emulated s x) ∧ t.cpu = (emulated s x).cpu ∧
      (t.fatalError = false → (emulated s x).fatalError = false)) ∨
    t.cpu = { s.cpu with decrementer := t.cpu.decrementer } := by
  cases h with
  | sigill x ok =>
    exact .inl ⟨x,rfl,emulated_registerChange s x,handled_cpu k s x,handled_ok⟩
  | sigsegv f ok =>
    right
    rw [faultStep_faulted.rest]
  | sigalrm mem back =>
    right
    rw [sigalrmHandler_tickStep.rest]

lemma machineStep_reservedBits {e : Signal} (h : MachineStep k hw s e t)
    (hs : ReservedBits s.cpu) : ReservedBits t.cpu := by
  rcases machineStep_registerChange h with ⟨x,-,hchange,hcpu,-⟩ | hcpu
  · rw [hcpu]
    exact hchange.reservedBits hs
  · rw [hcpu]
    exact { hs with }

lemma machineStep_msrSafe {e : Signal} (h : MachineStep k hw s e t) (hs : MsrSafe s.cpu)
    (ht : t.fatalError = false) : MsrSafe t.cpu := by
  rcases machineStep_registerChange h with ⟨x,-,hchange,hcpu,hok⟩ | hcpu
  · rw [hcpu]
    exact hchange.msrSafe hs (hok ht)
  · rw [hcpu]
    exact ⟨hs.translation,hs.power⟩

lemma run_instructions {xs : List Trap} (h : Run (sigillStep k bail) (fun _ _ => True) s xs t) :
    t = instructions k s xs := by
  induction h with
  | nil => rfl
  | @snoc xs u x t head ok next ih =>
    rw [instructions_concat, ← ih]
    exact (sigillStep_eq_some.mp next).2

lemma BatReg.get_dec (reg : BatReg) (c : CpuState) (dec : Word) :
    reg.get { c with decrementer := dec } = reg.get c := by
  cases reg <;> rfl

/-- The promises of the initialisation in every state of every run: the reserved bits are fixed,
without an error translation and power management are consistent, and the higher BATs are out of
reach, on a GameCube for good and on a Wii until the guest asks for them. -/
theorem registers_of_boot (hboot : boot k env = some s)
    (hrun : Run (machineStep k hw bail) (fun _ _ => True) s es t) :
    ReservedBits t.cpu ∧ (t.fatalError = false → MsrSafe t.cpu) ∧
    (env.consoleType = .gamecube → ∀ reg : BatReg, reg.high = true → reg.get t.cpu = 0) ∧
    (env.consoleType = .wii → (∀ x ∈ es.filterMap Signal.trap, ¬ x.SetsSbe) →
      ∀ reg : BatReg, reg.high = true → reg.get t.cpu = reg.get s.cpu) := by
  obtain ⟨u,hu⟩ := boot_eq_cpuInit hboot
  refine ⟨?_,?_,?_⟩
  · apply hrun.invariant
    · rw [hu]
      exact cpuInit_reservedBits u
    · intro s e t hs _ hnext
      exact machineStep_reservedBits (machineStep_eq_some.mp hnext) hs
  · have hmsr := boot_msr hboot
    have hinv : t.fatalError = false → MsrSafe t.cpu := by
      apply hrun.invariant
      · intro _
        rw [hu, (cpuInit_initStep u).msr] at hmsr
        rw [hu]
        exact cpuInit_msrSafe hmsr
      · intro s e t hs _ hnext ht
        have hstep := machineStep_eq_some.mp hnext
        have hok : s.fatalError = false := by
          by_contra hne
          rw [hstep.fatal (by simpa using hne)] at ht
          contradiction
        exact machineStep_msrSafe hstep (hs hok) ht
    exact hinv
  · obtain ⟨v,hv,hcore⟩ := trapRun hrun
    have hcpu : ∀ reg : BatReg, reg.get t.cpu = reg.get v.cpu := by
      intro reg
      rw [core_eq_iff.mp hcore.core.symm]
      exact reg.get_dec v.cpu t.cpu.decrementer
    have hgated := boot_highBatsGated hboot (es.filterMap Signal.trap)
    have hstart := boot_highBatsGated hboot []
    rw [← run_instructions hv] at hgated
    refine ⟨?_,?_⟩
    · intro hc reg hreg
      rw [hcpu]
      exact (hgated.gamecube hc).1 reg hreg
    · intro hc hes reg hreg
      rw [hcpu, hgated.unwritten hc hes reg hreg]
      exact (hstart.unwritten hc (fun _ h => absurd h List.not_mem_nil) reg hreg).symm

/-- Behind a write of DBAT2U, a reset of the DSP and an alarm. -/
theorem registers_of_boot_trial : ReservedBits trialEnd.cpu ∧ trialEnd.cpu.dbatu 5 = 0 := by
  obtain ⟨hreserved,-,hgcn,-⟩ := registers_of_boot (boot_eq_started (by decide)) trialEnd_run
  exact ⟨hreserved,hgcn rfl (.dbatu 5) rfl⟩

/-! The SPRs. -/

/-- The SPR number and the value of a write. -/
def Signal.setsSpr : Signal → Option (ℕ × Word)
  | .sigill x =>
    match decodeIllegal x.val with
    | .mtspr spr regSrc => some (spr,x.ctx.gpr regSrc)
    | _ => none
  | _ => none

lemma SprReg.get_msr (r : SprReg) (c : CpuState) (v : Word) :
    r.get { c with msr := v } = r.get c := by
  cases r with
  | bat reg => cases reg <;> rfl
  | _ => rfl

lemma SprReg.get_segments (r : SprReg) (c : CpuState) (regs : Fin 16 → Word) :
    r.get { c with segmentRegs := regs } = r.get c := by
  cases r with
  | bat reg => cases reg <;> rfl
  | _ => rfl

lemma SprReg.get_dec {r : SprReg} (h : r ≠ .dec) (c : CpuState) (dec : Word) :
    r.get { c with decrementer := dec } = r.get c := by
  cases r with
  | dec => exact absurd rfl h
  | bat reg => exact reg.get_dec c dec
  | _ => rfl

/-- An instruction changes the SPRs by its write alone. -/
lemma get_emulated {x : Trap} (r : SprReg) (hok : (emulated s x).fatalError = false) :
    r.get (emulated s x).cpu = ((Signal.sigill x).setsSpr.elim (r.get s.cpu)
      (fun op => if r.spr = op.1 then r.rule op.2 s.cpu else r.get s.cpu)) := by
  unfold emulated at hok ⊢
  unfold Signal.setsSpr
  dsimp only
  cases hop : decodeIllegal x.val with
  | mfspr regDest spr => exact congrArg r.get (mfspr_cpu spr s)
  | mtspr spr regSrc =>
    rw [hop] at hok
    exact get_mtspr r hok
  | mtmsr regSrc =>
    refine (congrArg r.get (mtmsr_spec _ s).2).trans ?_
    exact r.get_msr s.cpu _
  | rfi =>
    refine (congrArg r.get (validateMsr_cpu _)).trans ?_
    exact r.get_msr s.cpu _
  | mtsr segmentReg regSrc => exact r.get_segments s.cpu _
  | _ => rfl

lemma get_machineStep {r : SprReg} {e : Signal} (hr : r ≠ .dec) (h : MachineStep k hw s e t)
    (ht : t.fatalError = false) : r.get t.cpu = (e.setsSpr.elim (r.get s.cpu)
      (fun op => if r.spr = op.1 then r.rule op.2 s.cpu else r.get s.cpu)) := by
  cases h with
  | sigill x ok =>
    rw [handled_cpu]
    exact get_emulated r (handled_ok ht)
  | sigsegv f ok =>
    have hcpu : (faulted hw s f).cpu = s.cpu := by
      rw [faultStep_faulted.rest]
    exact congrArg r.get hcpu
  | sigalrm mem back =>
    rw [sigalrmHandler_tickStep.rest]
    exact SprReg.get_dec hr s.cpu _

/-- Without an error at its end a run has none before. -/
lemma ok_run (hrun : Run (machineStep k hw bail) (fun _ _ => True) s es t)
    (ht : t.fatalError = false) : Run (machineStep k hw bail)
      (fun s e => ∀ t, machineStep k hw bail s e = some t → t.fatalError = false) s es t := by
  refine (hrun.backwards ht ?_).mono (fun s e h => h.2)
  intro s e t hnext hok
  by_contra hne
  rw [(machineStep_eq_some.mp hnext).fatal (by simpa using hne)] at hok
  contradiction

lemma sprRun {r : SprReg} {pre post : List Signal} {e : Signal} {val : Word}
    (hr : r ≠ .dec) (hrun : Run (machineStep k hw bail) (fun _ _ => True) s (pre ++ e::post) t)
    (hok : t.fatalError = false) (he : e.setsSpr = some (r.spr,val))
    (hpost : ∀ f ∈ post, ¬ ∃ v, f.setsSpr = some (r.spr,v)) :
    ∃ m, Run (machineStep k hw bail) (fun _ _ => True) s pre m ∧
      r.get t.cpu = r.rule val m.cpu := by
  obtain ⟨m,u,hpre,hm,hnext,htail⟩ := (ok_run hrun hok).at_event
  have hwrite : r.get u.cpu = r.rule val m.cpu := by
    rw [get_machineStep hr (machineStep_eq_some.mp hnext) (hm u hnext), he]
    exact if_pos rfl
  have hkeep : r.get t.cpu = r.get u.cpu := by
    refine htail.frame (fun s : EmuState => r.get s.cpu) ?_ hpost
    intro s f t hs hf hnext'
    rw [get_machineStep hr (machineStep_eq_some.mp hnext') (hs t hnext')]
    cases hset : f.setsSpr with
    | none => rfl
    | some op =>
      have hne : r.spr ≠ op.1 := fun h => hf ⟨op.2,by rw [h, hset]⟩
      exact if_neg hne
  exact ⟨m,hpre.mono (fun _ _ _ => trivial),hkeep.trans hwrite⟩

/-- Every SPR that can be read, but for the decrementer, shows the last write to it after its bit
rules, whatever instructions, faults and alarms have come since, and `mfspr` loads that value. -/
theorem spr_of_run {r : SprReg} {pre post : List Signal} {e : Signal} {val : Word}
    (hr : r ≠ .dec) (hrun : Run (machineStep k hw bail) (fun _ _ => True) s (pre ++ e::post) t)
    (hok : t.fatalError = false) (he : e.setsSpr = some (r.spr,val))
    (hpost : ∀ f ∈ post, ¬ ∃ v, f.setsSpr = some (r.spr,v)) :
    ∃ m, Run (machineStep k hw bail) (fun _ _ => True) s pre m ∧
      r.get t.cpu = r.rule val m.cpu ∧
      ∀ regDest ctx, SprAccessible t r.spr →
        (emulate (.mfspr regDest r.spr) t ctx).2.gpr regDest = r.rule val m.cpu := by
  obtain ⟨m,hpre,hlast⟩ := sprRun hr hrun hok he hpost
  refine ⟨m,hpre,hlast,?_⟩
  intro regDest ctx ha
  have hload : (emulate (.mfspr regDest r.spr) t ctx).2.gpr regDest = (mfspr r.spr t).1 :=
    Function.update_self regDest _ ctx.gpr
  rw [hload, mfspr_spr ha, hlast]

/-- SPRG0 written on a GameCube, and an alarm. -/
theorem spr_of_run_sprg0 : (sigalrmHandler zeroMem (handled consoleKernel
    (started consoleKernel gcnBoot) (trapWith 0x7C7043A6#32 5#32))).cpu.sprg 0 = 5#32 := by
  have hnil : Run (machineStep consoleKernel zeroHardware noBail) (fun _ _ => True)
    (started consoleKernel gcnBoot) [] _ := .nil
  have hrun : Run (machineStep consoleKernel zeroHardware noBail) (fun _ _ => True)
      (started consoleKernel gcnBoot)
      ([] ++ .sigill (trapWith 0x7C7043A6#32 5#32)::[.sigalrm zeroMem])
      (sigalrmHandler zeroMem (handled consoleKernel
        (started consoleKernel gcnBoot) (trapWith 0x7C7043A6#32 5#32))) :=
    (hnil.snoc trivial (machineStep_eq_some.mpr
      (.sigill (trapWith 0x7C7043A6#32 5#32) (by decide)))).snoc trivial
        (machineStep_eq_some.mpr (.sigalrm zeroMem (alarmFaults_zeroMem _)))
  have hset : (Signal.sigill (trapWith 0x7C7043A6#32 5#32)).setsSpr =
      some (SprReg.spr (.sprg 0),5#32) := by decide
  obtain ⟨m,-,hget,-⟩ := spr_of_run (by decide) hrun (by decide) hset (by simp [Signal.setsSpr])
  exact hget

/-! MSR. -/

/-- Without `mtmsr` a step leaves MSR alone or returns from an exception. -/
lemma machineStep_msr {e : Signal} (h : MachineStep k hw s e t)
    (he : ∀ x, e = .sigill x → ∀ regSrc, decodeIllegal x.val ≠ .mtmsr regSrc) :
    t.cpu.msr = s.cpu.msr ∨ t.cpu.msr = rfiMsr s.cpu := by
  cases h with
  | sigill x ok =>
    rw [handled_cpu]
    unfold emulated
    have hno := he x rfl
    cases hop : decodeIllegal x.val with
    | mfspr regDest spr => exact .inl (congrArg CpuState.msr (mfspr_cpu spr s))
    | mtspr spr regSrc =>
      left
      change (mtspr spr (x.ctx.gpr regSrc) s).cpu.msr = s.cpu.msr
      cases mtspr_sprWrite spr (x.ctx.gpr regSrc) s with
      | refused fatal cpu => rw [cpu]
      | stored r number takes cpu fatal => rw [cpu, SprReg.set_msr]
      | lowPower fatal cpu => rw [cpu]
      | counter i number cpu fatal => rw [cpu]
    | mtmsr regSrc => exact absurd hop (hno regSrc)
    | rfi => exact .inr (congrArg CpuState.msr (validateMsr_cpu _))
    | _ => exact .inl rfl
  | sigsegv f ok =>
    left
    rw [faultStep_faulted.rest]
  | sigalrm mem back =>
    left
    rw [sigalrmHandler_tickStep.rest]

/-- The bits that a return from an exception takes over from SRR1 or clears. -/
def rfiBits : Word := rfiMask ||| msrPow

lemma rfiMsr_bits (c : CpuState) :
    rfiMsr c &&& ~~~rfiBits = c.msr &&& ~~~rfiBits ∧ rfiMsr c &&& msrPow = 0 := by
  have hmask : ~~~rfiMask &&& (~~~msrPow &&& ~~~rfiBits) = ~~~rfiBits := by decide
  have hnone : rfiMask &&& (~~~msrPow &&& ~~~rfiBits) = 0 := by decide
  have hpow : ~~~msrPow &&& msrPow = 0 := by decide
  refine ⟨?_,?_⟩
  · rw [rfiMsr, BitVec.and_assoc, BitVec.and_or_distrib_right, BitVec.and_assoc, BitVec.and_assoc,
      hmask, hnone]
    simp
  · rw [rfiMsr, BitVec.and_assoc, hpow]
    exact BitVec.and_zero

/-- Returns from exceptions alone reach no bit of MSR but those of their mask, and never set
POW. -/
theorem msr_of_run (hrun : Run (machineStep k hw bail) (fun _ _ => True) s es t)
    (hes : ∀ x ∈ es.filterMap Signal.trap, ∀ regSrc, decodeIllegal x.val ≠ .mtmsr regSrc) :
    t.cpu.msr &&& ~~~rfiBits = s.cpu.msr &&& ~~~rfiBits ∧
      (t.cpu.msr &&& msrPow = s.cpu.msr &&& msrPow ∨ t.cpu.msr &&& msrPow = 0) := by
  induction hrun with
  | nil => exact ⟨rfl,.inl rfl⟩
  | @snoc es m e t head ok next ih =>
    rw [List.filterMap_append] at hes
    obtain ⟨hbits,hpow⟩ := ih (fun x hx => hes x (List.mem_append_left _ hx))
    have he : ∀ x, e = .sigill x → ∀ regSrc, decodeIllegal x.val ≠ .mtmsr regSrc := by
      rintro x rfl
      exact hes x (List.mem_append_right _ (List.mem_singleton_self x))
    rcases machineStep_msr (machineStep_eq_some.mp next) he with hmsr | hmsr
    · rw [hmsr]
      exact ⟨hbits,hpow⟩
    · rw [hmsr]
      exact ⟨(rfiMsr_bits m.cpu).1.trans hbits,.inr (rfiMsr_bits m.cpu).2⟩

/-- An `rfi` with zero in SRR1. -/
theorem msr_of_run_rfi :
    (handled consoleKernel (started consoleKernel gcnBoot) (trapWith rfiWord 0)).cpu.msr &&&
      ~~~rfiBits = (started consoleKernel gcnBoot).cpu.msr &&& ~~~rfiBits := by
  have hnil : Run (machineStep consoleKernel zeroHardware noBail) (fun _ _ => True)
    (started consoleKernel gcnBoot) [] _ := .nil
  have hrun := hnil.snoc trivial (machineStep_eq_some.mpr
    (.sigill (trapWith rfiWord 0) (by decide)))
  refine (msr_of_run hrun ?_).1
  intro x hx regSrc
  obtain rfl := List.mem_singleton.mp hx
  change decodeIllegal rfiWord ≠ _
  rw [show decodeIllegal rfiWord = .rfi by decide]
  exact Emulated.noConfusion

/-- `rfi` goes where the last write of SRR0 says, whatever has come since, and takes the bits of
its mask over from the last write of SRR1. Where the new MSR is refused or the map cannot be fixed
up for it, the handler leaves that MSR and sends the guest to the bail-out instead. -/
theorem rfi_of_run {pre post pre' post' : List Signal} {e e' : Signal} {addr msr : Word}
    (hrun : Run (machineStep k hw bail) (fun _ _ => True) s es t) (hok : t.fatalError = false)
    (hsrr0 : es = pre ++ e::post) (he : e.setsSpr = some (sprSrr0,addr))
    (hpost : ∀ f ∈ post, ¬ ∃ v, f.setsSpr = some (sprSrr0,v))
    (hsrr1 : es = pre' ++ e'::post') (he' : e'.setsSpr = some (sprSrr1,msr))
    (hpost' : ∀ f ∈ post', ¬ ∃ v, f.setsSpr = some (sprSrr1,v)) (ctx : Context) :
    (emulate .rfi t ctx).2 = { ctx with nip := addr &&& ~~~3#32 } ∧
      (emulate .rfi t ctx).1.cpu.msr =
        ((t.cpu.msr &&& ~~~rfiMask) ||| (msr &&& rfiMask)) &&& ~~~msrPow ∧
      ∀ vaddr, ∃ u, sigillHandler k vaddr bail rfiWord t ctx =
          some (u,if u.fatalError then bail.recover { ctx with nip := addr &&& ~~~3#32 }
            else { ctx with nip := addr &&& ~~~3#32 }) ∧
        u.cpu.msr = ((t.cpu.msr &&& ~~~rfiMask) ||| (msr &&& rfiMask)) &&& ~~~msrPow := by
  rw [hsrr0] at hrun
  obtain ⟨m₀,-,haddr⟩ := sprRun (r := .srr0) (by decide) hrun hok he hpost
  rw [← hsrr0, hsrr1] at hrun
  obtain ⟨m₁,-,hmsr⟩ := sprRun (r := .srr1) (by decide) hrun hok he' hpost'
  change t.cpu.srr0 = addr at haddr
  change t.cpu.srr1 = msr at hmsr
  have hrfi : (emulate .rfi t ctx).1.cpu.msr =
      ((t.cpu.msr &&& ~~~rfiMask) ||| (msr &&& rfiMask)) &&& ~~~msrPow := by
    rw [← hmsr]
    exact congrArg CpuState.msr (validateMsr_cpu _)
  have hctx : (emulate .rfi t ctx).2 = { ctx with nip := addr &&& ~~~3#32 } := by
    rw [← haddr]
    rfl
  refine ⟨hctx,hrfi,?_⟩
  intro vaddr
  have hdecode : decodeIllegal rfiWord = .rfi := by decide
  have hhandler : sigillHandler k vaddr bail rfiWord t ctx = _ :=
    sigillHandler_eq vaddr rfiWord ctx hok
  rw [hdecode, hctx] at hhandler
  refine ⟨_,hhandler,?_⟩
  rw [handled_cpu]
  unfold emulated
  rw [hdecode, hrfi]

/-- SRR0 and SRR1 written on a GameCube. -/
theorem rfi_of_run_gcn : (emulate .rfi (handled consoleKernel
    (handled consoleKernel (started consoleKernel gcnBoot) (trapWith 0x7C1A03A6#32 0x80003102#32))
      (trapWith 0x7C1B03A6#32 0x30#32)) ⟨fun _ => 0,0,0,0⟩).2.nip = 0x80003100#32 := by
  have hnil : Run (machineStep consoleKernel zeroHardware noBail) (fun _ _ => True)
    (started consoleKernel gcnBoot) [] _ := .nil
  have hrun := (hnil.snoc trivial (machineStep_eq_some.mpr
    (.sigill (trapWith 0x7C1A03A6#32 0x80003102#32) (by decide)))).snoc trivial
      (machineStep_eq_some.mpr (.sigill (trapWith 0x7C1B03A6#32 0x30#32) (by decide)))
  have hsrr0 : (Signal.sigill (trapWith 0x7C1A03A6#32 0x80003102#32)).setsSpr =
    some (sprSrr0,0x80003102#32) := by decide
  have hsrr1 : (Signal.sigill (trapWith 0x7C1B03A6#32 0x30#32)).setsSpr =
    some (sprSrr1,0x30#32) := by decide
  have hother : ∀ f ∈ [Signal.sigill (trapWith 0x7C1B03A6#32 0x30#32)],
      ¬ ∃ v, f.setsSpr = some (sprSrr0,v) := by
    intro f hf
    rw [List.mem_singleton.mp hf, hsrr1]
    rintro ⟨v,hv⟩
    have hnumber : sprSrr1 = sprSrr0 := congrArg Prod.fst (Option.some.inj hv)
    contradiction
  have hsplit : [] ++ [Signal.sigill (trapWith 0x7C1A03A6#32 0x80003102#32)] ++
    [.sigill (trapWith 0x7C1B03A6#32 0x30#32)] =
      [] ++ .sigill (trapWith 0x7C1A03A6#32 0x80003102#32)::
        [.sigill (trapWith 0x7C1B03A6#32 0x30#32)] := rfl
  have hlast := rfi_of_run hrun (by decide) hsplit hsrr0 hother rfl hsrr1
    (fun f hf => absurd hf List.not_mem_nil) ⟨fun _ => 0,0,0,0⟩
  exact congrArg Context.nip hlast.1

end

end DolTools
