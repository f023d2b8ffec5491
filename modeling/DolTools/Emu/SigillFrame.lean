import DolTools.Emu.Decode
import DolTools.Emu.RegisterRuns
import DolTools.Mem.Devices

/-! What the handler of illegal instructions leaves alone: all but one register of the guest
and one of the emulated processor, and the whole chipset. -/
namespace DolTools

/-- One register of `E_State.cpu`. -/
inductive CpuCell
  | msr
  | spr (reg : SprReg)
  | pmc (i : Fin 4)
  | segment (i : Fin 16)
  deriving DecidableEq

namespace CpuCell

def get (c : CpuState) : CpuCell → Word
  | msr => c.msr
  | spr reg => reg.get c
  | pmc i => c.pmc i
  | segment i => c.segmentRegs i

variable {cell : CpuCell} {c : CpuState} {v : Word}

lemma get_msr (h : cell ≠ .msr) : cell.get { c with msr := v } = cell.get c := by
  cases cell with
  | msr => contradiction
  | spr reg =>
    cases reg with
    | bat reg => cases reg <;> rfl
    | _ => rfl
  | pmc i => rfl
  | segment i => rfl

lemma get_spr {reg : SprReg} (h : cell ≠ .spr reg) : cell.get (reg.set v c) = cell.get c := by
  cases cell with
  | msr => exact SprReg.set_msr reg v c
  | spr reg' =>
    have hne : reg' ≠ reg := fun heq => h (congrArg CpuCell.spr heq)
    change reg'.get (reg.set v c) = reg'.get c
    rw [SprReg.get_set, if_neg hne]
  | pmc i =>
    cases reg with
    | bat reg => cases reg <;> rfl
    | _ => rfl
  | segment i =>
    cases reg with
    | bat reg => cases reg <;> rfl
    | _ => rfl

lemma get_pmc {i : Fin 4} (h : cell ≠ .pmc i) :
    cell.get { c with pmc := Function.update c.pmc i v } = cell.get c := by
  cases cell with
  | pmc j =>
    have hne : j ≠ i := fun heq => h (congrArg CpuCell.pmc heq)
    exact Function.update_of_ne hne v c.pmc
  | spr reg =>
    cases reg with
    | bat reg => cases reg <;> rfl
    | _ => rfl
  | msr => rfl
  | segment i => rfl

lemma get_segment {i : Fin 16} (h : cell ≠ .segment i) :
    cell.get { c with segmentRegs := Function.update c.segmentRegs i v } = cell.get c := by
  cases cell with
  | segment j =>
    have hne : j ≠ i := fun heq => h (congrArg CpuCell.segment heq)
    exact Function.update_of_ne hne v c.segmentRegs
  | spr reg =>
    cases reg with
    | bat reg => cases reg <;> rfl
    | _ => rfl
  | msr => rfl
  | pmc i => rfl

end CpuCell

/-- At most one register differs. -/
def OneCell (c d : CpuState) : Prop :=
  ∃ cell : CpuCell, ∀ cell', cell' ≠ cell → cell'.get d = cell'.get c

section

variable {c d : CpuState} {s t : EmuState}

lemma oneCell_refl (c : CpuState) : OneCell c c := ⟨.msr,fun _ _ => rfl⟩

lemma SprWrite.oneCell {spr : ℕ} {val : Word} (h : SprWrite spr val s t) :
    OneCell s.cpu t.cpu := by
  cases h with
  | refused fatal cpu =>
    rw [cpu]
    exact oneCell_refl _
  | stored r number takes cpu fatal =>
    refine ⟨.spr r,fun cell hne => ?_⟩
    rw [cpu]
    exact CpuCell.get_spr hne
  | lowPower fatal cpu =>
    refine ⟨.spr .hid0,fun cell hne => ?_⟩
    rw [cpu]
    exact CpuCell.get_spr hne
  | counter i number cpu fatal =>
    refine ⟨.pmc i,fun cell hne => ?_⟩
    rw [cpu]
    exact CpuCell.get_pmc hne

lemma oneCell_msr {v : Word} (h : d = { c with msr := v }) : OneCell c d := by
  refine ⟨.msr,fun cell hne => ?_⟩
  rw [h]
  exact CpuCell.get_msr hne

/-- Every instruction changes at most one register, be it an error or not. -/
theorem emulate_oneCell (op : Emulated) (s : EmuState) (ctx : Context) :
    OneCell s.cpu (emulate op s ctx).1.cpu := by
  cases op with
  | mfspr regDest spr =>
    rw [show (emulate (.mfspr regDest spr) s ctx).1.cpu = s.cpu from mfspr_cpu spr s]
    exact oneCell_refl _
  | mtspr spr regSrc => exact (mtspr_sprWrite spr _ s).oneCell
  | mfmsr regDest => exact oneCell_refl _
  | mtmsr regSrc => exact oneCell_msr (v := ctx.gpr regSrc) (validateMsr_cpu _)
  | rfi => exact oneCell_msr (v := rfiMsr s.cpu) (validateMsr_cpu _)
  | mtsr segmentReg regSrc => exact ⟨.segment segmentReg,fun _ hne => CpuCell.get_segment hne⟩
  | mfsr regDest segmentReg => exact oneCell_refl _
  | dcbi => exact oneCell_refl _
  | unhandled => exact oneCell_refl _

lemma mtspr_devicesKept (spr : ℕ) (val : Word) (s : EmuState) :
    DevicesKept s (mtspr spr val s) := by
  unfold mtspr
  cases batSpr spr with
  | some x =>
    obtain ⟨reg,high⟩ := x
    exact .ite ⟨rfl,rfl,rfl,rfl⟩ ⟨rfl,rfl,rfl,rfl⟩
  | none =>
    change DevicesKept s (mtsprOther spr val s)
    unfold mtsprOther
    dsimp only
    repeat' apply DevicesKept.ite
    all_goals exact ⟨rfl,rfl,rfl,rfl⟩

lemma validateMsr_devicesKept (h : DevicesKept s t) : DevicesKept s (validateMsr t) := by
  rw [validateMsr_eq]
  exact ⟨h.hostType,h.chipset,h.timersHooks,h.forward⟩

theorem emulate_devicesKept (op : Emulated) (s : EmuState) (ctx : Context) :
    DevicesKept s (emulate op s ctx).1 := by
  cases op with
  | mfspr regDest spr =>
    rcases mfspr_snd spr s with h | h
    · change DevicesKept s (mfspr spr s).2
      rw [h]
      exact .refl s
    · change DevicesKept s (mfspr spr s).2
      rw [h]
      exact (DevicesKept.refl s).raise
  | mtspr spr regSrc => exact mtspr_devicesKept spr _ s
  | mtmsr regSrc => exact validateMsr_devicesKept ⟨rfl,rfl,rfl,rfl⟩
  | rfi => exact validateMsr_devicesKept ⟨rfl,rfl,rfl,rfl⟩
  | _ => exact ⟨rfl,rfl,rfl,rfl⟩

theorem handled_devicesKept {k : Kernel} {e : Trap} : DevicesKept s (handled k s e) := by
  have hstep : DevicesKept s (emulated s e) := emulate_devicesKept _ s e.ctx
  exact .ite (hstep.trans memMapFixups_devicesKept) hstep

end

/-- The instructions that load a register of the guest. -/
def Emulated.LoadsGpr : Emulated → Prop
  | .mfspr .. | .mfmsr .. | .mfsr .. => True
  | _ => False

/-- What the handler may change when it ends without an error. -/
structure IllegalFrame (val : Word) (s : EmuState) (ctx : Context) (t : EmuState)
    (ctx' : Context) : Prop where
  pc : ctx'.nip = if val = rfiWord then s.cpu.srr0 &&& ~~~3#32 else ctx.nip + 4#32
  gpr : ∀ r, ctx'.gpr r ≠ ctx.gpr r → r = archReg val ∧ (decodeIllegal val).LoadsGpr
  cpu : OneCell s.cpu t.cpu
  chipset : t.chipset = s.chipset

section

variable {k : Kernel} {vaddr val : Word} {bail : BailOut} {s t : EmuState} {ctx ctx' : Context}

lemma hasOpcode_rfiWord (xo : Word) : hasOpcode rfiWord xo = false := by
  have hop : ((rfiWord &&& 0xFC000000#32) >>> 26 == 31#32) = false := by decide
  rw [hasOpcode, hop, Bool.and_false]

/-- The chain of tests finds `rfi` at its one word only. -/
lemma decodeIllegal_rfi_iff (val : Word) : decodeIllegal val = .rfi ↔ val = rfiWord := by
  constructor
  · intro h
    unfold decodeIllegal at h
    split_ifs at h with _ _ _ _ hrfi
    exact hrfi
  · rintro rfl
    simp [decodeIllegal, hasOpcode_rfiWord]

/-- The register that a decoded instruction loads is the one its word names. -/
lemma decodeIllegal_regDest (val : Word) :
    (∀ r spr, decodeIllegal val = .mfspr r spr → r = archReg val) ∧
      (∀ r, decodeIllegal val = .mfmsr r → r = archReg val) ∧
      (∀ r sr, decodeIllegal val = .mfsr r sr → r = archReg val) := by
  rw [← regField_eq]
  refine ⟨?_,?_,?_⟩
  · intro r spr h
    unfold decodeIllegal at h
    split_ifs at h
    cases h
    rfl
  · intro r h
    unfold decodeIllegal at h
    split_ifs at h
    cases h
    rfl
  · intro r sr h
    unfold decodeIllegal at h
    split_ifs at h
    cases h
    rfl

/-- The program counter and the registers of the guest behind the branches. -/
lemma emulate_ctx {op : Emulated} (hok : (emulate op s ctx).1.fatalError = false) :
    (emulate op s ctx).2.nip = (if op = .rfi then s.cpu.srr0 &&& ~~~3#32 else ctx.nip + 4#32) ∧
      ∀ r, (emulate op s ctx).2.gpr r ≠ ctx.gpr r →
        op.LoadsGpr ∧ ((∃ spr, op = .mfspr r spr) ∨ op = .mfmsr r ∨ ∃ sr, op = .mfsr r sr) := by
  have hset : ∀ (regDest r : Fin 32) (v : Word),
      ((ctx.setGpr regDest v).next).gpr r ≠ ctx.gpr r → r = regDest := by
    intro regDest r v hne
    by_contra heq
    exact hne (by simp [Context.next, Context.setGpr, heq])
  cases op with
  | mfspr regDest spr =>
    refine ⟨rfl,fun r hne => ⟨trivial,.inl ⟨spr,?_⟩⟩⟩
    rw [hset regDest r _ hne]
  | mfmsr regDest =>
    refine ⟨rfl,fun r hne => ⟨trivial,.inr (.inl ?_)⟩⟩
    rw [hset regDest r _ hne]
  | mfsr regDest segmentReg =>
    refine ⟨rfl,fun r hne => ⟨trivial,.inr (.inr ⟨segmentReg,?_⟩)⟩⟩
    rw [hset regDest r _ hne]
  | unhandled => contradiction
  | _ => exact ⟨rfl,fun r hne => absurd rfl hne⟩

lemma sigillFinish_snd {msr : Word}
    (hok : (sigillFinish k vaddr bail msr s ctx).1.fatalError = false) :
    (sigillFinish k vaddr bail msr s ctx).2 = ctx := by
  rw [sigillFinish_fst] at hok
  unfold sigillFinish
  dsimp only
  rw [hok]
  rfl

/-- The handler runs the emulation, fixes up the map, and keeps the context unless it bails
out. -/
lemma sigillHandler_eq_some (h : sigillHandler k vaddr bail val s ctx = some (t,ctx')) :
    t = handled k s ⟨val,ctx,vaddr⟩ ∧
      (t.fatalError = false → ctx' = (emulate (decodeIllegal val) s ctx).2) := by
  have hstep : sigillStep k bail s ⟨val,ctx,vaddr⟩ = some t := by
    rw [sigillStep]
    change (sigillHandler k vaddr bail val s ctx).map _ = _
    rw [h]
    rfl
  refine ⟨(sigillStep_eq_some.mp hstep).2,?_⟩
  intro hok
  unfold sigillHandler at h
  split at h
  · contradiction
  · have hpair := Option.some.inj h
    have hfst := congrArg Prod.fst hpair
    have hsnd := congrArg Prod.snd hpair
    dsimp only at hfst hsnd
    rw [← hsnd]
    exact sigillFinish_snd (by rw [hfst, hok])

lemma illegalFrame (h : sigillHandler k vaddr bail val s ctx = some (t,ctx'))
    (hok : t.fatalError = false) : IllegalFrame val s ctx t ctx' := by
  obtain ⟨rfl,hctx⟩ := sigillHandler_eq_some h
  rw [hctx hok]
  have hok' : (emulated s ⟨val,ctx,vaddr⟩).fatalError = false := handled_ok hok
  obtain ⟨hpc,hgpr⟩ := emulate_ctx hok'
  refine ⟨?_,?_,?_,handled_devicesKept.chipset⟩
  · rw [hpc]
    simp only [decodeIllegal_rfi_iff]
  · intro r hne
    obtain ⟨hloads,hop⟩ := hgpr r hne
    obtain ⟨hmfspr,hmfmsr,hmfsr⟩ := decodeIllegal_regDest val
    refine ⟨?_,hloads⟩
    rcases hop with ⟨spr,hop⟩ | hop | ⟨sr,hop⟩
    · exact hmfspr r spr hop
    · exact hmfmsr r hop
    · exact hmfsr r sr hop
  · rw [handled_cpu]
    exact emulate_oneCell _ s ctx

lemma segment_lt (val : Word) : ((val &&& 0x000F0000#32) >>> 16).toNat < 16 := by
  rw [segmentBits_eq]
  exact Nat.lt_succ_of_le (AlignedBlock.toNat_and_le _ 15#32)

/-- The frame of the handler: without an error the program counter, one register of the guest
and one of the processor at most; the segment number is always in range; and a word that is
not recognised is an error that changes no register of the processor. -/
theorem sigillHandler_frame (h : sigillHandler k vaddr bail val s ctx = some (t,ctx')) :
    (t.fatalError = false → IllegalFrame val s ctx t ctx') ∧
      ((val &&& 0x000F0000#32) >>> 16).toNat < 16 ∧
      (decodeIllegal val = .unhandled → t.fatalError = true ∧ t.cpu = s.cpu) := by
  refine ⟨illegalFrame h,segment_lt val,?_⟩
  intro hop
  obtain ⟨rfl,-⟩ := sigillHandler_eq_some h
  have hfatal : (emulated s ⟨val,ctx,vaddr⟩).fatalError = true := by
    rw [emulated, hop]
    rfl
  refine ⟨?_,?_⟩
  · by_contra hok
    rw [handled_ok ((Bool.not_eq_true _).mp hok)] at hfatal
    contradiction
  · rw [handled_cpu, emulated, hop]
    rfl

end

/-- `mfmsr r4` in the state of static storage. -/
theorem sigillHandler_frame_mfmsr :
    IllegalFrame 0x7C8000A6#32 .zero (trapWith 0x7C8000A6#32 7#32).ctx .zero
      ((trapWith 0x7C8000A6#32 7#32).ctx.setGpr 4 0).next := by
  have hdecode : decodeIllegal 0x7C8000A6#32 = .mfmsr 4 := by decide
  have h : sigillHandler consoleKernel 0 noBail 0x7C8000A6#32 .zero
      (trapWith 0x7C8000A6#32 7#32).ctx =
        some (.zero,((trapWith 0x7C8000A6#32 7#32).ctx.setGpr 4 0).next) := by
    rw [sigillHandler, hdecode]
    rfl
  exact (sigillHandler_frame h).1 rfl

end DolTools
