import DolTools.Mmio.DspDma
import DolTools.Mmio.Unimplemented

/-! The error flag at the devices. Whether an access raises it is said by the width and the
register alone, and what becomes of the registers does not depend on it. -/
namespace DolTools

instance (b : RegisterBlock) (addr : Word) (w : ℤ) : Decidable (WriteReturns b addr w) :=
  inferInstanceAs (Decidable (_ ∧ _))

/-- The reads that report an error: all without a case of their own, but for MI's of 16 bits. -/
def ReadFails (b : RegisterBlock) (addr : Word) (w : ℤ) : Prop :=
  IsAccessWidth w ∧ offset addr b.mask ∉ b.readCases w ∧ ¬ (b = .mi ∧ w = 2)

instance (b : RegisterBlock) (addr : Word) (w : ℤ) : Decidable (ReadFails b addr w) :=
  inferInstanceAs (Decidable (_ ∧ _ ∧ _))

section

variable {addr val : Word} {w : ℤ}

lemma viWrite_dev (d : Device ViState) : (viWrite addr val w d).dev =
    ⟨(viWrite addr val w ⟨d.regs,false⟩).dev.regs,
      d.fatalError || decide (WriteReturns .vi addr w)⟩ := by
  unfold viWrite WriteReturns IsAccessWidth RegisterBlock.writeCases
  split_ifs <;> simp [*, Access.fatal]

lemma piWrite_dev (d : Device PiState) : (piWrite addr val w d).dev =
    ⟨(piWrite addr val w ⟨d.regs,false⟩).dev.regs,
      d.fatalError || decide (WriteReturns .pi addr w)⟩ := by
  unfold piWrite WriteReturns IsAccessWidth RegisterBlock.writeCases RegisterBlock.mask
  split_ifs
  · split <;> simp_all [Access.fatal]
  · simp [*, Access.fatal]
  · simp [*, Access.fatal]
  · simp [*]

lemma miWrite_dev (d : Device MiState) : (miWrite addr val w d).dev =
    ⟨(miWrite addr val w ⟨d.regs,false⟩).dev.regs,
      d.fatalError || decide (WriteReturns .mi addr w)⟩ := by
  unfold miWrite WriteReturns IsAccessWidth RegisterBlock.writeCases RegisterBlock.mask
  split_ifs
  · simp_all [Access.fatal]
  · split <;> simp_all [Access.fatal]
  · simp [*, Access.fatal]
  · simp [*]

lemma dspWrite_dev (d : Device DspState) : (dspWrite addr val w d).dev =
    ⟨(dspWrite addr val w ⟨d.regs,false⟩).dev.regs,
      d.fatalError || decide (WriteReturns .dsp addr w)⟩ := by
  unfold dspWrite WriteReturns IsAccessWidth RegisterBlock.writeCases RegisterBlock.mask
  split_ifs
  · split <;> simp_all [Access.fatal]
  · split <;> simp_all [Access.fatal]
  · simp [*, Access.fatal]
  · simp [*]

lemma aiWrite_dev (d : Device AiState) : (aiWrite addr val w d).dev =
    ⟨(aiWrite addr val w ⟨d.regs,false⟩).dev.regs,
      d.fatalError || decide (WriteReturns .ai addr w)⟩ := by
  unfold aiWrite WriteReturns IsAccessWidth RegisterBlock.writeCases RegisterBlock.mask
  split_ifs
  · split <;> simp_all [Access.fatal]
  · split <;> simp_all [Access.fatal]
  · simp_all [Access.fatal]
  · simp_all

/-- A write raises the flag exactly where it ends at a `return`. -/
theorem RegisterBlock.write_dev (b : RegisterBlock) (d : Device b.State) :
    (b.write addr val w d).dev = ⟨(b.write addr val w ⟨d.regs,false⟩).dev.regs,
      d.fatalError || decide (WriteReturns b addr w)⟩ := by
  cases b with
  | vi => exact @viWrite_dev addr val w d
  | pi => exact piWrite_dev d
  | mi => exact miWrite_dev d
  | dsp => exact dspWrite_dev d
  | ai => exact aiWrite_dev d

lemma viRead_dev (d : Device ViState) : (viRead addr w d).dev =
    ⟨d.regs,d.fatalError || decide (ReadFails .vi addr w)⟩ := by
  unfold viRead ReadFails IsAccessWidth RegisterBlock.readCases RegisterBlock.mask
  split_ifs
  · simp_all [Access.fatal]
  · split <;> simp_all [Access.fatal]
  · simp_all [Access.fatal]
  · simp_all

lemma piRead_dev (d : Device PiState) : (piRead addr w d).dev =
    ⟨d.regs,d.fatalError || decide (ReadFails .pi addr w)⟩ := by
  unfold piRead ReadFails IsAccessWidth RegisterBlock.readCases RegisterBlock.mask
  split_ifs
  · split <;> simp_all [Access.fatal]
  · simp_all [Access.fatal]
  · simp_all [Access.fatal]
  · simp_all

lemma miRead_dev (d : Device MiState) : (miRead addr w d).dev =
    ⟨d.regs,d.fatalError || decide (ReadFails .mi addr w)⟩ := by
  unfold miRead ReadFails IsAccessWidth RegisterBlock.readCases RegisterBlock.mask
  split_ifs
  · simp_all [Access.fatal]
  · split <;> simp_all
  · simp_all [Access.fatal]
  · simp_all

lemma dspRead_dev (d : Device DspState) : (dspRead addr w d).dev =
    ⟨d.regs,d.fatalError || decide (ReadFails .dsp addr w)⟩ := by
  unfold dspRead ReadFails IsAccessWidth RegisterBlock.readCases RegisterBlock.mask
  dsimp only
  split_ifs
  · split <;> simp_all [Access.fatal]
  · split <;> simp_all [Access.fatal]
  · simp_all [Access.fatal]
  · simp_all

lemma aiRead_dev (d : Device AiState) : (aiRead addr w d).dev =
    ⟨d.regs,d.fatalError || decide (ReadFails .ai addr w)⟩ := by
  unfold aiRead ReadFails IsAccessWidth RegisterBlock.readCases RegisterBlock.mask
  split_ifs
  · split <;> simp_all [Access.fatal]
  · split <;> simp_all [Access.fatal]
  · simp_all [Access.fatal]
  · simp_all

/-- A read leaves the registers alone. -/
theorem RegisterBlock.read_dev (b : RegisterBlock) (d : Device b.State) :
    (b.read addr w d).dev = ⟨d.regs,d.fatalError || decide (ReadFails b addr w)⟩ := by
  cases b with
  | vi => exact viRead_dev d
  | pi => exact piRead_dev d
  | mi => exact miRead_dev d
  | dsp => exact dspRead_dev d
  | ai => exact aiRead_dev d

end

@[simp] theorem ChipsetState.set_get (c : ChipsetState) (b : RegisterBlock) :
    c.set b (c.get b) = c := by
  cases b <;> rfl

section

variable (b : RegisterBlock) (addr val : Word) (w : ℤ) (s : EmuState)

lemma onBlock_write : (onBlock b (b.write addr val w) s).s = { s with
    chipset := s.chipset.set b (b.write addr val w ⟨s.chipset.get b,false⟩).dev.regs
    fatalError := s.fatalError || decide (WriteReturns b addr w) } := by
  change { s with
    chipset := s.chipset.set b (b.write addr val w ⟨s.chipset.get b,s.fatalError⟩).dev.regs
    fatalError := (b.write addr val w ⟨s.chipset.get b,s.fatalError⟩).dev.fatalError } = _
  rw [b.write_dev ⟨s.chipset.get b,s.fatalError⟩]

lemma onBlock_read : (onBlock b (b.read addr w) s).s =
    { s with fatalError := s.fatalError || decide (ReadFails b addr w) } := by
  change { s with
    chipset := s.chipset.set b (b.read addr w ⟨s.chipset.get b,s.fatalError⟩).dev.regs
    fatalError := (b.read addr w ⟨s.chipset.get b,s.fatalError⟩).dev.fatalError } = _
  rw [b.read_dev, ChipsetState.set_get]

end

/-! The hook of the DSP. -/

lemma dspMoveBlock_flag (r : DspState) (e : Bool) : dspMoveBlock ⟨r,e⟩ =
    ⟨(dspMoveBlock ⟨r,false⟩).regs,e || (dspMoveBlock ⟨r,false⟩).fatalError⟩ := by
  simp only [dspMoveBlock]
  split_ifs <;> simp

lemma dspTick_flag (d : Device DspState) (t : HookEnv) : dspTick d t =
    ⟨(dspTick ⟨d.regs,false⟩ t).regs,d.fatalError || (dspTick ⟨d.regs,false⟩ t).fatalError⟩ := by
  simp only [dspTick, dspTimerHook]
  split_ifs
  · simp
  · -- the copy faults, or it seeds the IRAM
    cases seedBytes t.read (t.physToVirt 0x01000000#32 true).addr <;> simp
  · exact dspMoveBlock_flag _ _
  · exact dspMoveBlock_flag _ _
  · exact dspMoveBlock_flag _ _

/-- The hook takes no error back. -/
lemma dspTick_fatal {d : Device DspState} (h : d.fatalError = true) (t : HookEnv) :
    (dspTick d t).fatalError = true := by
  rw [dspTick_flag, h]
  rfl

end DolTools
