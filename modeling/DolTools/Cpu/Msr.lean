import DolTools.Emu.State

/-! The instructions that touch MSR and the segment registers, the validation they share, and
the initialisation of the processor. -/
namespace DolTools

def asksLowPower (hid0 : Word) : Bool :=
  hid0 &&& hid0Doze != 0 || hid0 &&& hid0Nap != 0 || hid0 &&& hid0Sleep != 0

/-- `E_PPC_Validate_MSR` -/
def validateMsr (s : EmuState) : EmuState :=
  if asksLowPower s.cpu.hid0 ∧ s.cpu.msr &&& msrPow ≠ 0 then s.fatal
  else if (s.cpu.msr &&& msrIr) >>> (31 - 26) ≠ (s.cpu.msr &&& msrDr) >>> (31 - 27) then s.fatal
  else s

/-- `E_PPC_Emulate_mtmsr` -/
def mtmsr (val : Word) (s : EmuState) : EmuState :=
  validateMsr { s with cpu := { s.cpu with msr := val } }

/-- `E_PPC_Emulate_mfmsr` -/
def mfmsr (s : EmuState) : Word := s.cpu.msr

def rfiMask : Word := 0x87C0FF73#32

def rfiMsr (c : CpuState) : Word :=
  ((c.msr &&& ~~~rfiMask) ||| (c.srr1 &&& rfiMask)) &&& ~~~msrPow

/-- `E_PPC_Emulate_rfi`, with the address it returns to. -/
def rfi (s : EmuState) : Word × EmuState :=
  (s.cpu.srr0 &&& ~~~3#32,
    validateMsr { s with cpu := { s.cpu with msr := rfiMsr s.cpu }, needsMemMapUpdate := true })

/-- `E_PPC_Emulate_mtsr` -/
def mtsr (reg : Fin 16) (val : Word) (s : EmuState) : EmuState :=
  { s with cpu := { s.cpu with segmentRegs := Function.update s.cpu.segmentRegs reg val } }

/-- `E_PPC_Emulate_mfsr` -/
def mfsr (reg : Fin 16) (s : EmuState) : Word := s.cpu.segmentRegs reg

def decTicks : ConsoleType → Word
  | .gamecube => 1944000#32
  | .wii => 2916000#32
  | .other => 0

/-- `E_CPU_DecHook` -/
def decHook (s : EmuState) : EmuState :=
  if s.cpu.decrementer < decTicks s.consoleType then
    { s with cpu := { s.cpu with decrementer := 0 } }
  else { s with cpu := { s.cpu with decrementer := s.cpu.decrementer - decTicks s.consoleType } }

/-- `E_CPU_Init` -/
def cpuInit (s : EmuState) : EmuState :=
  timerAddHook .dec { s with cpu := { s.cpu with
    hid0 := 0
    hid1 := 0
    hid2 := 0
    hid4 := hid4Rsrvd1
    srr0 := 0
    srr1 := 0
    l2cr := 0
    mmcr0 := 0
    mmcr1 := 0
    pmc := fun _ => 0
    sprg := fun _ => 0 } }

/-- Validation only ever raises the error flag. -/
theorem validateMsr_eq (s : EmuState) :
    validateMsr s = { s with fatalError := (validateMsr s).fatalError } := by
  unfold validateMsr
  split
  · rfl
  · split <;> rfl

theorem validateMsr_ok {s : EmuState} (h : (validateMsr s).fatalError = false) :
    irEnabled s.cpu.msr = drEnabled s.cpu.msr := by
  unfold validateMsr at h
  split at h
  · contradiction
  · split at h
    · contradiction
    · rename_i heq
      rw [irEnabled, drEnabled, not_not.mp heq]

end DolTools
