import Mathlib

/-! The emulated part of the processor: its registers, and the constants of `cpu.h` that
name SPR numbers and register bits. -/
namespace DolTools

/-- `uint32_t` -/
abbrev Word := BitVec 32
/-- `uint16_t` -/
abbrev Half := BitVec 16
/-- `uint8_t` -/
abbrev Byte := BitVec 8

/-! The lengths of the arrays of registers and slots, for indices that are written as numerals. -/

instance neZeroFour : NeZero 4 := ⟨by decide⟩
instance neZeroEight : NeZero 8 := ⟨by decide⟩
instance neZeroNine : NeZero 9 := ⟨by decide⟩
instance neZeroSixteen : NeZero 16 := ⟨by decide⟩
instance neZeroThirtyTwo : NeZero 32 := ⟨by decide⟩

/-! SPR numbers -/

def sprDec : ℕ := 22
def sprTbl : ℕ := 284
def sprTbu : ℕ := 285
def sprSrr0 : ℕ := 26
def sprSrr1 : ℕ := 27
def sprHid0 : ℕ := 1008
def sprHid1 : ℕ := 1009
def sprHid2 : ℕ := 920
def sprHid4 : ℕ := 1011
def sprIbat0u : ℕ := 528
def sprIbat0l : ℕ := 529
def sprIbat3l : ℕ := 535
def sprDbat0u : ℕ := 536
def sprDbat0l : ℕ := 537
def sprDbat3l : ℕ := 543
def sprIbat4u : ℕ := 560
def sprIbat4l : ℕ := 561
def sprIbat7l : ℕ := 567
def sprDbat4u : ℕ := 568
def sprDbat4l : ℕ := 569
def sprDbat7l : ℕ := 575
def sprSprg0 : ℕ := 272
def sprSprg3 : ℕ := 275
def sprL2cr : ℕ := 1017
def sprUmmcr0 : ℕ := 936
def sprUpmc1 : ℕ := 937
def sprUpmc2 : ℕ := 938
def sprUmmcr1 : ℕ := 940
def sprUpmc3 : ℕ := 941
def sprUpmc4 : ℕ := 942
def sprMmcr0 : ℕ := 952
def sprPmc1 : ℕ := 953
def sprPmc2 : ℕ := 954
def sprMmcr1 : ℕ := 956
def sprPmc3 : ℕ := 957
def sprPmc4 : ℕ := 958

/-! Register bits, as configured: `STRICT_750CL` is not defined. -/

def hid0Doze : Word := 1#32 <<< (32 - 8)
def hid0Nap : Word := 1#32 <<< (32 - 9)
def hid0Sleep : Word := 1#32 <<< (32 - 10)
def hid2Rsrvd0 : Word := 65535#32
def hid2Dmaql : Word := 15#32 <<< (31 - 7)
def hid4Rsrvd1 : Word := 1#32 <<< 31
def hid4Sbe : Word := 1#32 <<< (31 - 6)
def hid4Rsrvd0 : Word := (1#32 <<< (31 - 5)) ||| 0xFFFFF#32
def l2crRsrvd0 : Word :=
  (127#32 <<< (31 - 8)) ||| (1#32 <<< (31 - 11)) ||| (131071#32 <<< (31 - 30))

def batuBepi : Word := 32767#32 <<< (31 - 14)
def batuBlShift : ℕ := 31 - 29
def batuBl : Word := 2047#32 <<< batuBlShift
def batuVs : Word := 1#32 <<< (31 - 30)
def batuVp : Word := 1#32
def batlBprn : Word := 32767#32 <<< (31 - 14)
def batlWimgShift : ℕ := 31 - 28
def batlPp : Word := 3#32
def batlPpRw : Word := 2#32

def msrPow : Word := 1#32 <<< (31 - 13)
def msrIr : Word := 1#32 <<< (31 - 26)
def msrDr : Word := 1#32 <<< (31 - 27)

/-- Block-length codes of an upper BAT register. -/
def batuBl256mb : Word := 0x7FF#32

/-- `struct _cpuState` -/
structure CpuState where
  srr0 : Word
  srr1 : Word
  msr : Word
  hid0 : Word
  hid1 : Word
  hid2 : Word
  hid4 : Word
  l2cr : Word
  mmcr0 : Word
  mmcr1 : Word
  pmc : Fin 4 → Word
  sprg : Fin 4 → Word
  ibatl : Fin 8 → Word
  ibatu : Fin 8 → Word
  dbatl : Fin 8 → Word
  dbatu : Fin 8 → Word
  segmentRegs : Fin 16 → Word
  decrementer : Word
  tbl : Word
  tbu : Word

/-- Static storage is zero before anything runs. -/
def CpuState.zero : CpuState where
  srr0 := 0
  srr1 := 0
  msr := 0
  hid0 := 0
  hid1 := 0
  hid2 := 0
  hid4 := 0
  l2cr := 0
  mmcr0 := 0
  mmcr1 := 0
  pmc := fun _ => 0
  sprg := fun _ => 0
  ibatl := fun _ => 0
  ibatu := fun _ => 0
  dbatl := fun _ => 0
  dbatu := fun _ => 0
  segmentRegs := fun _ => 0
  decrementer := 0
  tbl := 0
  tbu := 0

def irEnabled (msr : Word) : Bool := (msr &&& msrIr) >>> (31 - 26) != 0#32

def drEnabled (msr : Word) : Bool := (msr &&& msrDr) >>> (31 - 27) != 0#32

def isTranslating (msr : Word) : Bool := irEnabled msr && drEnabled msr

end DolTools
