import DolTools.Cpu.Msr

/-! `mtspr` and `mfspr`: the switches on the SPR number. -/
namespace DolTools

/-- The upper or lower register of one BAT. -/
inductive BatReg
  | ibatu (i : Fin 8)
  | ibatl (i : Fin 8)
  | dbatu (i : Fin 8)
  | dbatl (i : Fin 8)
  deriving DecidableEq, Repr

namespace BatReg

def get (c : CpuState) : BatReg → Word
  | ibatu i => c.ibatu i
  | ibatl i => c.ibatl i
  | dbatu i => c.dbatu i
  | dbatl i => c.dbatl i

def set (val : Word) (c : CpuState) : BatReg → CpuState
  | ibatu i => { c with ibatu := Function.update c.ibatu i val }
  | ibatl i => { c with ibatl := Function.update c.ibatl i val }
  | dbatu i => { c with dbatu := Function.update c.dbatu i val }
  | dbatl i => { c with dbatl := Function.update c.dbatl i val }

/-- The SPR numbers alternate between upper and lower from `base` on, where BAT `first` is. -/
def ofSpr (upper lower : Fin 8 → BatReg) (base first spr : ℕ) : BatReg :=
  if spr % 2 = 0 then upper (Fin.ofNat 8 (first + (spr - base) / 2))
  else lower (Fin.ofNat 8 (first + (spr - (base + 1)) / 2))

end BatReg

/-- The BAT register an SPR number names, with whether it is one of the higher BATs. -/
def batSpr (spr : ℕ) : Option (BatReg × Bool) :=
  if sprDbat0u ≤ spr ∧ spr ≤ sprDbat3l then
    some (.ofSpr .dbatu .dbatl sprDbat0u 0 spr,false)
  else if sprDbat4u ≤ spr ∧ spr ≤ sprDbat7l then
    some (.ofSpr .dbatu .dbatl sprDbat4u 4 spr,true)
  else if sprIbat0u ≤ spr ∧ spr ≤ sprIbat3l then
    some (.ofSpr .ibatu .ibatl sprIbat0u 0 spr,false)
  else if sprIbat4u ≤ spr ∧ spr ≤ sprIbat7l then
    some (.ofSpr .ibatu .ibatl sprIbat4u 4 spr,true)
  else none

/-- `E_PPC_Validate_HighBATAccess`: whether the access is an error. -/
def highBatIllegal (s : EmuState) : Bool :=
  match s.consoleType with
  | .gamecube => true
  | .wii => s.cpu.hid4 &&& hid4Sbe == 0
  | .other => false

/-- The cases of `mtspr` that write a BAT. The flag is raised before the access is checked. -/
def mtsprBat (reg : BatReg) (high : Bool) (val : Word) (s : EmuState) : EmuState :=
  let s := { s with needsMemMapUpdate := true }
  if high && highBatIllegal s then s.fatal
  else { s with cpu := reg.set val s.cpu }

def hid2Value (val old : Word) : Word :=
  let val := if val &&& hid2Rsrvd0 ≠ 0 then val &&& ~~~hid2Rsrvd0 else val
  if val &&& hid2Dmaql ≠ 0 then (val &&& ~~~hid2Dmaql) ||| (old &&& hid2Dmaql) else val

def hid4Value (val : Word) : Word :=
  let val := if (val &&& hid4Rsrvd1) >>> 31 ≠ 1 then val ||| hid4Rsrvd1 else val
  if val &&& hid4Rsrvd0 ≠ 0 then val &&& ~~~hid4Rsrvd0 else val

def mtsprOther (spr : ℕ) (val : Word) (s : EmuState) : EmuState :=
  let c := s.cpu
  if spr = sprDec then { s with cpu := { c with decrementer := val } }
  else if spr = sprTbl then { s with cpu := { c with tbl := val } }
  else if spr = sprTbu then { s with cpu := { c with tbu := val } }
  else if spr = sprSrr0 then { s with cpu := { c with srr0 := val } }
  else if spr = sprSrr1 then { s with cpu := { c with srr1 := val } }
  else if spr = sprHid0 then
    let s := { s with cpu := { c with hid0 := val } }
    if asksLowPower val ∧ c.msr &&& msrPow ≠ 0 then s.fatal else s
  else if spr = sprHid1 then s.fatal -- read-only
  else if spr = sprHid2 then { s with cpu := { c with hid2 := hid2Value val c.hid2 } }
  else if spr = sprHid4 then
    if s.consoleType = .gamecube then s.fatal
    else { s with cpu := { c with hid4 := hid4Value val } }
  else if sprSprg0 ≤ spr ∧ spr ≤ sprSprg3 then
    { s with cpu := { c with sprg := Function.update c.sprg (Fin.ofNat 4 (spr - sprSprg0)) val } }
  else if spr = sprL2cr then
    let val := if val &&& l2crRsrvd0 ≠ 0 then val &&& ~~~l2crRsrvd0 else val
    { s with cpu := { c with l2cr := val } }
  else if spr = sprUmmcr0 ∨ spr = sprUmmcr1 then s.fatal -- read-only
  else if spr = sprMmcr0 then
    if val ≠ 0 then s.fatal else { s with cpu := { c with mmcr0 := val } }
  else if spr = sprMmcr1 then
    if val ≠ 0 then s.fatal else { s with cpu := { c with mmcr1 := val } }
  else if spr = sprUpmc1 ∨ spr = sprUpmc2 ∨ spr = sprUpmc3 ∨ spr = sprUpmc4 then
    s.fatal -- read-only
  else if spr = sprPmc1 ∨ spr = sprPmc2 ∨ spr = sprPmc3 ∨ spr = sprPmc4 then
    if val ≠ 0 then s.fatal
    else
      -- the third and fourth counter share the slots of the first two
      let pmcNum := if spr - sprPmc1 > 1 then spr - sprPmc3 else spr - sprPmc1
      { s with cpu := { c with pmc := Function.update c.pmc (Fin.ofNat 4 pmcNum) val } }
  else s.fatal -- unknown SPR

/-- `E_PPC_Emulate_mtspr` -/
def mtspr (spr : ℕ) (val : Word) (s : EmuState) : EmuState :=
  match batSpr spr with
  | some (reg,high) => mtsprBat reg high val s
  | none => mtsprOther spr val s

def sprError : Word := 0xFFFFFFFF#32

def mfsprBat (reg : BatReg) (high : Bool) (s : EmuState) : Word × EmuState :=
  if high && highBatIllegal s then (sprError,s.fatal) else (reg.get s.cpu,s)

def mfsprOther (spr : ℕ) (s : EmuState) : Word × EmuState :=
  let c := s.cpu
  if spr = sprDec then (c.decrementer,s)
  else if spr = sprTbl then (c.tbl,s)
  else if spr = sprTbu then (c.tbu,s)
  else if spr = sprSrr0 then (c.srr0,s)
  else if spr = sprSrr1 then (c.srr1,s)
  else if spr = sprHid0 then (c.hid0,s)
  else if spr = sprHid1 then (c.hid1,s)
  else if spr = sprHid2 then (c.hid2,s)
  else if spr = sprHid4 then
    if s.consoleType = .gamecube then (sprError,s.fatal) else (c.hid4,s)
  else if sprSprg0 ≤ spr ∧ spr ≤ sprSprg3 then (c.sprg (Fin.ofNat 4 (spr - sprSprg0)),s)
  else if spr = sprL2cr then (c.l2cr,s)
  else if spr = sprUmmcr0 ∨ spr = sprMmcr0 then (c.mmcr0,s)
  else if spr = sprUmmcr1 ∨ spr = sprMmcr1 then (c.mmcr1,s)
  else (sprError,s.fatal) -- unknown SPR

/-- `E_PPC_Emulate_mfspr` -/
def mfspr (spr : ℕ) (s : EmuState) : Word × EmuState :=
  match batSpr spr with
  | some (reg,high) => mfsprBat reg high s
  | none => mfsprOther spr s

/-- A read changes nothing but the error flag. -/
theorem mfspr_snd (spr : ℕ) (s : EmuState) :
    (mfspr spr s).2 = s ∨ (mfspr spr s).2 = s.fatal := by
  have hite : ∀ {c : Prop} [Decidable c] {r r' : Word × EmuState}, r.2 = s ∨ r.2 = s.fatal →
      r'.2 = s ∨ r'.2 = s.fatal →
      (if c then r else r').2 = s ∨ (if c then r else r').2 = s.fatal := by
    intro c _ r r' hr hr'
    split
    · exact hr
    · exact hr'
  unfold mfspr
  cases batSpr spr with
  | some x =>
    obtain ⟨reg,high⟩ := x
    exact hite (.inr rfl) (.inl rfl)
  | none =>
    change (mfsprOther spr s).2 = s ∨ (mfsprOther spr s).2 = s.fatal
    unfold mfsprOther
    dsimp only
    repeat' apply hite
    all_goals first | exact .inl rfl | exact .inr rfl

end DolTools
