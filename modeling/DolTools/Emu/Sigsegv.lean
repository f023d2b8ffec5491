import DolTools.Emu.Sigill
import DolTools.Mmio.Chipset

/-! The handler of faulting loads and stores: the decoding of the instruction into locals, the
dispatch of the access, and the write-back of a loaded value. A local that no branch assigned
holds an arbitrary value, passed in from outside. -/
namespace DolTools

/-- What the locals of the handler hold before they are assigned. -/
structure SegvUninit where
  accessWidth : ℤ
  regDest : Word
  destPtr : Word

/-- The locals that live from the decoding to the write-back. -/
structure SegvLocals where
  storeMem : Bool
  updateRegDest : Bool
  islha : Bool
  val : Word
  regDest : Word
  destPtr : Word
  accessWidth : ℤ

def SegvUninit.locals (u : SegvUninit) : SegvLocals where
  storeMem := false
  updateRegDest := false
  islha := false
  val := 0
  regDest := u.regDest
  destPtr := u.destPtr
  accessWidth := u.accessWidth

namespace Context

/-- A register by a number that may be out of range, where nothing of the context changes. -/
def setReg (c : Context) (r val : Word) : Context :=
  if h : r.toNat < 32 then c.setGpr ⟨r.toNat,h⟩ val else c

def getReg (c : Context) (r : Word) : Word :=
  if h : r.toNat < 32 then c.gpr ⟨r.toNat,h⟩ else 0

def isRead (c : Context) : Bool := c.dsisr == 0x40000000#32
def isWrite (c : Context) : Bool := c.dsisr == 0x42000000#32

end Context

def primaryOpcode (instr : Word) : ℕ := ((instr &&& 0xFC000000#32) >>> 26).toNat

/-- The chain of tests of `E_SIGSEGV_Handler`: the locals after the decoding. -/
def decodeLoadStore (u : SegvUninit) (instr : Word) (ctx : Context) : Option SegvLocals :=
  let l := u.locals
  let rHigh := (instr &&& 0x03E00000#32) >>> 21
  let rLow := (instr &&& 0x001F0000#32) >>> 16
  let memOff := ((instr &&& 0x0000FFFF#32).setWidth 16).signExtend 32
  match primaryOpcode instr with
  | 32 => some { l with regDest := rHigh } -- lwz, without a width
  | 40 => some { l with regDest := rHigh, accessWidth := 2 } -- lhz
  | 36 => some { l with -- stw
      storeMem := true
      regDest := rLow
      accessWidth := 4
      val := ctx.getReg rHigh
      destPtr := ctx.getReg rLow + memOff }
  | 44 => some { l with -- sth
      storeMem := true
      regDest := rLow
      accessWidth := 2
      val := ctx.getReg rHigh &&& 0x0000FFFF#32
      destPtr := ctx.getReg rLow + memOff }
  | 45 => some { l with -- sthu
      storeMem := true
      updateRegDest := true
      regDest := rLow
      accessWidth := 2
      val := ctx.getReg rHigh &&& 0x0000FFFF#32
      destPtr := ctx.getReg rLow + memOff }
  | 42 => some { l with islha := true, regDest := rHigh, accessWidth := 2 } -- lha
  | _ => none

/-- The physical address of a fault, if the handler finds one. -/
def faultPaddr (s : EmuState) (ctx : Context) : Option Word :=
  if isTranslating s.cpu.msr then
    let phys := memVirtToPhys s ctx.dar false
    if phys.mapped then some phys.addr
    else
      let phys := memVirtToPhys s ctx.dar true
      if phys.mapped then some phys.addr else none
  else some ctx.dar

/-- What the handler has done: besides the state, the width handed to a routine of the
chipset, the width at the write-back of a load, and the word stored to memory there. -/
structure SegvOutcome where
  s : EmuState
  ctx : Context
  mmioWidth : Option ℤ
  writeBackWidth : Option ℤ
  stored : Option (Word × Word)

/-- The value of an access cut to its width; no other width writes anything back. -/
def cutToWidth (val : Word) (accessWidth : ℤ) : Option Word :=
  if accessWidth = 4 then some val
  else if accessWidth = 2 then some (val &&& 0x0000FFFF#32)
  else if accessWidth = 1 then some (val &&& 0x000000FF#32)
  else none

def writeBackReg (l : SegvLocals) (ctx : Context) : Context :=
  if l.islha then
    let high := if l.val &&& 0x00008000#32 ≠ 0 then 0xFFFF0000#32 else 0
    ctx.setReg l.regDest (high ||| (l.val &&& 0x0000FFFF#32))
  else
    match cutToWidth l.val l.accessWidth with
    | some val => ctx.setReg l.regDest val
    | none => ctx

def segvOut (bail : BailOut) (l : SegvLocals) (mmioWidth : Option ℤ) (s : EmuState)
    (ctx : Context) : SegvOutcome :=
  let stored := if ctx.isRead && l.storeMem then
      (cutToWidth l.val l.accessWidth).map (fun val => (l.destPtr,val)) else none
  let ctx' := if ctx.isRead && !l.storeMem then writeBackReg l ctx else ctx
  { s := s
    ctx := if s.fatalError then bail.recover ctx' else ctx'
    mmioWidth := mmioWidth
    writeBackWidth := if ctx.isRead then some l.accessWidth else none
    stored := stored }

/-- The access itself, by the read or the write routine of one address range, and the way on
to `sigsegv_out`. -/
def segvAccess (bail : BailOut) (read : Word → ℤ → EmuState → MmioAccess Word)
    (write : Word → Word → ℤ → EmuState → MmioAccess Unit) (paddr : Word) (l : SegvLocals)
    (s : EmuState) (ctx : Context) : SegvOutcome :=
  let r : EmuState × Word :=
    if ctx.isWrite then ((write paddr l.val l.accessWidth s).s,l.val)
    else ((read paddr l.accessWidth s).s,(read paddr l.accessWidth s).value)
  let ctx := if l.updateRegDest then ctx.setReg l.regDest l.destPtr else ctx
  segvOut bail { l with val := r.2 } (some l.accessWidth) r.1 ctx.next

def flipperRange : Word := 0x0C000000#32
def hollywoodRange : Word := 0x0D000000#32
def hollywoodMirror : Word := 0x0D800000#32

def segvDispatch (hw : Hardware) (bail : BailOut) (paddr : Word) (l : SegvLocals)
    (s : EmuState) (ctx : Context) : SegvOutcome :=
  let range := paddr &&& 0xFFF00000#32
  if range = flipperRange then
    segvAccess bail (flipperRead hw) flipperWrite paddr l s ctx
  else if range = hollywoodMirror ∨ range = hollywoodRange then
    if s.consoleType = .gamecube then segvOut bail l none s.fatal ctx
    else
      segvAccess bail (hollywoodRead hw) hollywoodWrite (paddr &&& ~~~0x00800000#32) l s ctx
  else segvOut bail l none s.fatal ctx

/-- `E_SIGSEGV_Handler` on a fault of the instruction `instr`; with an earlier fatal error it
exits and does not return. -/
def sigsegvHandler (hw : Hardware) (bail : BailOut) (u : SegvUninit) (instr : Word)
    (s : EmuState) (ctx : Context) : Option SegvOutcome :=
  if !ctx.isRead && !ctx.isWrite then some (segvOut bail u.locals none s.fatal ctx)
  else if s.fatalError then none
  else match decodeLoadStore u instr ctx with
  | none => some (segvOut bail u.locals none s.fatal ctx)
  | some l =>
    match faultPaddr s ctx with
    | none => some (segvOut bail l none s.fatal ctx)
    | some paddr => some (segvDispatch hw bail paddr l s ctx)

end DolTools
