import DolTools.Cpu.Spr
import DolTools.Mem.Reload

/-! The handler of illegal instructions: the chain of tests that tells the privileged
instructions apart, their emulation, and what follows it. -/
namespace DolTools

/-- The guest registers in the signal context. -/
structure Context where
  gpr : Fin 32 → Word
  nip : Word
  dar : Word
  dsisr : Word

namespace Context

def setGpr (c : Context) (r : Fin 32) (val : Word) : Context :=
  { c with gpr := Function.update c.gpr r val }

def next (c : Context) : Context := { c with nip := c.nip + 4#32 }

end Context

/-- What the bail-out path puts into the context: the emulator's stack and small data
pointers, and `emergencyBailOut`. -/
structure BailOut where
  sigstk : Word
  hostSda0 : Word
  hostSda1 : Word
  emergencyBailOut : Word

def BailOut.recover (b : BailOut) (c : Context) : Context :=
  { ((c.setGpr 1 b.sigstk).setGpr 2 b.hostSda0).setGpr 13 b.hostSda1 with
    nip := b.emergencyBailOut }

/-- The branches of the handler, with the fields that they decode. -/
inductive Emulated
  | mfspr (regDest : Fin 32) (spr : ℕ)
  | mtspr (spr : ℕ) (regSrc : Fin 32)
  | mfmsr (regDest : Fin 32)
  | mtmsr (regSrc : Fin 32)
  | rfi
  | mtsr (segmentReg : Fin 16) (regSrc : Fin 32)
  | mfsr (regDest : Fin 32) (segmentReg : Fin 16)
  | dcbi
  | unhandled
  deriving DecidableEq, Repr

def regField (val : Word) : Fin 32 := Fin.ofNat 32 ((val &&& 0x03E00000#32) >>> 21).toNat

def segField (val : Word) : Fin 16 := Fin.ofNat 16 ((val &&& 0x000F0000#32) >>> 16).toNat

/-- The SPR number of an instruction, its two halves swapped. -/
def sprField (val : Word) : ℕ :=
  let sprRaw := (val &&& 0x001FF800#32) >>> 11
  let sprLow := sprRaw &&& 0x1F#32
  let sprHi := (sprRaw >>> 5) &&& 0x1F#32
  (sprHi ||| (sprLow <<< 5)).toNat

/-- The two tests of the handler on opcode and extended opcode. -/
def hasOpcode (val xo : Word) : Bool :=
  (val &&& 0x3FF#32) >>> 1 == xo && (val &&& 0xFC000000#32) >>> 26 == 31#32

def rfiWord : Word := 0x4C000064#32

/-- The chain of tests in `E_SIGILL_Handler`. -/
def decodeIllegal (val : Word) : Emulated :=
  if hasOpcode val 339#32 then .mfspr (regField val) (sprField val)
  else if hasOpcode val 467#32 then .mtspr (sprField val) (regField val)
  else if hasOpcode val 83#32 then .mfmsr (regField val)
  else if hasOpcode val 146#32 then .mtmsr (regField val)
  else if val = rfiWord then .rfi
  else if hasOpcode val 210#32 then .mtsr (segField val) (regField val)
  else if hasOpcode val 595#32 then .mfsr (regField val) (segField val)
  else if hasOpcode val 470#32 then .dcbi
  else .unhandled

def emulate : Emulated → EmuState → Context → EmuState × Context
  | .mfspr regDest spr, s, ctx =>
    let r := mfspr spr s
    (r.2,(ctx.setGpr regDest r.1).next)
  | .mtspr spr regSrc, s, ctx => (mtspr spr (ctx.gpr regSrc) s,ctx.next)
  | .mfmsr regDest, s, ctx => (s,(ctx.setGpr regDest (mfmsr s)).next)
  | .mtmsr regSrc, s, ctx => (mtmsr (ctx.gpr regSrc) s,ctx.next)
  | .rfi, s, ctx =>
    let r := rfi s
    (r.2,{ ctx with nip := r.1 })
  | .mtsr segmentReg regSrc, s, ctx => (mtsr segmentReg (ctx.gpr regSrc) s,ctx.next)
  | .mfsr regDest segmentReg, s, ctx => (s,(ctx.setGpr regDest (mfsr segmentReg s)).next)
  | .dcbi, s, ctx => (s,ctx.next)
  | .unhandled, s, ctx => (s.fatal,ctx)

/-- The handler behind the branches: the map is fixed up if asked for, and a fatal error
sends the guest to the bail-out. -/
def sigillFinish (k : Kernel) (vaddr : Word) (bail : BailOut) (msr : Word) (s : EmuState)
    (ctx : Context) : EmuState × Context :=
  let s := if s.needsMemMapUpdate then memMapFixups k vaddr msr s else s
  if s.fatalError then (s,bail.recover ctx) else (s,ctx)

/-- `E_SIGILL_Handler` on the instruction `val`; with an earlier fatal error it exits and
does not return. -/
def sigillHandler (k : Kernel) (vaddr : Word) (bail : BailOut) (val : Word) (s : EmuState)
    (ctx : Context) : Option (EmuState × Context) :=
  if s.fatalError then none
  else
    let r := emulate (decodeIllegal val) s ctx
    some (sigillFinish k vaddr bail s.cpu.msr r.1 r.2)

end DolTools
