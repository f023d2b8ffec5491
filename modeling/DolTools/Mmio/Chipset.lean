import DolTools.Emu.State
import DolTools.Mmio.Exits

/-! The chipset as the handlers see it: the dispatch of an access to the register blocks or to
the real hardware, for the two address ranges, and the initialisation. -/
namespace DolTools

namespace ChipsetState

def get (c : ChipsetState) : (b : RegisterBlock) → b.State
  | .vi => c.vi
  | .pi => c.pi
  | .mi => c.mi
  | .dsp => c.dsp
  | .ai => c.ai

def set (c : ChipsetState) : (b : RegisterBlock) → b.State → ChipsetState
  | .vi, r => { c with vi := r }
  | .pi, r => { c with pi := r }
  | .mi, r => { c with mi := r }
  | .dsp, r => { c with dsp := r }
  | .ai, r => { c with ai := r }

end ChipsetState

structure MmioAccess (α : Type) where
  s : EmuState
  value : α
  exit : Exit

/-- The hardware behind `/dev/mem`: a read gives what the accesses so far have led to.
`uninit` is what a local holds that was never assigned. -/
structure Hardware where
  read : List ForwardAccess → Word → ℤ → Word
  uninit : Word

def onBlock {α : Type} (b : RegisterBlock) (f : Device b.State → Access b.State α)
    (s : EmuState) : MmioAccess α :=
  let r := f ⟨s.chipset.get b,s.fatalError⟩
  ⟨{ s with chipset := s.chipset.set b r.dev.regs, fatalError := r.dev.fatalError },r.value,r.exit⟩

def forwardPtr (addr : Word) (s : EmuState) : Option Word :=
  let tmp := addr &&& 0xFFF70000#32
  let off := addr &&& ~~~0xFFF70000#32
  if tmp = 0x0C000000#32 then some (s.forward.memFlipper + off)
  else if tmp = 0x0D000000#32 then some (s.forward.memHlwd + off)
  else none

def logForward (a : ForwardAccess) (s : EmuState) : EmuState :=
  { s with forward := { s.forward with accesses := a::s.forward.accesses } }

/-- `E_MMIO_Forwarded_Read` -/
def forwardedRead (hw : Hardware) (addr : Word) (accessWidth : ℤ) (s : EmuState) :
    MmioAccess Word :=
  match forwardPtr addr s with
  | none => ⟨s.fatal,0,.ret⟩
  | some ptr =>
    let val := hw.read s.forward.accesses ptr accessWidth
    let s' := logForward (.read ptr accessWidth) s
    if accessWidth = 4 then ⟨s',val,.ret⟩
    else if accessWidth = 2 then ⟨s',(val.setWidth 16).setWidth 32,.ret⟩
    else if accessWidth = 1 then ⟨s',(val.setWidth 8).setWidth 32,.ret⟩
    else ⟨s,hw.uninit,.ret⟩ -- nothing is read

/-- `E_MMIO_Forwarded_Write` -/
def forwardedWrite (addr val : Word) (accessWidth : ℤ) (s : EmuState) : MmioAccess Unit :=
  match forwardPtr addr s with
  | none => ⟨s.fatal,(),.ret⟩
  | some ptr =>
    if accessWidth = 4 then ⟨logForward (.write ptr val 4) s,(),.ret⟩
    else if accessWidth = 2 then ⟨logForward (.write ptr (val &&& 0x0000FFFF#32) 2) s,(),.ret⟩
    else if accessWidth = 1 then ⟨logForward (.write ptr (val &&& 0x000000FF#32) 1) s,(),.ret⟩
    else ⟨s,(),.ret⟩

inductive Route
  | block (b : RegisterBlock)
  | forwarded
  | fatal
  | nothing

/-- The page of the serial interfaces, which Flipper and Hollywood share. -/
def serialRoute (addr : Word) : Route :=
  let page := addr &&& 0x0000FF00#32
  if page = 0x00006000#32 then .fatal -- DI
  else if page = 0x00006400#32 then .forwarded -- SI
  else if page = 0x00006800#32 then .forwarded -- EXI
  else if page = 0x00006C00#32 then .block .ai
  else .nothing

/-- The switch of the two Flipper routines. -/
def flipperRoute (addr : Word) : Route :=
  match (addr &&& 0xFFFFF000#32).toNat with
  | 0x0C000000 => .forwarded -- CP
  | 0x0C001000 => .forwarded -- PE
  | 0x0C002000 => .block .vi
  | 0x0C003000 => .block .pi
  | 0x0C004000 => .block .mi
  | 0x0C005000 => .block .dsp
  | 0x0C006000 => serialRoute addr
  | _ => .fatal

/-- The switch of the two Hollywood routines. -/
def hollywoodRoute (addr : Word) : Route :=
  match (addr &&& 0xFFFFF000#32).toNat with
  | 0x0D006000 => serialRoute addr
  | _ => .fatal

def routeRead (hw : Hardware) (route : Route) (addr : Word) (accessWidth : ℤ) (s : EmuState) :
    MmioAccess Word :=
  match route with
  | .block b => onBlock b (b.read addr accessWidth) s
  | .forwarded => forwardedRead hw addr accessWidth s
  | .fatal => ⟨s.fatal,0,.ret⟩
  | .nothing => ⟨s,0,.ret⟩

def routeWrite (route : Route) (addr val : Word) (accessWidth : ℤ) (s : EmuState) :
    MmioAccess Unit :=
  match route with
  | .block b => onBlock b (b.write addr val accessWidth) s
  | .forwarded => forwardedWrite addr val accessWidth s
  | .fatal => ⟨s.fatal,(),.ret⟩
  | .nothing => ⟨s,(),.ret⟩

def flipperRead (hw : Hardware) (addr : Word) (accessWidth : ℤ) (s : EmuState) :
    MmioAccess Word := routeRead hw (flipperRoute addr) addr accessWidth s

def flipperWrite (addr val : Word) (accessWidth : ℤ) (s : EmuState) : MmioAccess Unit :=
  routeWrite (flipperRoute addr) addr val accessWidth s

def hollywoodRead (hw : Hardware) (addr : Word) (accessWidth : ℤ) (s : EmuState) :
    MmioAccess Word := routeRead hw (hollywoodRoute addr) addr accessWidth s

def hollywoodWrite (addr val : Word) (accessWidth : ℤ) (s : EmuState) : MmioAccess Unit :=
  routeWrite (hollywoodRoute addr) addr val accessWidth s

/-- What `E_MMIO_Forwarding_Init` gets from the host; `MAP_FAILED` is a failed window. -/
structure ForwardEnv where
  openSucceeds : Bool
  flipper : Word
  hlwd : Word

/-- `E_MMIO_Forwarding_Init`; its return code is ignored by the only caller. -/
def forwardingInit (env : ForwardEnv) (s : EmuState) : EmuState :=
  if !env.openSucceeds then s.fatal
  else
    let s := { s with forward := { s.forward with memFlipper := env.flipper } }
    if env.flipper = mapFailed then s.fatal
    else if s.hostType = .wii then
      let s := { s with forward := { s.forward with memHlwd := env.hlwd } }
      if env.hlwd = mapFailed then s.fatal else s
    else s

/-- `E_MMIO_Chipset_Init` with the five initialisers it calls; it always returns 0. -/
def chipsetInit (env : ForwardEnv) (iram : Fin 8192 → Byte) (s : EmuState) : EmuState :=
  let s := timerAddHook .vi { s with chipset := s.chipset.set .vi ⟨0⟩ }
  let s := { s with chipset := s.chipset.set .pi ⟨0,0,0,0,0⟩ }
  let s := { s with chipset := s.chipset.set .mi ⟨0,0,0⟩ }
  let s := timerAddHook .dsp { s with chipset := s.chipset.set .dsp (dspInit iram) }
  let s := { s with chipset := s.chipset.set .ai ⟨0⟩ }
  forwardingInit env s

end DolTools
