import DolTools.Mmio.Device
import DolTools.Mem.Host

/-! The audio DSP: mailboxes, control register with reset and halt, and the ARAM DMA whose
blocks a periodic timer hook moves. -/
namespace DolTools

def dspCsrBootmode : Half := 1#16 <<< 11
def dspCsrHalt : Half := 1#16 <<< 2
def dspCsrReset : Half := 1#16

/-- `struct _dsp_state`; of the four memories only the IRAM is ever filled. -/
structure DspState where
  privDmaSrcPtr : Word
  privDmaDestPtr : Word
  privDmaDir : Bool
  privResetTimer : ℤ
  privHalt : Bool
  iram : Fin 8192 → Byte
  inMboxH : Half
  inMboxL : Half
  outMboxH : Half
  outMboxL : Half
  csr : Half
  arSize : Half
  dmaMMAddr : Word
  dmaARAddr : Word
  dmaSize : Word

/-- The state after `memset` and the start value of CSR; `malloc` leaves `iram` arbitrary. -/
def dspInit (iram : Fin 8192 → Byte) : DspState where
  privDmaSrcPtr := 0
  privDmaDestPtr := 0
  privDmaDir := false
  privResetTimer := 0
  privHalt := false
  iram := iram
  inMboxH := 0
  inMboxL := 0
  outMboxH := 0
  outMboxL := 0
  csr := 0x0816#16
  arSize := 0
  dmaMMAddr := 0
  dmaARAddr := 0
  dmaSize := 0

/-- Latch the direction and the two ends of a transfer. -/
def dspDmaStart (r : DspState) : DspState :=
  let dmaDir := (r.dmaSize &&& 0x80000000#32) >>> 31
  if dmaDir = 0#32 then -- write to ARAM
    { r with privDmaDir := false, privDmaSrcPtr := r.dmaMMAddr, privDmaDestPtr := r.dmaARAddr }
  else -- read from ARAM
    { r with privDmaDir := true, privDmaSrcPtr := r.dmaARAddr, privDmaDestPtr := r.dmaMMAddr }

/-- Not implemented in the source: the pushed half is dropped. -/
def dspMboxPushH (_val : Half) (r : DspState) : DspState := r

def dspMboxPushL (_val : Half) (r : DspState) : DspState := r

/-- The timer hook behind its reset stages: one block of DMA unless halted. -/
def dspMoveBlock (d : Device DspState) : Device DspState :=
  let r := d.regs
  if r.privHalt then d
  else
    let dmaSize := r.dmaSize &&& 0x7FFFFFFF#32
    if dmaSize &&& 0x1F#32 ≠ 0#32 then { d with fatalError := true }
    else if dmaSize = 0#32 then d
    else { d with regs := { r with
      privDmaDestPtr := r.privDmaDestPtr + 32#32
      privDmaSrcPtr := r.privDmaSrcPtr + 32#32
      dmaSize := r.dmaSize - 32#32 } }

/-- The 1024 bytes that `memcpy` takes from the process; `none` where one of them faults. -/
def seedBytes (read : Word → Option Byte) (src : Word) : Option (List Byte) :=
  (List.range 1024).mapM (fun i => read (src + BitVec.ofNat 32 i))

/-- `E_MMIO_DSP_TimerHook`. The lookup is `E_MemPhysToVirt`, and `read` is what the process shows
at an address. Where the copy faults it is `E_SIGSEGV_Handler` that sets the flag, and the process
ends; how many bytes have been copied by then is left out. -/
def dspTimerHook (physToVirt : Word → Bool → MemAddr) (read : Word → Option Byte)
    (d : Device DspState) : Device DspState :=
  let r := d.regs
  if r.privResetTimer = 2 then
    let r := { r with privResetTimer := r.privResetTimer - 1 }
    if r.csr &&& dspCsrBootmode = 0#16 then
      let virt := physToVirt 0x01000000#32 true
      if !virt.mapped then ⟨r,true⟩
      else
        match seedBytes read virt.addr with
        | none => ⟨r,true⟩
        | some bytes => { d with regs := { r with iram := fun i => bytes[i.val]?.getD (r.iram i) } }
    else dspMoveBlock { d with regs := r }
  else if r.privResetTimer = 1 then
    dspMoveBlock { d with regs := { r with
      csr := r.csr &&& ~~~dspCsrReset
      privResetTimer := r.privResetTimer - 1 } }
  else dspMoveBlock d

def dspRead (addr : Word) (accessWidth : ℤ) (d : Device DspState) : Access DspState Word :=
  let r := d.regs
  if accessWidth = 4 then
    match offset addr 0x00000FFF#32 with
    | 0x020 => .ret d r.dmaMMAddr
    | 0x024 => .ret d r.dmaARAddr
    | 0x028 => .ret d r.dmaSize
    | _ => .fatal d 0
  else if accessWidth = 2 then
    match offset addr 0x00000FFF#32 with
    | 0x000 => .ret d (r.inMboxH.setWidth 32)
    | 0x002 => .ret d (r.inMboxL.setWidth 32)
    | 0x004 => .ret d (r.outMboxH.setWidth 32)
    | 0x006 => .ret d (r.outMboxL.setWidth 32)
    | 0x00A => .ret d (r.csr.setWidth 32)
    | 0x012 => .ret d (r.arSize.setWidth 32)
    | 0x020 => .ret d ((r.dmaMMAddr &&& 0xFFFF0000#32) >>> 16)
    | 0x022 => .ret d (r.dmaMMAddr &&& 0x0000FFFF#32)
    | 0x024 => .ret d ((r.dmaMMAddr &&& 0xFFFF0000#32) >>> 16) -- not `dmaARAddr`
    | 0x026 => .ret d (r.dmaARAddr &&& 0x0000FFFF#32)
    | 0x028 => .ret d ((r.dmaSize &&& 0xFFFF0000#32) >>> 16)
    | 0x02A => .ret d (r.dmaSize &&& 0x0000FFFF#32)
    | _ => .fatal d 0
  else if accessWidth = 1 then .fatal d 0
  else .fallOut d 0

def dspWriteCsr (val : Half) (r : DspState) : DspState :=
  let r := { r with csr := val }
  let r := if val &&& dspCsrReset ≠ 0#16 then { r with privResetTimer := 2 } else r
  if val &&& dspCsrHalt ≠ 0#16 then
    { r with privHalt := true, outMboxH := r.outMboxH &&& ~~~0x8000#16 }
  else if r.privHalt then
    { r with privHalt := false, outMboxH := r.outMboxH ||| 0x8000#16 }
  else r

def setHigh (reg val : Word) : Word := (reg &&& 0x0000FFFF#32) ||| (val <<< 16)

def setLow (reg val : Word) : Word := (reg &&& 0xFFFF0000#32) ||| val

def dspWrite (addr val : Word) (accessWidth : ℤ) (d : Device DspState) : Access DspState Unit :=
  let r := d.regs
  if accessWidth = 4 then
    match offset addr 0x00000FFF#32 with
    | 0x020 => d.break { r with dmaMMAddr := val }
    | 0x024 => d.break { r with dmaARAddr := val }
    | 0x028 => d.break (dspDmaStart { r with dmaSize := val })
    | _ => .fatal d ()
  else if accessWidth = 2 then
    let val := val &&& 0x0000FFFF#32
    let half : Half := val.setWidth 16
    match offset addr 0x00000FFF#32 with
    | 0x000 =>
      let r := { r with inMboxH := half }
      d.break (if val &&& 0x00008000#32 ≠ 0#32 then dspMboxPushH half r else r)
    | 0x002 =>
      let r := { r with inMboxL := half }
      d.break (if r.inMboxH &&& 0x8000#16 ≠ 0#16 then dspMboxPushL half r else r)
    | 0x004 =>
      d.break (if val &&& 0x00008000#32 ≠ 0#32 then
        { r with outMboxH := r.outMboxH ||| 0x8000#16 }
        else { r with outMboxH := r.outMboxH &&& ~~~0x8000#16 })
    | 0x006 => d.break r -- only warns
    | 0x00A => d.break (dspWriteCsr half r)
    | 0x012 => d.break { r with arSize := half }
    | 0x020 => d.break { r with dmaMMAddr := setHigh r.dmaMMAddr val }
    | 0x022 => d.break { r with dmaMMAddr := setLow r.dmaMMAddr val }
    | 0x024 => d.break { r with dmaARAddr := setHigh r.dmaARAddr val }
    | 0x026 => d.break { r with dmaARAddr := setLow r.dmaARAddr val }
    | 0x028 => d.break { r with dmaSize := setHigh r.dmaSize val }
    | 0x02A => d.break (dspDmaStart { r with dmaSize := setLow r.dmaSize val })
    | _ => .fatal d ()
  else if accessWidth = 1 then .fatal d ()
  else .fallOut d ()

end DolTools
