import DolTools.Mmio.Device

/-! The video, processor, memory and audio interfaces: their registers, and the read and
write routines, each a switch on the register for every access width. Registers that no
routine reads or writes are left out. -/
namespace DolTools

/-! Video interface -/

/-- `struct _vi_state`, as far as an access reaches it. -/
structure ViState where
  viclk : Half

def viRead (addr : Word) (accessWidth : ℤ) (d : Device ViState) : Access ViState Word :=
  if accessWidth = 4 then .fatal d 0
  else if accessWidth = 2 then
    match offset addr 0x00000FFF#32 with
    | 0x06C => .ret d (d.regs.viclk.setWidth 32)
    | _ => .fatal d 0
  else if accessWidth = 1 then .fatal d 0
  else .fallOut d 0

def viWrite (_addr _val : Word) (accessWidth : ℤ) (d : Device ViState) : Access ViState Unit :=
  if accessWidth = 4 then .fatal d ()
  else if accessWidth = 2 then .fatal d ()
  else if accessWidth = 1 then .fatal d ()
  else .fallOut d ()

/-! Processor interface -/

/-- `struct _pi_state` -/
structure PiState where
  intsr : Word
  intmr : Word
  fifoBs : Word
  fifoBe : Word
  fifoWp : Word

def piRead (addr : Word) (accessWidth : ℤ) (d : Device PiState) : Access PiState Word :=
  if accessWidth = 4 then
    match offset addr 0x00000FFF#32 with
    | 0x000 => .ret d d.regs.intsr
    | 0x004 => .ret d d.regs.intmr
    | 0x00C => .ret d d.regs.fifoBs
    | 0x010 => .ret d d.regs.fifoBe
    | 0x014 => .ret d d.regs.fifoWp
    | 0x02C => .ret d 0x246500B1#32 -- hardware version
    | _ => .fatal d 0
  else if accessWidth = 2 then .fatal d 0
  else if accessWidth = 1 then .fatal d 0
  else .fallOut d 0

def piWrite (addr val : Word) (accessWidth : ℤ) (d : Device PiState) : Access PiState Unit :=
  if accessWidth = 4 then
    match offset addr 0x00000FFF#32 with
    | 0x000 => d.break { d.regs with intsr := val }
    | 0x004 => d.break { d.regs with intmr := val }
    | 0x00C => d.break { d.regs with fifoBs := val }
    | 0x010 => d.break { d.regs with fifoBe := val }
    | 0x014 => d.break { d.regs with fifoWp := val }
    | 0x02C => d.break d.regs -- only warns
    | _ => .fatal d ()
  else if accessWidth = 2 then .fatal d ()
  else if accessWidth = 1 then .fatal d ()
  else .fallOut d ()

/-! Memory interface -/

/-- `struct _mi_state`, as far as an access reaches it. -/
structure MiState where
  protType : Half
  intMask : Half
  unk20 : Half

def miRead (addr : Word) (accessWidth : ℤ) (d : Device MiState) : Access MiState Word :=
  if accessWidth = 4 then .fatal d 0
  else if accessWidth = 2 then
    match offset addr 0x000000FF#32 with
    | 0x1C => .ret d (d.regs.intMask.setWidth 32)
    | 0x20 => .ret d (d.regs.unk20.setWidth 32)
    -- the label `default` stands right before `case 0x10`, so both return this register
    | _ => .ret d (d.regs.protType.setWidth 32)
  else if accessWidth = 1 then .fatal d 0
  else .fallOut d 0

def miWrite (addr val : Word) (accessWidth : ℤ) (d : Device MiState) : Access MiState Unit :=
  if accessWidth = 4 then .fatal d ()
  else if accessWidth = 2 then
    let val := val &&& 0x0000FFFF#32
    match offset addr 0x000000FF#32 with
    | 0x10 => d.break { d.regs with protType := val.setWidth 16 }
    | 0x1C => d.break { d.regs with intMask := val.setWidth 16 }
    | 0x20 => d.break { d.regs with unk20 := val.setWidth 16 }
    | _ => .fatal d ()
  else if accessWidth = 1 then .fatal d ()
  else .fallOut d ()

/-! Audio interface -/

/-- `struct _ai_state` -/
structure AiState where
  aicr : Word

def aiRead (addr : Word) (accessWidth : ℤ) (d : Device AiState) : Access AiState Word :=
  if accessWidth = 4 then
    match offset addr 0x000000FF#32 with
    | 0x00 => .ret d d.regs.aicr
    | _ => .fatal d 0
  else if accessWidth = 2 then
    match offset addr 0x000000FF#32 with
    | 0x00 => .ret d (d.regs.aicr &&& 0x0000FFFF#32)
    | _ => .fatal d 0
  else if accessWidth = 1 then .fatal d 0
  else .fallOut d 0

def aiWrite (addr val : Word) (accessWidth : ℤ) (d : Device AiState) : Access AiState Unit :=
  if accessWidth = 4 then
    match offset addr 0x000000FF#32 with
    | 0x00 => d.break { d.regs with aicr := val }
    | _ => .fatal d ()
  else if accessWidth = 2 then
    let val := val &&& 0x00000FFF#32 -- twelve bits, where the sibling blocks keep sixteen
    match offset addr 0x000000FF#32 with
    | 0x00 =>
      d.break { d.regs with
        aicr := (d.regs.aicr &&& 0xFFFF0000#32) ||| (val &&& 0x0000FFFF#32) }
    | _ => .fatal d ()
  else if accessWidth = 1 then .fatal d ()
  else .fallOut d ()

end DolTools
