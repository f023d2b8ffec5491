import DolTools.Mem.Bat

/-! The host mappings that follow the BATs: `E_MemReloadMap`, `E_MemMapFixups` and
`E_MemInit`. Every function takes the kernel and, where `E_MemReloadMap` is called, the value
that its uninitialised local `vaddr` happens to hold. -/
namespace DolTools

namespace MemState

def setMapI (m : MemState) (ram : Ram) (i : Fin 8) (addr : Word) : MemState :=
  { m with mapI := Function.update m.mapI ram (Function.update (m.mapI ram) i addr) }

def setMapD (m : MemState) (ram : Ram) (i : Fin 8) (addr : Word) : MemState :=
  { m with mapD := Function.update m.mapD ram (Function.update (m.mapD ram) i addr) }

end MemState

/-- The locals of `E_MemReloadMap` that live across iterations. -/
structure ReloadLoop where
  s : EmuState
  vaddr : Word
  returned : Bool

def ReloadLoop.fail (l : ReloadLoop) : ReloadLoop := { l with s := l.s.fatal, returned := true }

/-- What the two console cases of the loop differ in: the RAMs a BAT may name, and the
windows whose failed instruction mapping is fatal. -/
structure ReloadPath where
  ramOf : Word → Option Ram
  ibatFatal : Word → Bool

def gcnPath : ReloadPath where
  ramOf paddr := if paddr = mem1Paddr then some .mem1 else none
  ibatFatal _ := true

def wiiPath : ReloadPath where
  ramOf paddr :=
    if paddr = mem1Paddr then some .mem1
    else if paddr = mem2Paddr then some .mem2
    else none
  ibatFatal vaddr := decide (vaddr < maxAllowedVaddr)

def slotI (s : EmuState) (ram : Ram) (vaddr : Word) : Bool :=
  (batIndices s.maxBAT).any (fun j => s.mem.mapI ram j == vaddr)

/-- The already-mapped test of a data BAT, which does not override instruction mappings. -/
def slotD (s : EmuState) (ram : Ram) (vaddr : Word) : Bool :=
  (batIndices s.maxBAT).any (fun j => s.mem.mapD ram j == vaddr || s.mem.mapI ram j == vaddr)

/-- Map a RAM at `vaddr` and keep the answer in slot `i`. -/
def mapWindow (k : Kernel) (ram : Ram) (i : Fin 8) (vaddr : Word) (exec fatal : Bool)
    (s : EmuState) : ReloadLoop :=
  let r := s.host.mmap k ram vaddr (s.mem.size ram) exec
  let mem := if exec then s.mem.setMapI ram i r.1 else s.mem.setMapD ram i r.1
  let s := { s with host := r.2, mem := mem }
  if r.1 = mapFailed ∧ fatal then ⟨s.fatal,vaddr,true⟩ else ⟨s,vaddr,false⟩

/-- The instruction half of an iteration. The test for an existing mapping compares with
`vaddr` before the entry sets it. -/
def reloadIbat (k : Kernel) (path : ReloadPath) (i : Fin 8) (l : ReloadLoop) : ReloadLoop :=
  let b := l.s.bat false i
  if b.isZero then l
  else match path.ramOf b.bprn with
  | none => l.fail
  | some ram =>
    if slotI l.s ram l.vaddr then l
    else mapWindow k ram i b.bepi true (path.ibatFatal b.bepi) l.s

def reloadDbat (k : Kernel) (path : ReloadPath) (i : Fin 8) (l : ReloadLoop) : ReloadLoop :=
  let b := l.s.bat true i
  if b.isZero then l
  else match path.ramOf b.bprn with
  | none => l.fail
  | some ram =>
    if slotD l.s ram b.bepi then { l with vaddr := b.bepi }
    else mapWindow k ram i b.bepi false (decide (b.bepi < maxAllowedVaddr)) l.s

def reloadBoth (k : Kernel) (path : ReloadPath) (i : Fin 8) (l : ReloadLoop) : ReloadLoop :=
  let l := reloadIbat k path i l
  if l.returned then l else reloadDbat k path i l

/-- One iteration of the loop of `E_MemReloadMap`. -/
def reloadBat (k : Kernel) (l : ReloadLoop) (i : Fin 8) : ReloadLoop :=
  if l.returned then l
  else if (l.s.bat false i).isZero && (l.s.bat true i).isZero then l
  else match l.s.consoleType with
  | .gamecube => reloadBoth k gcnPath i l
  | .wii => reloadBoth k wiiPath i l
  | .other => l.fail

def memReloadMap (k : Kernel) (vaddr : Word) (s : EmuState) : EmuState :=
  ((batIndices s.maxBAT).foldl (reloadBat k) ⟨s,vaddr,false⟩).s

def munmapSlot (addr size : Word) (h : Host) : Host :=
  if addr ≠ mapFailed then h.munmap addr size else h

/-- One iteration of the two loops that unmap everything the slots remember. -/
def unmapBat (s : EmuState) (i : Fin 8) : EmuState :=
  let host := munmapSlot (s.mem.mapI .mem1 i) (s.mem.size .mem1) s.host
  let host := munmapSlot (s.mem.mapD .mem1 i) (s.mem.size .mem1) host
  let host := munmapSlot (s.mem.mapI .mem2 i) (s.mem.size .mem2) host
  let host := munmapSlot (s.mem.mapD .mem2 i) (s.mem.size .mem2) host
  { s with
    host := host
    mem := (((s.mem.setMapI .mem1 i mapFailed).setMapD .mem1 i mapFailed).setMapI .mem2 i
      mapFailed).setMapD .mem2 i mapFailed }

def unmapAll (s : EmuState) : EmuState := (batIndices s.maxBAT).foldl unmapBat s

def mapPhys (k : Kernel) (ram : Ram) (s : EmuState) : EmuState :=
  let r := s.host.mmap k ram (ramPaddr ram) (s.mem.size ram) true
  let s := { s with host := r.2, mem := (s.mem.setMapI ram 0 r.1).setMapD ram 0 r.1 }
  if r.1 = mapFailed then s.fatal else s

/-- The physical mappings of the real mode. -/
def mapReal (k : Kernel) (s : EmuState) : EmuState :=
  match s.consoleType with
  | .gamecube => mapPhys k .mem1 s
  | .wii =>
    let s := mapPhys k .mem1 s
    if s.mem.mapI .mem1 0 = mapFailed then s else mapPhys k .mem2 s
  | .other => s.fatal

/-- The entry of `E_MemMapFixups`: its log line, and the flag cleared. -/
def fixupsEntry (oldMsr : Word) (s : EmuState) : EmuState :=
  { s with host := s.host.log (.fixups oldMsr s.cpu.msr), needsMemMapUpdate := false }

/-- `E_MemMapFixups` up to the call of `E_MemReloadMap`. -/
def reloadStart (oldMsr : Word) (s : EmuState) : EmuState :=
  if !isTranslating oldMsr && isTranslating s.cpu.msr then unmapAll (fixupsEntry oldMsr s)
  else fixupsEntry oldMsr s

def memMapFixups (k : Kernel) (vaddr oldMsr : Word) (s : EmuState) : EmuState :=
  if irEnabled s.cpu.msr ≠ drEnabled s.cpu.msr then (fixupsEntry oldMsr s).fatal
  else if isTranslating oldMsr && !isTranslating s.cpu.msr then
    mapReal k (unmapAll (fixupsEntry oldMsr s))
  else if isTranslating s.cpu.msr then memReloadMap k vaddr (reloadStart oldMsr s)
  else fixupsEntry oldMsr s

/-- What `E_MemInit` gets from the host: the descriptors of `memfd_create`, the results of
`ftruncate`, and whether `malloc` has the ARAM. -/
structure MemInitEnv where
  memfd : Ram → ℤ
  ftruncate : Ram → ℤ
  malloc : Bool

def enomem : ℤ := 12
def einval : ℤ := 22

/-- `memfd_create` and `ftruncate` of one RAM; `none` is a failure. -/
def createRam (env : MemInitEnv) (ram : Ram) (size : Word) (s : EmuState) :
    EmuState × Bool :=
  let s := { s with mem := { s.mem with
    size := Function.update s.mem.size ram size
    fd := Function.update s.mem.fd ram (env.memfd ram) } }
  (s,decide (0 ≤ env.memfd ram ∧ env.ftruncate ram = 0))

/-- The upper register of the default BATs: 256 MiB, VS and VP. -/
def defaultUpper (bepi : Word) : Word := bepi ||| (batuBl256mb <<< batuBlShift) ||| batuVs ||| batuVp

def defaultLower (bprn wimg : Word) : Word := bprn ||| (wimg <<< batlWimgShift) ||| batlPpRw

/-- The default BATs of MEM1: instruction, data, and data uncached. -/
def setMem1Bats (c : CpuState) : CpuState :=
  { c with
    ibatl := Function.update c.ibatl 0 (defaultLower 0 0)
    ibatu := Function.update c.ibatu 0 (defaultUpper 0x80000000#32)
    dbatl := Function.update (Function.update c.dbatl 0 (defaultLower 0 0)) 1 (defaultLower 0 5)
    dbatu := Function.update (Function.update c.dbatu 0 (defaultUpper 0x80000000#32)) 1
      (defaultUpper 0xC0000000#32) }

def setMem2Bats (c : CpuState) : CpuState :=
  { c with
    ibatl := Function.update c.ibatl 4 (defaultLower 0x10000000#32 0)
    ibatu := Function.update c.ibatu 4 (defaultUpper 0x90000000#32)
    dbatl := Function.update (Function.update c.dbatl 4 (defaultLower 0x10000000#32 0)) 5
      (defaultLower 0x10000000#32 5)
    dbatu := Function.update (Function.update c.dbatu 4 (defaultUpper 0x90000000#32)) 5
      (defaultUpper 0xD0000000#32) }

/-- 24 MiB MEM1, no MEM2, 16 MiB ARAM. The loops that would set the slots to `MAP_FAILED` test
`i > 8` and never run. -/
def gcnRegions (env : MemInitEnv) (s : EmuState) : ℤ × EmuState :=
  let r := createRam env .mem1 0x01800000#32 { s with maxBAT := 4 }
  if !r.2 then (-enomem,r.1)
  else
    let s := { r.1 with mem := { r.1.mem with aramSize := 0x01000000#32 } }
    if !env.malloc then (-enomem,s)
    else
      let mem := { s.mem with
        fd := Function.update s.mem.fd .mem2 (-1)
        size := Function.update s.mem.size .mem2 0 }
      (0,{ s with mem := mem, cpu := setMem1Bats s.cpu })

def wiiRegions (env : MemInitEnv) (s : EmuState) : ℤ × EmuState :=
  let r := createRam env .mem1 0x01800000#32 { s with maxBAT := 8 }
  if !r.2 then (-enomem,r.1)
  else
    let r := createRam env .mem2 0x04000000#32
      { r.1 with mem := { r.1.mem with aramSize := 0 } }
    if !r.2 then (-enomem,r.1)
    else (0,{ r.1 with cpu := setMem2Bats (setMem1Bats r.1.cpu) })

def memRegions (env : MemInitEnv) (s : EmuState) : ℤ × EmuState :=
  match s.consoleType with
  | .gamecube => gcnRegions env s
  | .wii => wiiRegions env s
  | .other => (-einval,s)

/-- `E_MemInit` -/
def memInit (k : Kernel) (vaddr : Word) (env : MemInitEnv) (s : EmuState) : ℤ × EmuState :=
  let r := memRegions env s
  if r.1 ≠ 0 then r else (0,memMapFixups k vaddr r.2.cpu.msr r.2)

end DolTools
