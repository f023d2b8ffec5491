import DolTools.Dol.Header
import DolTools.Emu.Boot
import DolTools.Library.LastWrite
import DolTools.Library.PartialReads
import DolTools.Mem.DefaultMap
import DolTools.Mem.Devices

/-! The loading of a DOL file: `main` from the set-up of the map over the copying of the sections
to the entry of the guest. The console type is what the detection has found. The mapping of the
file, and what lies behind it, is apart from the windows of the RAMs. -/
namespace DolTools
open BigEndian ByteOrder LastWrite PartialReads

/-- The contents of the two memfds. -/
abbrev RamBytes := Ram → ℕ → Byte

/-- A section: where it is loaded, its size, and its offset in the file. -/
structure Section where
  addr : Word
  size : Word
  off : Word
  deriving DecidableEq, Repr

namespace DolHdr

variable (hdr : DolHdr)

def textSection (i : Fin 7) : Section := ⟨hdr.textAddr i,hdr.textSize i,hdr.textOff i⟩
def dataSection (i : Fin 11) : Section := ⟨hdr.dataAddr i,hdr.dataSize i,hdr.dataOff i⟩
def textSections : List Section := (List.finRange 7).map hdr.textSection
def dataSections : List Section := (List.finRange 11).map hdr.dataSection
def sections : List Section := hdr.textSections ++ hdr.dataSections

end DolHdr

/-- The header as `main` sees it in the mapped file; the machine is big-endian. -/
def fileHdr (file : List Byte) : DolHdr := dolHdrByteswap .big (overlay .big (ofList file))

/-- A store to the RAM that the host address shows; `none` is a fault. -/
def storeByte (space : AddressMap Backing) (addr : Word) (b : Byte) (ram : RamBytes) :
    Option RamBytes :=
  (space addr.toNat).map (fun x =>
    Function.update ram x.ram (Function.update (ram x.ram) x.offset b))

def memcpy (space : AddressMap Backing) (dest : Word) : List Byte → RamBytes → Option RamBytes
  | [], ram => some ram
  | b::src, ram => (storeByte space dest b ram).bind (memcpy space (dest + 1#32) src)

/-- The loops skip a section without bytes or without an offset. -/
def Section.skipped (sec : Section) : Bool := sec.size == 0 || sec.off == 0

/-- The end of the last page of the mapped file. -/
def fileEnd (file : List Byte) : ℕ := (file.length + 0xFFF) / 0x1000 * 0x1000

/-- A load at a distance from the start of the mapped file, which zeros follow up to the end of
its page; behind that lies what the process has there, and `none` is a fault. -/
def mappedByte (behind : ℕ → Option Byte) (file : List Byte) (a : ℕ) : Option Byte :=
  if a < fileEnd file then some (file.getD a 0) else behind a

def sectionBytes (behind : ℕ → Option Byte) (file : List Byte) (sec : Section) :
    Option (List Byte) :=
  (List.range sec.size.toNat).mapM (fun i => mappedByte behind file (sec.off.toNat + i))

/-- One iteration of the two copy loops; `none` is a fault, behind the file or in the RAM. -/
def copySection (behind : ℕ → Option Byte) (file : List Byte) (space : AddressMap Backing)
    (ram : RamBytes) (sec : Section) : Option RamBytes :=
  if sec.skipped then some ram
  else (sectionBytes behind file sec).bind (fun src => memcpy space sec.addr src ram)

def copySections (behind : ℕ → Option Byte) (file : List Byte) (space : AddressMap Backing)
    (hdr : DolHdr) (ram : RamBytes) : Option RamBytes :=
  (hdr.textSections.foldlM (copySection behind file space) ram).bind
    (fun ram => hdr.dataSections.foldlM (copySection behind file space) ram)

/-- The address of a first section that is BS1. -/
def bs1Addr : Word := 0x80003400#32

def isBs1 (hdr : DolHdr) : Bool := hdr.textAddr 0 == bs1Addr

def entryPoint (hdr : DolHdr) : Word := if isBs1 hdr then 0x00003400#32 else hdr.entry

def loadEnv (env : BootEnv) (hdr : DolHdr) : BootEnv := { env with usePhys := isBs1 hdr }

/-- `main` up to the copy loops; `none` where it exits. -/
def loadStart (k : Kernel) (env : BootEnv) : Option EmuState :=
  if env.hostType = .other then none
  else
    let s := (memInit k env.vaddr env.mem (bootStart env)).2
    if s.fatalError then none
    else
      let s := chipsetInit env.forward env.iram s
      if s.fatalError then none else some s

/-- `main` behind the copy loops, up to the entry of the guest. -/
def loadEnd (k : Kernel) (env : BootEnv) (s : EmuState) : Option EmuState :=
  if !env.handlers then none
  else
    let s := cpuInit (bootRemap k env s)
    if s.fatalError then none else some s

/-- What `main` has set up when it calls `entry`. -/
structure Loaded where
  state : EmuState
  ram : RamBytes
  entry : Word

/-- `main` with the contents of the RAMs; an empty file cannot be mapped. -/
def loadMain (k : Kernel) (env : BootEnv) (file : List Byte) (ram : RamBytes) : Option Loaded :=
  if file.isEmpty then none
  else
    let hdr := fileHdr file
    let env := loadEnv env hdr
    (loadStart k env).bind (fun s =>
      (copySections env.behind file s.host.space hdr ram).bind (fun ram =>
        (loadEnd k env s).map (fun t => ⟨t,ram,entryPoint hdr⟩)))

/-- The two halves are the boot of the runs. -/
theorem boot_eq_load (k : Kernel) (env : BootEnv) :
    boot k env = (loadStart k env).bind (loadEnd k env) := by
  unfold boot bootRest loadStart loadEnd
  dsimp only
  split_ifs <;> simp_all

/-- The section goes to the byte of MEM1. -/
def Section.Covers (sec : Section) (o : ℕ) : Prop :=
  sec.skipped = false ∧ sec.addr.toNat ≤ mem1Base.toNat + o ∧
    mem1Base.toNat + o < sec.addr.toNat + sec.size.toNat

instance (sec : Section) (o : ℕ) : Decidable (sec.Covers o) :=
  inferInstanceAs (Decidable (_ ∧ _))

/-- The section lies inside the file, and is loaded inside MEM1. -/
structure Section.Fits (file : List Byte) (sec : Section) : Prop where
  inFile : sec.off.toNat + sec.size.toNat ≤ file.length
  low : mem1Base.toNat ≤ sec.addr.toNat
  high : sec.addr.toNat + sec.size.toNat ≤ mem1Base.toNat + mem1Size.toNat

/-- What a copied section leaves in the RAMs. -/
def writeSection (file : List Byte) (ram : RamBytes) (sec : Section) : RamBytes :=
  fun r o => if r = .mem1 ∧ sec.Covers o then
    file.getD (sec.off.toNat + (mem1Base.toNat + o - sec.addr.toNat)) 0 else ram r o

section

variable {behind : ℕ → Option Byte} {space : AddressMap Backing} {file : List Byte}
  {ram : RamBytes} {sec : Section} {secs : List Section}

lemma base_add_size : mem1Base.toNat + mem1Size.toNat < 2^32 := by decide

/-- Copying into the window of MEM1 does not fault, and writes the bytes there. -/
lemma memcpy_eq (hshown : ShowsMem1 space) {src : List Byte} {dest : Word}
    (hlow : mem1Base.toNat ≤ dest.toNat)
    (hhigh : dest.toNat + src.length ≤ mem1Base.toNat + mem1Size.toNat) :
    memcpy space dest src ram = some (fun r o =>
      if r = .mem1 ∧ dest.toNat ≤ mem1Base.toNat + o ∧ mem1Base.toNat + o < dest.toNat + src.length
      then src.getD (mem1Base.toNat + o - dest.toNat) 0 else ram r o) := by
  induction src generalizing dest ram with
  | nil =>
    rw [memcpy, Option.some.injEq]
    funext r o
    rw [if_neg]
    rintro ⟨-,hl,hr⟩
    simp only [List.length_nil] at hr
    omega
  | cons b src ih =>
    rw [List.length_cons] at hhigh
    obtain ⟨d,hd⟩ := Nat.exists_eq_add_of_le hlow
    obtain ⟨exec,hx⟩ := hshown d (by omega)
    have hstore : storeByte space dest b ram =
        some (Function.update ram .mem1 (Function.update (ram .mem1) d b)) := by
      rw [storeByte, hd, hx]
      rfl
    have hnext : (dest + 1#32).toNat = dest.toNat + 1 := by
      have hbound := base_add_size
      rw [BitVec.toNat_add]
      exact Nat.mod_eq_of_lt (by change dest.toNat + 1 < 2^32; omega)
    rw [memcpy, hstore, Option.bind_some, ih (by omega) (by omega), hnext, Option.some.injEq]
    funext r o
    simp only [List.length_cons]
    by_cases hr : r = .mem1
    · subst hr
      rw [Function.update_self]
      by_cases ho : o = d
      · -- the first byte, which the rest of the copy leaves alone
        subst ho
        rw [if_neg (by omega), Function.update_self, if_pos ⟨rfl,by omega,by omega⟩, hd,
          Nat.sub_self]
        rfl
      · rw [Function.update_of_ne ho]
        by_cases hin : dest.toNat + 1 ≤ mem1Base.toNat + o ∧
            mem1Base.toNat + o < dest.toNat + 1 + src.length
        · rw [if_pos ⟨rfl,hin⟩, if_pos ⟨rfl,by omega,by omega⟩]
          obtain ⟨j,hj⟩ := Nat.exists_eq_add_of_le hin.1
          rw [hj, Nat.add_sub_cancel_left, Nat.add_right_comm, Nat.add_assoc,
            Nat.add_sub_cancel_left, List.getD_cons_succ]
        · rw [if_neg (fun h => hin h.2), if_neg]
          rintro ⟨-,hl,hh⟩
          omega
    · rw [Function.update_of_ne hr, if_neg (fun h => hr h.1), if_neg (fun h => hr h.1)]

lemma le_fileEnd (file : List Byte) : file.length ≤ fileEnd file := by
  unfold fileEnd
  omega

lemma mappedByte_eq {a : ℕ} (ha : a < file.length) :
    mappedByte behind file a = some (file.getD a 0) :=
  if_pos (ha.trans_le (le_fileEnd file))

lemma sectionBytes_eq_some {src : List Byte} : sectionBytes behind file sec = some src ↔
    src.length = sec.size.toNat ∧
      ∀ i < sec.size.toNat, mappedByte behind file (sec.off.toNat + i) = src[i]? :=
  mapM_range_eq_some_iff

/-- A section inside the file can be read, and is what the file holds. -/
lemma exists_sectionBytes (behind : ℕ → Option Byte)
    (hin : sec.off.toNat + sec.size.toNat ≤ file.length) :
    ∃ src, sectionBytes behind file sec = some src ∧ src.length = sec.size.toNat ∧
      ∀ i < sec.size.toNat, src.getD i 0 = file.getD (sec.off.toNat + i) 0 := by
  have hread : ∀ i < sec.size.toNat, mappedByte behind file (sec.off.toNat + i) =
      some (file.getD (sec.off.toNat + i) 0) := fun i hi => mappedByte_eq (by omega)
  obtain ⟨src,hsrc⟩ : ∃ src, sectionBytes behind file sec = some src := by
    apply Option.isSome_iff_exists.mp
    apply mapM_isSome_iff.mpr
    intro i hi
    rw [hread i (List.mem_range.mp hi)]
    rfl
  obtain ⟨hlen,hget⟩ := sectionBytes_eq_some.mp hsrc
  refine ⟨src,hsrc,hlen,?_⟩
  intro i hi
  rw [List.getD_eq_getElem?_getD, ← hget i hi, hread i hi]
  rfl

lemma copySection_eq (hshown : ShowsMem1 space) (hfits : sec.skipped = false → sec.Fits file) :
    copySection behind file space ram sec = some (writeSection file ram sec) := by
  unfold copySection
  split
  · rename_i hskip
    have hsame : writeSection file ram sec = ram := by
      funext r o
      rw [writeSection, if_neg]
      rintro ⟨-,hcover,-⟩
      rw [hskip] at hcover
      contradiction
    rw [hsame]
  · rename_i hskip
    have hskip' : sec.skipped = false := by simpa using hskip
    have hf := hfits hskip'
    obtain ⟨src,hsrc,hlen,hget⟩ := exists_sectionBytes behind hf.inFile
    rw [hsrc, Option.bind_some, memcpy_eq hshown hf.low (by rw [hlen]; exact hf.high),
      Option.some.injEq]
    funext r o
    rw [hlen]
    by_cases hcover : r = .mem1 ∧ sec.Covers o
    · rw [if_pos ⟨hcover.1,hcover.2.2⟩, writeSection, if_pos hcover]
      obtain ⟨-,-,hl,hh⟩ := hcover
      exact hget _ (by omega)
    · rw [writeSection, if_neg hcover, if_neg]
      rintro ⟨hr,hin⟩
      exact hcover ⟨hr,hskip',hin⟩

lemma foldlM_copySection (hshown : ShowsMem1 space)
    (hfits : ∀ sec ∈ secs, sec.skipped = false → sec.Fits file) :
    secs.foldlM (copySection behind file space) ram = some (secs.foldl (writeSection file) ram) := by
  induction secs generalizing ram with
  | nil => rfl
  | cons sec secs ih =>
    rw [List.foldlM_cons, copySection_eq hshown (hfits sec List.mem_cons_self)]
    exact ih (fun sec' h => hfits sec' (List.mem_cons_of_mem sec h))

/-- If every section fits, none faults. -/
theorem copySections_eq {hdr : DolHdr} (hshown : ShowsMem1 space)
    (hfits : ∀ sec ∈ hdr.sections, sec.skipped = false → sec.Fits file) :
    copySections behind file space hdr ram = some (hdr.sections.foldl (writeSection file) ram) := by
  have htext : ∀ sec ∈ hdr.textSections, sec.skipped = false → sec.Fits file :=
    fun sec h => hfits sec (List.mem_append_left _ h)
  have hdata : ∀ sec ∈ hdr.dataSections, sec.skipped = false → sec.Fits file :=
    fun sec h => hfits sec (List.mem_append_right _ h)
  rw [copySections, foldlM_copySection hshown htext, Option.bind_some,
    foldlM_copySection hshown hdata, DolHdr.sections, List.foldl_append]

/-- Two sections that are both copied go to different places. -/
def Section.Apart (a b : Section) : Prop :=
  a.skipped = false → b.skipped = false →
    AddressMap.Apart a.addr.toNat a.size.toNat b.addr.toNat b.size.toNat

/-- A section that no later one overlaps stands in MEM1 when all are copied. -/
theorem writeSections_apart (hapart : secs.Pairwise Section.Apart) (hsec : sec ∈ secs) {o : ℕ}
    (ho : sec.Covers o) : secs.foldl (writeSection file) ram .mem1 o =
      file.getD (sec.off.toNat + (mem1Base.toNat + o - sec.addr.toNat)) 0 := by
  obtain ⟨pre,post,rfl⟩ := List.append_of_mem hsec
  obtain ⟨-,htail,-⟩ := List.pairwise_append.mp hapart
  obtain ⟨hpost,-⟩ := List.pairwise_cons.mp htail
  refine foldl_last (fun _ : RamBytes => True) (fun ram : RamBytes => ram .mem1 o)
    (fun sec : Section => sec.Covers o)
    (fun _ sec => file.getD (sec.off.toNat + (mem1Base.toNat + o - sec.addr.toNat)) 0)
    (fun _ _ _ => trivial) ?_ ?_ trivial ho ?_
  · intro ram sec _ hcover
    exact if_neg (fun h => hcover h.2)
  · intro ram sec _ hcover
    exact if_pos ⟨rfl,hcover⟩
  · intro sec' hsec' hcover
    have hd := hpost sec' hsec' ho.1 hcover.1
    obtain ⟨-,hl,hh⟩ := ho
    obtain ⟨-,hl',hh'⟩ := hcover
    unfold AddressMap.Apart at hd
    omega

end

/-! The map at the time of the copying. -/

/-- The calls into the host by which `main` gets to its copy loops. -/
structure ReachesCopy (env : BootEnv) : Prop where
  host : env.hostType ≠ .other
  timer : env.timer = true
  devMem : env.forward.openSucceeds = true
  flipper : env.forward.flipper ≠ mapFailed
  hlwd : env.hostType = .wii → env.forward.hlwd ≠ mapFailed

section

variable {k : Kernel} {env : BootEnv} {s : EmuState}

lemma memInitSucceeds_iff :
    MemInitSucceeds k env ↔ RegionsGranted env.mem env.consoleType := by
  rw [MemInitSucceeds, memInit_fst, memRegions_fst, bootStart_consoleType]

/-- With translation on and every region granted, `E_MemInit` shows MEM1 at its cached base. -/
theorem memInit_shows (hk : k.GrantsLow) (hgranted : RegionsGranted env.mem env.consoleType)
    (hvirt : env.usePhys = false) :
    ShowsMem1 (memInit k env.vaddr env.mem (bootStart env)).2.host.space := by
  have hmem : MemInitSucceeds k env := memInitSucceeds_iff.mpr hgranted
  obtain ⟨msr,hregions⟩ := memRegions_regions hmem
  have hd : DefaultBats (memRegions env.mem (bootStart env)).2 :=
    defaultBats_of_regions hregions
  have hset : ((memRegions env.mem (bootStart env)).2.maxBAT = 4 ∨
      (memRegions env.mem (bootStart env)).2.maxBAT = 8) ∧
      (memRegions env.mem (bootStart env)).2.mem.size .mem1 = mem1Size := by
    cases hregions with
    | gamecube _ hbats _ hsize _ => exact ⟨.inl hbats,hsize⟩
    | wii _ hbats _ hsize _ => exact ⟨.inr hbats,hsize⟩
  rw [memInit_of_virtual hmem hvirt]
  exact memReloadMap_showsMem1 hk ⟨hd.set,hd.first⟩ hset.1 hset.2
    (fun i => ⟨memRegions_slot env .mem1 (i,false),memRegions_slot env .mem1 (i,true)⟩)

/-- In real mode, or without the regions, `E_MemInit` maps nothing. -/
theorem memInit_maps_nothing (h : env.usePhys = true ∨
      ¬ RegionsGranted env.mem env.consoleType) (a : ℕ) :
    (memInit k env.vaddr env.mem (bootStart env)).2.host.space a = none := by
  rcases memInit_cases k env with ⟨-,heq⟩ | ⟨-,-,heq⟩ | ⟨hmem,hvirt,-⟩
  · rw [heq, memRegions_space]
  · rw [heq]
    exact memRegions_space env a
  · rcases h with hphys | hno
    · rw [hvirt] at hphys
      contradiction
    · exact absurd (memInitSucceeds_iff.mp hmem) hno

/-- `E_MemInit` adds no error to that of the timer. -/
lemma memInit_fatal (hk : k.GrantsLow) :
    (memInit k env.vaddr env.mem (bootStart env)).2.fatalError = !env.timer := by
  have hstart : (memRegions env.mem (bootStart env)).2.fatalError = !env.timer := by
    rw [(memRegions_step env.mem (bootStart env)).fatal]
    unfold bootStart timerInit
    cases env.timer <;> rfl
  rcases memInit_cases k env with ⟨-,heq⟩ | ⟨-,-,heq⟩ | ⟨hmem,-,heq⟩
  · rw [heq, hstart]
  · rw [heq]
    exact hstart
  · have hd := defaultBats_of_regions (memRegions_regions hmem).choose_spec
    rw [heq]
    cases htimer : env.timer with
    | true =>
      rw [htimer] at hstart
      exact memReloadMap_ok hk ⟨hd.set,hd.first⟩ hstart
    | false =>
      rw [htimer] at hstart
      exact memReloadMap_mapStep.fatal hstart

end

/-- The state outside of CPU and memory is the same. -/
structure SameDevices (s t : EmuState) : Prop where
  hostType : t.hostType = s.hostType
  hooks : t.timersHooks = s.timersHooks

section

variable {k : Kernel} {env : BootEnv} {s t u : EmuState} {l : ReloadLoop} {e : BatRef}

lemma DevicesKept.same (h : DevicesKept s t) : SameDevices s t := ⟨h.hostType,h.timersHooks⟩

lemma memRegions_devicesKept (env : MemInitEnv) (s : EmuState) :
    DevicesKept s (memRegions env s).2 := by
  unfold memRegions
  split
  · unfold gcnRegions
    dsimp only
    split_ifs <;> exact ⟨rfl,rfl,rfl,rfl⟩
  · unfold wiiRegions
    dsimp only
    split_ifs <;> exact ⟨rfl,rfl,rfl,rfl⟩
  · exact ⟨rfl,rfl,rfl,rfl⟩

lemma memInit_devicesKept (k : Kernel) (env : BootEnv) :
    DevicesKept (bootStart env) (memInit k env.vaddr env.mem (bootStart env)).2 := by
  have h := memRegions_devicesKept env.mem (bootStart env)
  have hentry : ∀ oldMsr, DevicesKept (bootStart env)
      (fixupsEntry oldMsr (memRegions env.mem (bootStart env)).2) :=
    fun _ => h.trans ⟨rfl,rfl,rfl,rfl⟩
  rcases memInit_cases k env with ⟨-,heq⟩ | ⟨-,-,heq⟩ | ⟨-,-,heq⟩
  · rwa [heq]
  · rw [heq]
    exact hentry 0
  · rw [heq]
    exact (hentry _).trans memReloadMap_devicesKept

lemma memInit_devices (k : Kernel) (env : BootEnv) :
    SameDevices (bootStart env) (memInit k env.vaddr env.mem (bootStart env)).2 :=
  (memInit_devicesKept k env).same

lemma forwardingInit_ok {fwd : ForwardEnv} : (forwardingInit fwd s).fatalError = false ↔
    s.fatalError = false ∧ fwd.openSucceeds = true ∧ fwd.flipper ≠ mapFailed ∧
      (s.hostType = .wii → fwd.hlwd ≠ mapFailed) := by
  unfold forwardingInit
  dsimp only
  split_ifs <;> simp_all [EmuState.fatal]

/-- With room for two hooks, the chipset meets an error only in its windows of `/dev/mem`. -/
lemma chipsetInit_ok (fwd : ForwardEnv) (iram : Fin 8192 → Byte) (hooks : s.timersHooks = []) :
    (chipsetInit fwd iram s).fatalError = false ↔ s.fatalError = false ∧
      fwd.openSucceeds = true ∧ fwd.flipper ≠ mapFailed ∧
        (s.hostType = .wii → fwd.hlwd ≠ mapFailed) := by
  rw [chipsetInit, forwardingInit_ok]
  simp [timerAddHook, hooks, maxHooks]

/-- `main` gets to its copy loops exactly if these calls succeed, with the map of `E_MemInit`. -/
theorem loadStart_isSome (hk : k.GrantsLow) : (loadStart k env).isSome = true ↔ ReachesCopy env := by
  have hdevices := memInit_devices k env
  have hstart : (bootStart env).hostType = env.hostType ∧ (bootStart env).timersHooks = [] := by
    unfold bootStart timerInit
    cases env.timer <;> exact ⟨rfl,rfl⟩
  have hooks := hdevices.hooks.trans hstart.2
  have hhost := hdevices.hostType.trans hstart.1
  have hok := chipsetInit_ok env.forward env.iram hooks
  rw [hhost, memInit_fatal hk] at hok
  unfold loadStart
  dsimp only
  rw [memInit_fatal hk]
  constructor
  · intro h
    split_ifs at h with hother htimer hfatal
    · contradiction
    · contradiction
    · contradiction
    · have hchip := hok.mp (by simpa using hfatal)
      exact ⟨hother,by simpa using htimer,hchip.2.1,hchip.2.2.1,hchip.2.2.2⟩
  · intro h
    have hchip := hok.mpr ⟨by simp [h.timer],h.devMem,h.flipper,h.hlwd⟩
    rw [if_neg h.host, if_neg (by simp [h.timer]), if_neg (by simp [hchip])]
    rfl

lemma loadStart_space (h : loadStart k env = some s) :
    s.host.space = (memInit k env.vaddr env.mem (bootStart env)).2.host.space := by
  unfold loadStart at h
  dsimp only at h
  split_ifs at h
  obtain rfl := Option.some.inj h
  exact congrArg Host.space (chipsetInit_initStep _ _ _).map.host

end

/-- The file has its sections inside, loaded inside MEM1 and apart from each other. -/
structure FileFits (file : List Byte) : Prop where
  fits : ∀ sec ∈ (fileHdr file).sections, sec.skipped = false → sec.Fits file
  apart : (fileHdr file).sections.Pairwise Section.Apart

/-- What loading owes: every byte is stored to a host address that shows MEM1, and at the entry
MEM1 holds every section. -/
structure LoadsRight (k : Kernel) (env : BootEnv) (file : List Byte) (ram : RamBytes) : Prop where
  mapped : ∀ s, loadStart k (loadEnv env (fileHdr file)) = some s →
    ∀ sec ∈ (fileHdr file).sections, sec.skipped = false → ∀ o < sec.size.toNat,
      ∃ x, s.host.space (sec.addr.toNat + o) = some x ∧ x.ram = .mem1
  loaded : ∀ l, loadMain k env file ram = some l →
    ∀ sec ∈ (fileHdr file).sections, sec.skipped = false → ∀ o < sec.size.toNat,
      file[sec.off.toNat + o]? = some (l.ram .mem1 (sec.addr.toNat - mem1Base.toNat + o))

section

variable {k : Kernel} {env : BootEnv} {file : List Byte} {ram : RamBytes}

lemma loadMain_eq_some {l : Loaded} (h : loadMain k env file ram = some l) :
    ∃ s, loadStart k (loadEnv env (fileHdr file)) = some s ∧
      copySections env.behind file s.host.space (fileHdr file) ram = some l.ram ∧
        loadEnd k (loadEnv env (fileHdr file)) s = some l.state := by
  unfold loadMain at h
  split at h
  · contradiction
  obtain ⟨s,hs,h⟩ := Option.bind_eq_some_iff.mp h
  obtain ⟨r,hr,h⟩ := Option.bind_eq_some_iff.mp h
  obtain ⟨t,ht,rfl⟩ := Option.map_eq_some_iff.mp h
  exact ⟨s,hs,hr,ht⟩

/-- The guest starts in the state of `boot`, whatever the copying does. -/
theorem loadMain_boot {l : Loaded} (h : loadMain k env file ram = some l) :
    boot k (loadEnv env (fileHdr file)) = some l.state := by
  obtain ⟨s,hs,-,hend⟩ := loadMain_eq_some h
  rw [boot_eq_load, hs]
  exact hend

theorem loadsRight_of_shown (hfile : FileFits file)
    (hshown : ∀ s, loadStart k (loadEnv env (fileHdr file)) = some s → ShowsMem1 s.host.space) :
    LoadsRight k env file ram := by
  constructor
  · intro s hs sec hsec hskip o ho
    have hf := hfile.fits sec hsec hskip
    have hlow := hf.low
    have hhigh := hf.high
    obtain ⟨d,hd⟩ := Nat.exists_eq_add_of_le hlow
    obtain ⟨exec,hx⟩ := hshown s hs (d + o) (by omega)
    rw [hd, Nat.add_assoc]
    exact ⟨_,hx,rfl⟩
  · intro l hl sec hsec hskip o ho
    obtain ⟨s,hs,hcopy,-⟩ := loadMain_eq_some hl
    have hf := hfile.fits sec hsec hskip
    have hlow := hf.low
    have hin := hf.inFile
    rw [copySections_eq (hshown s hs) hfile.fits] at hcopy
    obtain ⟨d,hd⟩ := Nat.exists_eq_add_of_le hlow
    rw [hd, Nat.add_sub_cancel_left]
    have hcover : sec.Covers (d + o) := ⟨hskip,by omega,by omega⟩
    rw [← Option.some.inj hcopy, writeSections_apart hfile.apart hsec hcover, hd,
      ← Nat.add_assoc, Nat.add_sub_cancel_left, List.getD_eq_getElem?_getD]
    have hlt : sec.off.toNat + o < file.length := by omega
    rw [List.getElem?_eq_getElem hlt]
    rfl

/-- Nothing is owed where `main` exits before it copies. -/
lemma loadsRight_of_none (h : loadStart k (loadEnv env (fileHdr file)) = none) :
    LoadsRight k env file ram := by
  constructor
  · intro s hs
    rw [h] at hs
    contradiction
  · intro l hl
    obtain ⟨s,hs,-⟩ := loadMain_eq_some hl
    rw [h] at hs
    contradiction

lemma loadsRight_of_skipped (h : ∀ sec ∈ (fileHdr file).sections, sec.skipped = true) :
    LoadsRight k env file ram := by
  constructor
  · intro s _ sec hsec hskip
    rw [h sec hsec] at hskip
    contradiction
  · intro l _ sec hsec hskip
    rw [h sec hsec] at hskip
    contradiction

/-- A section to copy finds no MEM1 where nothing is mapped. -/
lemma skipped_of_nothing {s : EmuState} (h : LoadsRight k env file ram)
    (hs : loadStart k (loadEnv env (fileHdr file)) = some s)
    (hnone : ∀ a, s.host.space a = none) :
    ∀ sec ∈ (fileHdr file).sections, sec.skipped = true := by
  intro sec hsec
  by_contra hskip
  rw [Bool.not_eq_true] at hskip
  have hsize : 0 < sec.size.toNat := by
    rw [Nat.pos_iff_ne_zero]
    intro hzero
    have hz : sec.size = 0 := BitVec.eq_of_toNat_eq hzero
    rw [Section.skipped, hz] at hskip
    contradiction
  obtain ⟨x,hx,-⟩ := h.mapped s hs sec hsec hskip 0 hsize
  rw [hnone] at hx
  contradiction

end

/-- For a file with its sections in order, loading does what it owes exactly if `main` gets to
copying only with the regions granted and a first section that is not BS1, or has nothing to
copy. -/
theorem loadsRight_iff {k : Kernel} {env : BootEnv} {file : List Byte} {ram : RamBytes}
    (hk : k.GrantsLow) (hfile : FileFits file) : LoadsRight k env file ram ↔
      ¬ ReachesCopy env ∨
      (RegionsGranted env.mem env.consoleType ∧ (fileHdr file).textAddr 0 ≠ bs1Addr) ∨
      ∀ sec ∈ (fileHdr file).sections, sec.skipped = true := by
  have hreach : (loadStart k (loadEnv env (fileHdr file))).isSome = true ↔ ReachesCopy env := by
    rw [loadStart_isSome hk]
    exact ⟨fun h => ⟨h.host,h.timer,h.devMem,h.flipper,h.hlwd⟩,
      fun h => ⟨h.host,h.timer,h.devMem,h.flipper,h.hlwd⟩⟩
  constructor
  · intro h
    by_cases hcopy : ReachesCopy env
    · right
      by_contra hno
      obtain ⟨hbad,hsecs⟩ := not_or.mp hno
      obtain ⟨s,hs⟩ := Option.isSome_iff_exists.mp (hreach.mpr hcopy)
      apply hsecs
      apply skipped_of_nothing h hs
      intro a
      rw [loadStart_space hs]
      apply memInit_maps_nothing
      by_cases hgranted : RegionsGranted env.mem env.consoleType
      · left
        have hbs1 : (fileHdr file).textAddr 0 = bs1Addr := by
          by_contra hne
          exact hbad ⟨hgranted,hne⟩
        exact beq_iff_eq.mpr hbs1
      · exact .inr hgranted
    · exact .inl hcopy
  · rintro (hcopy | ⟨hgranted,hne⟩ | hskip)
    · apply loadsRight_of_none
      rw [← Option.not_isSome_iff_eq_none, hreach]
      exact hcopy
    · apply loadsRight_of_shown hfile
      intro s hs
      rw [loadStart_space hs]
      exact memInit_shows hk hgranted (beq_eq_false_iff_ne.mpr hne)
    · exact loadsRight_of_skipped hskip

/-- A file with one section of four bytes, behind the header. -/
def dolFile (addr : Word) : List Byte :=
  overwrite (overwrite (overwrite (List.replicate 0x104 0) textAddrAt (bytes .big addr))
    textSizeAt (bytes .big 4)) textOffAt (bytes .big 0x100)

lemma fileFits_of_sections {file : List Byte} {addr : Word}
    (hsecs : (fileHdr file).sections = ⟨addr,4,0x100⟩::List.replicate 17 ⟨0,0,0⟩)
    (hfits : Section.Fits file ⟨addr,4,0x100⟩) : FileFits file := by
  have hempty : ∀ sec ∈ List.replicate 17 (⟨0,0,0⟩ : Section), sec.skipped = true := by
    intro sec hsec
    rw [List.eq_of_mem_replicate hsec]
    rfl
  constructor
  · intro sec hsec hskip
    rw [hsecs] at hsec
    rcases List.mem_cons.mp hsec with rfl | hsec
    · exact hfits
    · rw [hempty sec hsec] at hskip
      contradiction
  · rw [hsecs, List.pairwise_cons]
    constructor
    · intro sec hsec _ hskip
      rw [hempty sec hsec] at hskip
      contradiction
    · rw [List.pairwise_replicate]
      right
      intro hskip
      contradiction

/-- The file is loaded where the first section is not BS1. -/
theorem loadsRight_dolFile :
    LoadsRight consoleKernel gcnBoot (dolFile 0x80003100#32) (fun _ _ => 0) := by
  have hsecs : (fileHdr (dolFile 0x80003100#32)).sections =
      ⟨0x80003100#32,4,0x100⟩::List.replicate 17 ⟨0,0,0⟩ := by decide +kernel
  have hfits : Section.Fits (dolFile 0x80003100#32) ⟨0x80003100#32,4,0x100⟩ :=
    ⟨by decide +kernel,by decide,by decide⟩
  apply (loadsRight_iff consoleKernel_grantsLow (fileFits_of_sections hsecs hfits)).mpr
  have hgranted : RegionsGranted gcnBoot.mem gcnBoot.consoleType := ⟨⟨by decide,rfl⟩,rfl⟩
  exact .inr (.inl ⟨hgranted,by decide +kernel⟩)

/-- With BS1 the same file is copied while nothing is mapped. -/
theorem bs1_not_loaded : ¬ ∀ (env : BootEnv) (file : List Byte) (ram : RamBytes), FileFits file →
    LoadsRight consoleKernel env file ram := by
  intro h
  have hsecs : (fileHdr (dolFile bs1Addr)).sections =
      ⟨bs1Addr,4,0x100⟩::List.replicate 17 ⟨0,0,0⟩ := by decide +kernel
  have hfits : Section.Fits (dolFile bs1Addr) ⟨bs1Addr,4,0x100⟩ :=
    ⟨by decide +kernel,by decide,by decide⟩
  have hload := h gcnBoot (dolFile bs1Addr) (fun _ _ => 0) (fileFits_of_sections hsecs hfits)
  have hreaches : ReachesCopy (loadEnv gcnBoot (fileHdr (dolFile bs1Addr))) :=
    ⟨by decide,rfl,rfl,by decide,fun _ => by decide⟩
  obtain ⟨s,hs⟩ := Option.isSome_iff_exists.mp
    ((loadStart_isSome consoleKernel_grantsLow).mpr hreaches)
  have hbs1 : (loadEnv gcnBoot (fileHdr (dolFile bs1Addr))).usePhys = true := by decide +kernel
  have hskip := skipped_of_nothing hload hs (fun a => by
    rw [loadStart_space hs]
    exact memInit_maps_nothing (.inl hbs1) a) ⟨bs1Addr,4,0x100⟩ (by rw [hsecs]; simp)
  contradiction

end DolTools
