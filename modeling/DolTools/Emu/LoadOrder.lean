import DolTools.Emu.FileReads
import DolTools.Emu.Timer
import DolTools.Library.StoreThrough

/-! What the RAMs hold when the guest is entered, for every file: the sections may overlap, show
the same RAM at several addresses, lie in MEM2, or end behind the file. -/
namespace DolTools
open BigEndian ByteOrder PartialReads StoreThrough

/-- The byte of a RAM that each host address shows. -/
def cells (space : AddressMap Backing) : AddressMap (Ram × ℕ) :=
  fun a => (space a).map (fun x => (x.ram,x.offset))

/-- The stores of one iteration of the copy loops. -/
def sectionStores (behind : ℕ → Option Byte) (file : List Byte) (sec : Section) :
    List (ℕ × Byte) :=
  if sec.skipped then [] else (List.range sec.size.toNat).map (fun i =>
    ((sec.addr + BitVec.ofNat 32 i).toNat,(mappedByte behind file (sec.off.toNat + i)).getD 0))

/-- All stores of the loader, in their order. -/
def loadStores (behind : ℕ → Option Byte) (file : List Byte) : List (ℕ × Byte) :=
  (fileHdr file).sections.flatMap (sectionStores behind file)

/-- Every byte of the section can be read, in the file, in its last page or behind that. -/
def Section.Readable (behind : ℕ → Option Byte) (file : List Byte) (sec : Section) : Prop :=
  ∀ i < sec.size.toNat, (mappedByte behind file (sec.off.toNat + i)).isSome = true

section

variable {behind : ℕ → Option Byte} {space : AddressMap Backing} {file : List Byte}
  {ram ram' : RamBytes} {sec : Section} {secs : List Section}

lemma mappedByte_isSome {a : ℕ} : (mappedByte behind file a).isSome = true ↔
    a < fileEnd file ∨ (behind a).isSome = true := by
  rw [mappedByte]
  split <;> simp_all

/-- In the pages of the file a section can be read, whatever lies behind them. -/
lemma readable_of_inPages (h : sec.off.toNat + sec.size.toNat ≤ fileEnd file) :
    sec.Readable behind file :=
  fun _ hi => mappedByte_isSome.mpr (.inl (by omega))

lemma sectionBytes_isSome :
    (sectionBytes behind file sec).isSome = true ↔ sec.Readable behind file := by
  rw [sectionBytes, mapM_isSome_iff]
  exact forall_congr' (fun i => imp_congr_left List.mem_range)

lemma storeByte_eq (addr : Word) (b : Byte) : (storeByte space addr b ram).map Function.uncurry =
    store (cells space) (Function.uncurry ram) (addr.toNat,b) := by
  rw [storeByte, store, cells]
  cases space addr.toNat with
  | none => rfl
  | some x =>
    rw [Option.map_some, Option.map_some, Option.map_some, Option.map_some, Option.some.injEq]
    funext c
    obtain ⟨r,o⟩ := c
    simp only [Function.uncurry, Function.update_apply, Prod.mk.injEq]
    by_cases hr : r = x.ram
    · subst hr
      by_cases ho : o = x.offset <;> simp [ho]
    · simp [hr]

lemma range_stores (dest : Word) (b : Byte) (src : List Byte) :
    (List.range (b::src).length).map (fun i =>
      ((dest + BitVec.ofNat 32 i).toNat,(b::src).getD i 0)) =
    (dest.toNat,b)::(List.range src.length).map (fun i =>
      ((dest + 1#32 + BitVec.ofNat 32 i).toNat,src.getD i 0)) := by
  rw [List.length_cons, List.range_succ_eq_map, List.map_cons, List.map_map]
  congr 1
  · simp
  · apply List.map_congr_left
    intro i _
    rw [Function.comp_apply, List.getD_cons_succ, BitVec.add_assoc, ← BitVec.ofNat_add,
      Nat.add_comm 1]

/-- A call of `memcpy` is its stores. -/
lemma memcpy_stores {dest : Word} {src : List Byte} :
    (memcpy space dest src ram).map Function.uncurry =
      stores (cells space) (Function.uncurry ram) ((List.range src.length).map (fun i =>
        ((dest + BitVec.ofNat 32 i).toNat,src.getD i 0))) := by
  induction src generalizing dest ram with
  | nil => rfl
  | cons b src ih =>
    rw [range_stores, memcpy, stores, List.foldlM_cons, ← storeByte_eq]
    cases storeByte space dest b ram with
    | none => rfl
    | some ram => exact ih

lemma copySection_stores (hread : sec.skipped = false → sec.Readable behind file) :
    (copySection behind file space ram sec).map Function.uncurry =
      stores (cells space) (Function.uncurry ram) (sectionStores behind file sec) := by
  rw [copySection, sectionStores]
  cases hskip : sec.skipped with
  | true => rfl
  | false =>
    obtain ⟨src,hsrc⟩ := Option.isSome_iff_exists.mp (sectionBytes_isSome.mpr (hread hskip))
    obtain ⟨hlen,hget⟩ := sectionBytes_eq_some.mp hsrc
    rw [if_neg Bool.false_ne_true, hsrc, Option.bind_some, memcpy_stores, hlen,
      if_neg Bool.false_ne_true]
    congr 1
    apply List.map_congr_left
    intro i hi
    rw [List.getD_eq_getElem?_getD, hget i (List.mem_range.mp hi)]

lemma readable_of_copySection (h : copySection behind file space ram sec = some ram')
    (hskip : sec.skipped = false) : sec.Readable behind file := by
  rw [copySection, hskip, if_neg Bool.false_ne_true] at h
  obtain ⟨src,hsrc,-⟩ := Option.bind_eq_some_iff.mp h
  exact sectionBytes_isSome.mp (by rw [hsrc]; rfl)

lemma foldlM_copySection_stores : secs.foldlM (copySection behind file space) ram = some ram' ↔
    (∀ sec ∈ secs, sec.skipped = false → sec.Readable behind file) ∧
      stores (cells space) (Function.uncurry ram) (secs.flatMap (sectionStores behind file)) =
        some (Function.uncurry ram') := by
  induction secs generalizing ram with
  | nil =>
    rw [List.foldlM_nil, List.flatMap_nil, stores, List.foldlM_nil]
    change some ram = some ram' ↔ _ ∧ some (Function.uncurry ram) = some (Function.uncurry ram')
    simp only [List.not_mem_nil, false_implies, implies_true, true_and, Option.some.injEq]
    exact Function.uncurry_injective.eq_iff.symm
  | cons sec secs ih =>
    rw [List.foldlM_cons, List.flatMap_cons, stores_append, List.forall_mem_cons]
    by_cases hread : sec.skipped = false → sec.Readable behind file
    · rw [← copySection_stores hread]
      cases copySection behind file space ram sec with
      | none => simp
      | some ram₁ =>
        change secs.foldlM (copySection behind file space) ram₁ = some ram' ↔ _
        rw [ih, and_iff_right hread]
        rfl
    · have hnone : copySection behind file space ram sec = none := by
        rw [Option.eq_none_iff_forall_ne_some]
        exact fun ram₁ h => hread (readable_of_copySection h)
      rw [hnone]
      exact iff_of_false (by simp) (fun h => hread h.1.1)

/-- The copy loops are the stores, if every section can be read. -/
theorem copySections_stores : copySections behind file space (fileHdr file) ram = some ram' ↔
    (∀ sec ∈ (fileHdr file).sections, sec.skipped = false → sec.Readable behind file) ∧
      stores (cells space) (Function.uncurry ram) (loadStores behind file) =
        some (Function.uncurry ram') := by
  have hcopy : copySections behind file space (fileHdr file) ram =
      (fileHdr file).sections.foldlM (copySection behind file space) ram := by
    rw [DolHdr.sections, List.foldlM_append]
    rfl
  rw [hcopy]
  exact foldlM_copySection_stores

lemma cells_eq_some {a r o} : cells space a = some (r,o) ↔
    ∃ x, space a = some x ∧ x.ram = r ∧ x.offset = o := by
  simp [cells]

/-- The places of all sections can be written just when every store succeeds. -/
lemma loadStores_mapped : (∀ w ∈ loadStores behind file, ∃ x, cells space w.1 = some x) ↔
    ∀ sec ∈ (fileHdr file).sections, sec.skipped = false → Writable space sec := by
  simp only [loadStores, List.forall_mem_flatMap]
  apply forall₂_congr
  intro sec _
  rw [sectionStores]
  cases sec.skipped with
  | true => simp
  | false => simp [Writable, cells, Option.isSome_iff_exists]

end

/-- The map into which the sections are copied. -/
def loadSpace (k : Kernel) (env : BootEnv) (file : List Byte) : AddressMap Backing :=
  (memInit k env.vaddr env.mem (bootStart (loadEnv env (fileHdr file)))).2.host.space

section

variable {k : Kernel} {env : BootEnv} {file : List Byte} {ram : RamBytes} {s : EmuState}
  {l : Loaded}

lemma loadStart_ready (h : loadStart k env = some s) :
    s.fatalError = false ∧ s.timersHooks = [.vi,.dsp] := by
  have hinit := (memInit_devicesKept k env).timersHooks.trans (bootStart_hooks env)
  unfold loadStart at h
  dsimp only at h
  split_ifs at h with hother hfatal hchip
  obtain rfl := Option.some.inj h
  refine ⟨by simpa using hchip,?_⟩
  rw [chipsetInit, forwardingInit_hooks]
  simp [timerAddHook, hinit, maxHooks]

/-- Without BS1 only the signal handlers can fail behind the copying. -/
lemma loadEnd_of_virtual (hvirt : env.usePhys = false) (h : loadStart k env = some s) :
    loadEnd k env s = if env.handlers then some (cpuInit s) else none := by
  obtain ⟨hok,hooks⟩ := loadStart_ready h
  have hfatal : (cpuInit s).fatalError = false := by
    rw [cpuInit, timerAddHook, if_neg (by simp [hooks, maxHooks])]
    exact hok
  have hremap : bootRemap k env s = s := by rw [bootRemap, hvirt, if_neg Bool.false_ne_true]
  unfold loadEnd
  dsimp only
  rw [hremap, hfatal]
  cases env.handlers <;> rfl

lemma loadSpace_eq (h : loadStart k (loadEnv env (fileHdr file)) = some s) :
    s.host.space = loadSpace k env file := loadStart_space h

lemma reachesCopy_loadEnv (hdr : DolHdr) : ReachesCopy (loadEnv env hdr) ↔ ReachesCopy env :=
  ⟨fun h => ⟨h.host,h.timer,h.devMem,h.flipper,h.hlwd⟩,
    fun h => ⟨h.host,h.timer,h.devMem,h.flipper,h.hlwd⟩⟩

lemma loadMain_of_start (hne : file ≠ [])
    (h : loadStart k (loadEnv env (fileHdr file)) = some s) : loadMain k env file ram =
      (copySections env.behind file s.host.space (fileHdr file) ram).bind (fun ram =>
        (loadEnd k (loadEnv env (fileHdr file)) s).map
          (fun t => ⟨t,ram,entryPoint (fileHdr file)⟩)) := by
  rw [loadMain, if_neg (by simpa using hne)]
  dsimp only
  rw [h, Option.bind_some]
  rfl

/-- Without BS1 the guest finds the map of the copying. -/
lemma loadMain_space (hbs1 : isBs1 (fileHdr file) = false) (h : loadMain k env file ram = some l) :
    l.state.host.space = loadSpace k env file := by
  obtain ⟨s,hs,-,hend⟩ := loadMain_eq_some h
  rw [loadEnd_of_virtual hbs1 hs] at hend
  split at hend
  · rw [← Option.some.inj hend, (cpuInit_initStep s).map.host, loadSpace_eq hs]
  · contradiction

/-- What is in the RAMs at the entry, by the map that the guest finds there. -/
lemma loadMain_stores (h : loadMain k env file ram = some l) :
    stores (cells l.state.host.space) (Function.uncurry ram) (loadStores env.behind file) =
      some (Function.uncurry l.ram) := by
  obtain ⟨s,hs,hcopy,-⟩ := loadMain_eq_some h
  obtain ⟨-,hcopied⟩ := copySections_stores.mp hcopy
  rw [loadSpace_eq hs] at hcopied
  cases hbs1 : isBs1 (fileHdr file) with
  | false =>
    rw [loadMain_space hbs1 h]
    exact hcopied
  | true =>
    -- nothing is mapped during the copying, so nothing was copied
    have hnone : ∀ a, loadSpace k env file a = none := memInit_maps_nothing (.inl hbs1)
    have hnil : loadStores env.behind file = [] := by
      obtain ⟨hmapped,-⟩ := stores_eq_some.mp hcopied
      rw [List.eq_nil_iff_forall_not_mem]
      intro w hw
      obtain ⟨x,hx⟩ := hmapped w hw
      rw [cells, hnone] at hx
      contradiction
    rw [hnil] at hcopied ⊢
    exact hcopied

end

/-- At the entry of the guest, whatever the file: each byte of the RAMs holds what the last store
to it left, be it through whichever address, and the rest is as it was. The guest sees the bytes
at the addresses that the loader used. -/
theorem ram_of_load {k : Kernel} {env : BootEnv} {file : List Byte} {ram : RamBytes} {l : Loaded}
    (h : loadMain k env file ram = some l) :
    (∀ w ∈ loadStores env.behind file, ∃ x, l.state.host.space w.1 = some x) ∧
    (∀ r o, (∀ w ∈ loadStores env.behind file, cells l.state.host.space w.1 ≠ some (r,o)) →
      l.ram r o = ram r o) ∧
    ∀ pre a b post r o, loadStores env.behind file = pre ++ (a,b)::post →
      cells l.state.host.space a = some (r,o) →
      (∀ w ∈ post, cells l.state.host.space w.1 ≠ some (r,o)) → l.ram r o = b := by
  have hstores := loadMain_stores h
  obtain ⟨hmapped,-⟩ := stores_eq_some.mp hstores
  refine ⟨?_,?_,?_⟩
  · intro w hw
    obtain ⟨⟨r,o⟩,hx⟩ := hmapped w hw
    obtain ⟨x,hx,-⟩ := cells_eq_some.mp hx
    exact ⟨x,hx⟩
  · intro r o hno
    exact stores_frame (x := (r,o)) hstores hno
  · intro pre a b post r o hsplit ha hpost
    rw [hsplit] at hstores
    exact stores_last (x := (r,o)) hstores ha hpost

/-- A file with a text section of four bytes and a data section that goes over its second half. -/
def overlapFile : List Byte :=
  overwrite (overwrite (overwrite (overwrite (dolFile 0x80003100#32) dataAddrAt
    (bytes .big 0x80003102)) dataSizeAt (bytes .big 2)) dataOffAt (bytes .big 0x100)) 0x100
      [1, 2, 3, 4]

/-- The data section is copied later, so its bytes are the ones in MEM1. -/
theorem ram_of_load_overlap : ∃ l,
    loadMain consoleKernel gcnBoot overlapFile (fun _ _ => 0) = some l ∧
      l.ram .mem1 0x3101 = 2 ∧ l.ram .mem1 0x3102 = 1 := by
  have hbs1 : isBs1 (fileHdr overlapFile) = false := by decide +kernel
  have hgranted : RegionsGranted gcnBoot.mem gcnBoot.consoleType := ⟨⟨by decide,rfl⟩,rfl⟩
  have hshown : ShowsMem1 (loadSpace consoleKernel gcnBoot overlapFile) :=
    memInit_shows consoleKernel_grantsLow hgranted hbs1
  obtain ⟨l,hl⟩ := Option.isSome_iff_exists.mp (show (loadMain consoleKernel gcnBoot overlapFile
    (fun _ _ => 0)).isSome = true by decide +kernel)
  rw [← loadMain_space hbs1 hl] at hshown
  have hcell : ∀ o < mem1Size.toNat,
      cells l.state.host.space (0x80000000 + o) = some (.mem1,o) := by
    intro o ho
    obtain ⟨exec,hx⟩ := hshown o ho
    exact cells_eq_some.mpr ⟨_,hx,rfl,rfl⟩
  have hstores : loadStores gcnBoot.behind overlapFile = [(0x80003100,1), (0x80003101,2),
      (0x80003102,3), (0x80003103,4), (0x80003102,1), (0x80003103,2)] := by decide +kernel
  have h1 := hcell 0x3101 (by decide)
  have h2 := hcell 0x3102 (by decide)
  have h3 := hcell 0x3103 (by decide)
  obtain ⟨-,-,hlast⟩ := ram_of_load hl
  refine ⟨l,hl,?_,?_⟩
  · apply hlast [(0x80003100,1)] 0x80003101 2 _ .mem1 0x3101 hstores h1
    simp [h2, h3]
  · apply hlast [(0x80003100,1), (0x80003101,2), (0x80003102,3), (0x80003103,4)] 0x80003102 1 _
      .mem1 0x3102 hstores h2
    simp [h3]

end DolTools
