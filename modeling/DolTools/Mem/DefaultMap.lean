import DolTools.Mem.Init

/-! The map that `E_MemInit` makes of its default BATs. Whatever the uninitialised local of
`E_MemReloadMap` holds, one of the two first BATs maps MEM1 at its cached base, and no later
window covers it. -/
namespace DolTools

/-- `mmap` below the limit succeeds. -/
def Kernel.GrantsLow (k : Kernel) : Prop :=
  ∀ calls ram addr size exec, addr < maxAllowedVaddr →
    k.mmapSucceeds calls (.mmap ram addr size exec) = true

lemma consoleKernel_grantsLow : consoleKernel.GrantsLow :=
  fun _ _ _ _ _ h => decide_eq_true h

def mem1Base : Word := 0x80000000#32
def mem1Size : Word := 0x01800000#32

def RamGranted (env : MemInitEnv) (ram : Ram) : Prop :=
  0 ≤ env.memfd ram ∧ env.ftruncate ram = 0

/-- Whether `memfd_create`, `ftruncate` and `malloc` succeed as far as the console needs them. -/
def RegionsGranted (env : MemInitEnv) : ConsoleType → Prop
  | .gamecube => RamGranted env .mem1 ∧ env.malloc = true
  | .wii => RamGranted env .mem1 ∧ RamGranted env .mem2
  | .other => False

/-- A BAT that is set up names a RAM; it maps MEM1 at the cached base, or lies above both RAMs;
and its window may fail only where `mmap` may. The fourth BATs are not set up. -/
def DefaultBat (s : EmuState) (e : BatRef) : Prop :=
  e.1 ≠ 3 ∧ (s.ramOf e).isSome = true ∧
    ((s.batOf e).bepi = mem1Base ∧ s.ramOf e = some .mem1 ∨ 0x90000000#32 ≤ (s.batOf e).bepi) ∧
    (s.windowFatal e = true → (s.batOf e).bepi < maxAllowedVaddr)

instance (s : EmuState) (e : BatRef) : Decidable (DefaultBat s e) :=
  inferInstanceAs (Decidable (_ ∧ _))

structure DefaultBats (s : EmuState) : Prop where
  set : ∀ e, (s.batOf e).isZero = false → DefaultBat s e
  first : ∀ isData, (s.batOf (0,isData)).isZero = false ∧ (s.batOf (0,isData)).bepi = mem1Base ∧
    s.ramOf (0,isData) = some .mem1

/-- MEM1 lies at its cached base. -/
def ShowsMem1 (space : AddressMap Backing) : Prop :=
  ∀ o < mem1Size.toNat, ∃ exec, space (mem1Base.toNat + o) = some ⟨.mem1,o,exec⟩

section

variable {k : Kernel} {env : MemInitEnv} {s t : EmuState} {l : ReloadLoop} {e : BatRef} {v : Word}

lemma createRam_snd (env : MemInitEnv) (ram : Ram) (size : Word) (s : EmuState) :
    (createRam env ram size s).2 = true ↔ RamGranted env ram := decide_eq_true_iff

/-- `E_MemInit` returns an error exactly if a call it needs fails. -/
theorem memRegions_fst : (memRegions env s).1 = 0 ↔ RegionsGranted env s.consoleType := by
  unfold memRegions RegionsGranted
  cases s.consoleType with
  | gamecube =>
    simp only [gcnRegions, ← createRam_snd env .mem1 0x01800000#32 { s with maxBAT := 4 }]
    split_ifs <;> simp_all [enomem]
  | wii =>
    simp only [wiiRegions, ← createRam_snd env .mem1 0x01800000#32 { s with maxBAT := 8 }]
    cases h1 : (createRam env .mem1 0x01800000#32 { s with maxBAT := 8 }).2 with
    | false => simp [enomem]
    | true =>
      simp only [← createRam_snd env .mem2 0x04000000#32
        { (createRam env .mem1 0x01800000#32 { s with maxBAT := 8 }).1 with
          mem := { (createRam env .mem1 0x01800000#32 { s with maxBAT := 8 }).1.mem with
            aramSize := 0 } }]
      split_ifs <;> simp_all [enomem]
  | other => simp [einval]

lemma DefaultBats.mapStep (h : DefaultBats s) (hs : MapStep s t) : DefaultBats t := by
  have hfatal : ∀ e, t.windowFatal e = s.windowFatal e := by
    intro e
    simp only [EmuState.windowFatal, hs.batOf, hs.consoleType]
  constructor
  · intro e hz
    rw [hs.batOf] at hz
    rw [DefaultBat, hs.batOf, hs.ramOf, hfatal]
    exact h.set e hz
  · intro isData
    rw [hs.batOf, hs.ramOf]
    exact h.first isData

theorem defaultBats_of_regions {msr : Word} (h : Regions { CpuState.zero with msr := msr } s) :
    DefaultBats s := by
  have hcongr : ∀ {c : CpuState} {console : ConsoleType}, s.consoleType = console →
      s.cpu = { c with msr := msr } →
      DefaultBats { EmuState.zero with consoleType := console, cpu := c } → DefaultBats s := by
    intro c console hconsole hc hd
    have hbat : ∀ e, s.batOf e =
        EmuState.batOf { EmuState.zero with consoleType := console, cpu := c } e := by
      intro e
      simp only [EmuState.batOf, EmuState.bat, hc]
    have hram : ∀ e, s.ramOf e =
        EmuState.ramOf { EmuState.zero with consoleType := console, cpu := c } e := by
      intro e
      simp only [EmuState.ramOf, hbat, hconsole]
    have hfatal : ∀ e, s.windowFatal e =
        EmuState.windowFatal { EmuState.zero with consoleType := console, cpu := c } e := by
      intro e
      simp only [EmuState.windowFatal, hbat, hconsole]
    constructor
    · intro e hz
      rw [hbat] at hz
      rw [DefaultBat, hbat, hram, hfatal]
      exact hd.set e hz
    · intro isData
      rw [hbat, hram]
      exact hd.first isData
  cases h with
  | gamecube hconsole _ hcpu => exact hcongr (c := setMem1Bats .zero) hconsole hcpu ⟨by decide,by decide⟩
  | wii hconsole _ hcpu =>
    exact hcongr (c := setMem2Bats (setMem1Bats .zero)) hconsole hcpu ⟨by decide,by decide⟩

/-- A window of MEM1 at the cached base shows MEM1 there. -/
lemma mapWindow_shows (hk : k.GrantsLow) (hsize : s.mem.size .mem1 = mem1Size) {i : Fin 8}
    {exec fatal : Bool} : ShowsMem1 (mapWindow k .mem1 i mem1Base exec fatal s).s.host.space := by
  intro o ho
  have hgrant := hk s.host.calls .mem1 mem1Base (s.mem.size .mem1) exec (by decide)
  refine ⟨exec,?_⟩
  rw [mapWindow_space, (Host.mmap_of_succeeds hgrant).2, hsize]
  exact AddressMap.mapRange_add _ _ _ _ _ ho

/-- A window above the RAMs leaves MEM1 where it is. -/
lemma mapWindow_above {ram : Ram} {i : Fin 8} {exec fatal : Bool} (hv : 0x90000000#32 ≤ v)
    (h : ShowsMem1 s.host.space) : ShowsMem1 (mapWindow k ram i v exec fatal s).s.host.space := by
  intro o ho
  obtain ⟨x,hx⟩ := h o ho
  refine ⟨x,?_⟩
  rw [mapWindow_space, Host.mmap_of_not_mem, hx]
  have hlow : (0x90000000#32).toNat ≤ v.toNat := hv
  change o < 0x01800000 at ho
  change ¬ (v.toNat ≤ 0x80000000 + o ∧ _)
  change 0x90000000 ≤ v.toNat at hlow
  omega

/-- The first BATs show MEM1 if the pass maps them. -/
lemma reloadEntry_shows {isData : Bool} (hk : k.GrantsLow) (hd : DefaultBats l.s)
    (hsize : l.s.mem.size .mem1 = mem1Size)
    (htarget : reloadTarget l (0,isData) = some .mem1) :
    ShowsMem1 (reloadEntry k l (0,isData)).s.host.space := by
  rw [reloadEntry_of_target htarget, (hd.first isData).2.1]
  exact mapWindow_shows hk hsize

lemma reloadEntry_keeps (hk : k.GrantsLow) (hd : DefaultBats l.s)
    (hsize : l.s.mem.size .mem1 = mem1Size) (h : ShowsMem1 l.s.host.space) :
    ShowsMem1 (reloadEntry k l e).s.host.space := by
  rcases reloadEntry_cases k l e with ⟨ram,htarget,heq⟩ | ⟨-,heq,-⟩ | ⟨-,heq,-⟩
  · obtain ⟨-,hz,hram,-⟩ := reloadTarget_eq_some.mp htarget
    obtain ⟨-,-,hwindow,-⟩ := hd.set e hz
    rw [heq]
    rcases hwindow with ⟨hbase,hmem1⟩ | habove
    · obtain rfl := Option.some.inj (hram.symm.trans hmem1)
      rw [hbase]
      exact mapWindow_shows hk hsize
    · exact mapWindow_above habove h
  · rwa [heq]
  · rw [heq]
    exact h

/-- If the instruction BAT counts as mapped, because the local happens to equal a slot, then the
data BAT does not: no slot holds the base yet. -/
lemma reloadEntry_first (hk : k.GrantsLow) (hret : l.returned = false) (hd : DefaultBats l.s)
    (hsize : l.s.mem.size .mem1 = mem1Size) (hslots : ∀ i, l.s.mem.mapI .mem1 i = 0 ∧
      l.s.mem.mapD .mem1 i = 0) :
    ShowsMem1 (reloadEntry k (reloadEntry k l (0,false)) (0,true)).s.host.space := by
  have hstep : MapStep l.s (reloadEntry k l (0,false)).s := reloadEntry_mapStep
  have hd' := hd.mapStep hstep
  have hsize' : (reloadEntry k l (0,false)).s.mem.size .mem1 = mem1Size := by
    rw [hstep.size, hsize]
  rcases reloadEntry_cases k l (0,false) with ⟨ram,htarget,-⟩ | ⟨-,heq,hreturned⟩ | ⟨-,-,-,hram⟩
  · have hmem1 : ram = .mem1 := by
      obtain ⟨-,-,hram,-⟩ := reloadTarget_eq_some.mp htarget
      exact Option.some.inj (hram.symm.trans (hd.first false).2.2)
    subst hmem1
    exact reloadEntry_keeps hk hd' hsize' (reloadEntry_shows hk hd hsize htarget)
  · refine reloadEntry_shows hk hd' hsize' (reloadTarget_eq_some.mpr ⟨?_,?_,?_,?_⟩)
    · rw [hreturned, hret]
    · exact (hd'.first true).1
    · exact (hd'.first true).2.2
    · change slotD (reloadEntry k l (0,false)).s .mem1 _ = false
      rw [(hd'.first true).2.1, heq, slotD, List.any_eq_false]
      intro j _
      rw [(hslots j).1, (hslots j).2]
      decide
  · rw [(hd.first false).2.2] at hram
    contradiction

lemma reloadOrder_first {maxBAT : Fin 9} (h : maxBAT = 4 ∨ maxBAT = 8) :
    ∃ es, reloadOrder maxBAT = (0,false)::(0,true)::es := by
  rcases h with rfl | rfl
  · exact ⟨_,rfl⟩
  · exact ⟨_,rfl⟩

/-- The first pass shows MEM1 at its cached base, with the slots still zero. -/
theorem memReloadMap_showsMem1 (hk : k.GrantsLow) (hd : DefaultBats s)
    (hbats : s.maxBAT = 4 ∨ s.maxBAT = 8) (hsize : s.mem.size .mem1 = mem1Size)
    (hslots : ∀ i, s.mem.mapI .mem1 i = 0 ∧ s.mem.mapD .mem1 i = 0) :
    ShowsMem1 (memReloadMap k v s).host.space := by
  obtain ⟨es,hes⟩ := reloadOrder_first hbats
  have hfirst := reloadEntry_first (l := ⟨s,v,false⟩) hk rfl hd hsize hslots
  have hstep : MapStep s (reloadEntry k (reloadEntry k ⟨s,v,false⟩ (0,false)) (0,true)).s :=
    (reloadEntry_mapStep (l := ⟨s,v,false⟩)).trans reloadEntry_mapStep
  rw [memReloadMap_eq, hes, List.foldl_cons, List.foldl_cons]
  apply reloadEntries_invariant (P := fun t => ShowsMem1 t.host.space) hfirst
  intro l e _ hmap h
  have hstep' := hstep.trans hmap
  exact reloadEntry_keeps hk (hd.mapStep hstep') (by rw [hstep'.size, hsize]) h

lemma reloadEntry_ok (hk : k.GrantsLow) (hd : DefaultBats l.s) (hok : l.s.fatalError = false) :
    (reloadEntry k l e).s.fatalError = false := by
  rcases reloadEntry_cases k l e with ⟨ram,htarget,heq⟩ | ⟨-,heq,-⟩ | ⟨-,-,hz,hram⟩
  · obtain ⟨-,hz,-,-⟩ := reloadTarget_eq_some.mp htarget
    obtain ⟨-,-,-,hfatal⟩ := hd.set e hz
    rw [heq]
    simp only [mapWindow]
    split
    · rename_i hfails
      have hgrant := hk l.s.host.calls ram _ (l.s.mem.size ram) (!e.2) (hfatal hfails.2)
      rw [(Host.mmap_of_succeeds hgrant).1] at hfails
      exact absurd hfails.1 (Bat.bepi_ne_mapFailed _)
    · exact hok
  · rwa [heq]
  · obtain ⟨-,hsome,-⟩ := hd.set e hz
    rw [hram] at hsome
    contradiction

/-- With the default BATs a pass meets no error. -/
theorem memReloadMap_ok (hk : k.GrantsLow) (hd : DefaultBats s) (hok : s.fatalError = false) :
    (memReloadMap k v s).fatalError = false :=
  memReloadMap_invariant (P := fun t => t.fatalError = false) hok
    (fun _ _ _ hmap h => reloadEntry_ok hk (hd.mapStep hmap) h)

end

end DolTools
