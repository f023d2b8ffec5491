import DolTools.Emu.Boot
import DolTools.Library.Runs
import DolTools.Mem.DefaultMap

/-! Whether the slots can be trusted. `E_MemInit` leaves zero in those it does not use, which
is neither `MAP_FAILED` nor a window: `E_Cleanup` unmaps the memory at address zero, and a data
BAT based there is taken to be mapped. -/
namespace DolTools
open Runs

/-- The four slots of an index are unmapped, in the order of the source. -/
def unmapSlots (m : MemState) (h : Host) (i : Fin 8) : Host :=
  let h := munmapSlot (m.mapI .mem1 i) (m.size .mem1) h
  let h := munmapSlot (m.mapD .mem1 i) (m.size .mem1) h
  let h := munmapSlot (m.mapI .mem2 i) (m.size .mem2) h
  munmapSlot (m.mapD .mem2 i) (m.size .mem2) h

/-- `E_Cleanup`: the host behind its calls of `munmap`, and the descriptors it closes. The slots
stay as they are. -/
def cleanup (s : EmuState) : Host × List ℤ :=
  ((List.finRange 8).foldl (unmapSlots s.mem) s.host,
    [s.mem.fd .mem1, s.mem.fd .mem2].filter (fun fd => 0 < fd))

/-- A live mapping of the RAM starts at the address. -/
def EmuState.LiveBase (s : EmuState) (ram : Ram) (addr : Word) : Prop :=
  ∃ exec, s.host.space addr.toNat = some ⟨ram,0,exec⟩

def EmuState.SlotsTruthful (s : EmuState) : Prop :=
  ∀ ram e, s.mem.slot ram e = mapFailed ∨ s.LiveBase ram (s.mem.slot ram e)

/-- Every byte that is unmapped lies in a range that was mapped before. -/
def UnmapsOwn (calls : List HostCall) : Prop :=
  ∀ post addr size pre, calls = post ++ .munmap addr size::pre →
    ∀ a, addr.toNat ≤ a → a < addr.toNat + size.toNat →
      ∃ ram base len exec, HostCall.mmap ram base len exec ∈ pre ∧
        base.toNat ≤ a ∧ a < base.toNat + len.toNat

/-- The fourth BATs have not been used, and nothing has been mapped at address zero. -/
structure SpareUnused (s : EmuState) : Prop where
  slot : ∀ ram isData, s.mem.slot ram (3,isData) = 0
  bottom : s.host.space 0 = none
  calls : ∀ ram addr size exec, HostCall.mmap ram addr size exec ∈ s.host.calls → addr ≠ 0

section

variable {k : Kernel} {s : EmuState} {l : ReloadLoop} {e : BatRef} {ram : Ram} {v : Word}
  {fatal : Bool}

lemma toNat_ne_zero (hv : v ≠ 0) : v.toNat ≠ 0 := fun h => hv (BitVec.eq_of_toNat_eq h)

lemma mmap_bottom {size : Word} {exec : Bool} {h : Host} (hv : v ≠ 0) (h0 : h.space 0 = none) :
    (h.mmap k ram v size exec).2.space 0 = none := by
  cases hx : (h.mmap k ram v size exec).2.space 0 with
  | none => rfl
  | some x =>
    rcases Host.mmap_eq_some hx with hx | ⟨-,hlow,-⟩
    · rw [h0] at hx
      contradiction
    · exact absurd (Nat.le_zero.mp hlow) (toNat_ne_zero hv)

lemma mapWindow_spare (he : e.1 ≠ 3) (hv : v ≠ 0) (h : SpareUnused s) :
    SpareUnused (mapWindow k ram e.1 v (!e.2) fatal s).s := by
  constructor
  · intro ram' isData
    rw [mapWindow_slot, if_neg]
    · exact h.slot ram' isData
    · rintro ⟨-,heq⟩
      exact he (heq ▸ rfl)
  · rw [mapWindow_space]
    exact mmap_bottom hv h.bottom
  · intro ram' addr size exec hmem
    rw [mapWindow_calls] at hmem
    rcases List.mem_cons.mp hmem with heq | hmem
    · obtain ⟨-,rfl,-,-⟩ := HostCall.mmap.inj heq
      exact hv
    · exact h.calls ram' addr size exec hmem

lemma reloadEntry_spare (hd : DefaultBats l.s) (h : SpareUnused l.s) :
    SpareUnused (reloadEntry k l e).s := by
  rcases reloadEntry_cases k l e with ⟨ram,htarget,heq⟩ | ⟨-,heq,-⟩ | ⟨-,heq,-⟩
  · obtain ⟨-,hz,-,-⟩ := reloadTarget_eq_some.mp htarget
    obtain ⟨hindex,-,hwindow,-⟩ := hd.set e hz
    have hbase : (l.s.batOf e).bepi ≠ 0 := by
      rcases hwindow with ⟨hbase,-⟩ | habove
      · rw [hbase]
        decide
      · rintro hzero
        rw [hzero] at habove
        exact absurd habove (by decide)
    rw [heq]
    exact mapWindow_spare hindex hbase h
  · rwa [heq]
  · rw [heq]
    exact ⟨h.slot,h.bottom,h.calls⟩

theorem memReloadMap_spare (hd : DefaultBats s) (h : SpareUnused s) :
    SpareUnused (memReloadMap k v s) :=
  memReloadMap_invariant h (fun _ _ _ hmap h => reloadEntry_spare (hd.mapStep hmap) h)

lemma fixupsEntry_spare {oldMsr : Word} (h : SpareUnused s) :
    SpareUnused (fixupsEntry oldMsr s) := by
  refine ⟨h.slot,h.bottom,?_⟩
  intro ram addr size exec hmem
  rcases List.mem_cons.mp hmem with heq | hmem
  · contradiction
  · exact h.calls ram addr size exec hmem

end

section

variable {k : Kernel} {env : BootEnv}

lemma memRegions_spare (env : BootEnv) :
    SpareUnused (memRegions env.mem (bootStart env)).2 where
  slot ram isData := memRegions_slot env ram (3,isData)
  bottom := memRegions_space env 0
  calls ram addr size exec hmem := by
    have hnone : (bootStart env).host.calls = [] := by
      unfold bootStart timerInit
      cases env.timer <;> rfl
    rw [(memRegions_step env.mem (bootStart env)).host, hnone] at hmem
    contradiction

/-- `E_MemInit` touches no slot of index 3, be it a failure or not. -/
theorem memInit_spare (k : Kernel) (env : BootEnv) :
    SpareUnused (memInit k env.vaddr env.mem (bootStart env)).2 := by
  have h := memRegions_spare env
  rcases memInit_cases k env with ⟨-,heq⟩ | ⟨-,-,heq⟩ | ⟨hmem,-,heq⟩
  · rw [heq]
    exact h
  · rw [heq]
    exact fixupsEntry_spare h
  · have hd := defaultBats_of_regions (memRegions_regions hmem).choose_spec
    rw [heq]
    exact memReloadMap_spare ⟨hd.set,hd.first⟩ (fixupsEntry_spare h)

lemma gcnRegions_set (env : MemInitEnv) (s : EmuState) :
    (gcnRegions env s).2.maxBAT = 4 ∧ (gcnRegions env s).2.mem.size .mem1 = 0x01800000#32 := by
  unfold gcnRegions
  dsimp only
  split_ifs <;> exact ⟨rfl,rfl⟩

lemma wiiRegions_set (env : MemInitEnv) (s : EmuState) :
    (wiiRegions env s).2.maxBAT = 8 ∧ (wiiRegions env s).2.mem.size .mem1 = 0x01800000#32 := by
  unfold wiiRegions
  dsimp only
  split_ifs <;> exact ⟨rfl,rfl⟩

/-- With a console type there are at least four BATs, and MEM1 has its size. -/
lemma memInit_console (hc : env.consoleType ≠ .other) :
    3 < (memInit k env.vaddr env.mem (bootStart env)).2.maxBAT.val ∧
      (memInit k env.vaddr env.mem (bootStart env)).2.mem.size .mem1 = 0x01800000#32 := by
  have hregions : 3 < (memRegions env.mem (bootStart env)).2.maxBAT.val ∧
      (memRegions env.mem (bootStart env)).2.mem.size .mem1 = 0x01800000#32 := by
    unfold memRegions
    rw [bootStart_consoleType]
    cases henv : env.consoleType with
    | other => exact absurd henv hc
    | gamecube =>
      obtain ⟨hbats,hsize⟩ := gcnRegions_set env.mem (bootStart env)
      exact ⟨by rw [hbats]; decide,hsize⟩
    | wii =>
      obtain ⟨hbats,hsize⟩ := wiiRegions_set env.mem (bootStart env)
      exact ⟨by rw [hbats]; decide,hsize⟩
  by_cases hmem : MemInitSucceeds k env
  · have hstep : MapStep (fixupsEntry (bootStart env).cpu.msr (memRegions env.mem (bootStart env)).2)
        (memInit k env.vaddr env.mem (bootStart env)).2 := by
      rw [memInit_of_succeeds hmem]
      exact memMapFixups_mapStep
    rw [hstep.maxBAT, hstep.size]
    exact hregions
  · rw [memInit_of_fails hmem]
    exact hregions

end

section

variable {m : MemState} {h : Host} {i : Fin 8} {is : List (Fin 8)} {call : HostCall} {s : EmuState}

lemma mem_munmapSlot {addr size : Word} (hmem : call ∈ h.calls) :
    call ∈ (munmapSlot addr size h).calls := by
  unfold munmapSlot
  split
  · exact List.mem_cons_of_mem _ hmem
  · exact hmem

lemma mmap_of_mem_munmapSlot {addr size v len : Word} {ram : Ram} {exec : Bool}
    (hmem : .mmap ram v len exec ∈ (munmapSlot addr size h).calls) :
    .mmap ram v len exec ∈ h.calls := by
  unfold munmapSlot at hmem
  split at hmem
  · rcases List.mem_cons.mp hmem with heq | hmem
    · contradiction
    · exact hmem
  · exact hmem

lemma mem_unmapSlots (hmem : call ∈ h.calls) : call ∈ (unmapSlots m h i).calls :=
  mem_munmapSlot (mem_munmapSlot (mem_munmapSlot (mem_munmapSlot hmem)))

lemma munmap_mem_unmapSlots (hne : m.mapI .mem1 i ≠ mapFailed) :
    .munmap (m.mapI .mem1 i) (m.size .mem1) ∈ (unmapSlots m h i).calls := by
  refine mem_munmapSlot (mem_munmapSlot (mem_munmapSlot ?_))
  rw [munmapSlot, if_pos hne]
  exact List.mem_cons_self

lemma mem_foldl_unmapSlots (hmem : call ∈ h.calls) :
    call ∈ (is.foldl (unmapSlots m) h).calls := by
  induction is generalizing h with
  | nil => exact hmem
  | cons j is ih => exact ih (mem_unmapSlots hmem)

/-- The loop unmaps every slot of its indices. -/
lemma munmap_mem_foldl (hi : i ∈ is) (hne : m.mapI .mem1 i ≠ mapFailed) :
    .munmap (m.mapI .mem1 i) (m.size .mem1) ∈ (is.foldl (unmapSlots m) h).calls := by
  induction is generalizing h with
  | nil => contradiction
  | cons j is ih =>
    rw [List.foldl_cons]
    rcases List.mem_cons.mp hi with rfl | hi
    · exact mem_foldl_unmapSlots (munmap_mem_unmapSlots hne)
    · exact ih hi

lemma mmap_of_mem_foldl {v len : Word} {ram : Ram} {exec : Bool}
    (hmem : .mmap ram v len exec ∈ (is.foldl (unmapSlots m) h).calls) :
    .mmap ram v len exec ∈ h.calls := by
  induction is generalizing h with
  | nil => exact hmem
  | cons j is ih =>
    exact mmap_of_mem_munmapSlot (mmap_of_mem_munmapSlot (mmap_of_mem_munmapSlot
      (mmap_of_mem_munmapSlot (ih hmem))))

/-- The loops of `E_MemMapFixups` mark the slots as they go, but make the same calls. -/
lemma unmapBats_host (hnd : is.Nodup) :
    (is.foldl unmapBat s).host = is.foldl (unmapSlots s.mem) s.host := by
  induction is generalizing s with
  | nil => rfl
  | cons i is ih =>
    obtain ⟨hi,hnd⟩ := List.nodup_cons.mp hnd
    rw [List.foldl_cons, ih hnd, List.foldl_cons]
    apply List.foldl_ext _ _ _
    intro h j hj
    have hne : j ≠ i := fun heq => hi (heq ▸ hj)
    simp [unmapSlots, unmapBat, MemState.setMapI, MemState.setMapD, hne]

end

section

variable {s : EmuState} {is : List (Fin 8)}

lemma SpareUnused.foreign (h : SpareUnused s) (hsize : s.mem.size .mem1 = 0x01800000#32)
    (hi : 3 ∈ is) : ¬ UnmapsOwn (is.foldl (unmapSlots s.mem) s.host).calls := by
  intro hown
  have hslot : s.mem.mapI .mem1 3 = 0 := h.slot .mem1 false
  have hmem : .munmap 0 0x01800000#32 ∈ (is.foldl (unmapSlots s.mem) s.host).calls := by
    have hcall := munmap_mem_foldl (m := s.mem) (h := s.host) hi (by rw [hslot]; decide)
    rwa [hslot, hsize] at hcall
  obtain ⟨post,pre,heq⟩ := List.append_of_mem hmem
  obtain ⟨ram,base,len,exec,hmap,hlow,-⟩ := hown post _ _ pre heq 0 (Nat.zero_le 0) (by decide)
  have hcall : .mmap ram base len exec ∈ (is.foldl (unmapSlots s.mem) s.host).calls := by
    rw [heq]
    simp [hmap]
  -- such a mapping would start at zero
  have hbase : base ≠ 0 := h.calls ram base len exec (mmap_of_mem_foldl hcall)
  exact toNat_ne_zero hbase (Nat.le_zero.mp hlow)

end

/-- Behind `E_MemInit` the slots are never truthful. On both consoles the loops that unmap would
then unmap memory that was never mapped, and a data BAT of MEM1 based at zero is taken to be
mapped although nothing is. -/
theorem slots_never_truthful (k : Kernel) (env : BootEnv) :
    let s := (memInit k env.vaddr env.mem (bootStart env)).2
    ¬ s.SlotsTruthful ∧ (env.consoleType ≠ .other →
      ¬ UnmapsOwn (cleanup s).1.calls ∧ ¬ UnmapsOwn (unmapAll s).host.calls ∧
        slotD s .mem1 0 = true ∧ ¬ s.LiveBase .mem1 0) := by
  intro s
  have hspare : SpareUnused s := memInit_spare k env
  have hbase : ∀ ram, ¬ s.LiveBase ram 0 := by
    rintro ram ⟨exec,hx⟩
    have hnone := hspare.bottom.symm.trans hx
    contradiction
  constructor
  · intro htruth
    rcases htruth .mem1 (3,false) with hfailed | hlive
    · rw [hspare.slot] at hfailed
      contradiction
    · rw [hspare.slot] at hlive
      exact hbase .mem1 hlive
  · intro hc
    obtain ⟨hbats,hsize⟩ := memInit_console (k := k) hc
    have hi : (3 : Fin 8) ∈ batIndices s.maxBAT := mem_batIndices.mpr hbats
    refine ⟨hspare.foreign hsize (List.mem_finRange 3),?_,?_,hbase .mem1⟩
    · rw [unmapAll, unmapBats_host (batIndices_nodup s.maxBAT)]
      exact hspare.foreign hsize hi
    · have hslot : s.mem.mapD .mem1 3 = 0 := hspare.slot .mem1 true
      refine List.any_eq_true.mpr ⟨3,hi,?_⟩
      rw [hslot]
      rfl

/-- `mtspr DBAT3L, r3` and `mtspr DBAT3U, r3` -/
def setDbat3l (val : Word) : Trap := trapWith 0x7C7F83A6#32 val
def setDbat3u (val : Word) : Trap := trapWith 0x7C7E83A6#32 val

/-- On the GameCube the fourth slot is zero with nothing mapped there, `E_Cleanup` unmaps 24 MiB
at address zero, and a data BAT that the guest sets up for MEM1 at zero is not mapped. -/
theorem zero_slot_taken : ¬ gcnMemInit.SlotsTruthful ∧
    .munmap 0 0x01800000#32 ∈ (cleanup gcnMemInit).1.calls ∧
    ∃ s, Run (sigillStep consoleKernel noBail) (fun _ _ => True) gcnMemInit
      [setDbat3l 2, setDbat3u 0x00001FFF#32] s ∧ s.fatalError = false ∧
      memVirtToPhys s 0 true = ⟨0,true,true⟩ ∧ s.host.space 0 = none := by
  refine ⟨?_,by decide,?_⟩
  · intro htruth
    rcases htruth .mem1 (3,false) with hfailed | ⟨exec,hx⟩
    · exact absurd hfailed (by decide)
    · exact absurd hx (by cases exec <;> decide)
  · let s₁ := handled consoleKernel gcnMemInit (setDbat3l 2)
    let s₂ := handled consoleKernel s₁ (setDbat3u 0x00001FFF#32)
    have hfirst : sigillStep consoleKernel noBail gcnMemInit (setDbat3l 2) = some s₁ :=
      sigillStep_eq_some.mpr ⟨by decide,rfl⟩
    have hsecond : sigillStep consoleKernel noBail s₁ (setDbat3u 0x00001FFF#32) = some s₂ :=
      sigillStep_eq_some.mpr ⟨by decide,rfl⟩
    exact ⟨s₂,.snoc (.snoc .nil trivial hfirst) trivial hsecond,by decide,by decide,by decide⟩

/-- A GameCube never maps MEM2, and leaves the slots from the fifth on as they are. -/
structure GcnOnly (s : EmuState) : Prop where
  console : s.consoleType = .gamecube
  bats : s.maxBAT.val ≤ 4
  slot : s.mem.slot .mem2 (7,false) = 0
  space : ∀ a x, s.host.space a = some x → x.ram = .mem1

section

variable {k : Kernel} {bail : BailOut} {env : BootEnv} {s t : EmuState} {l : ReloadLoop}
  {e : BatRef} {es : List Trap}

lemma GcnOnly.not_truthful (h : GcnOnly s) : ¬ s.SlotsTruthful := by
  intro htruth
  have hslot := htruth .mem2 (7,false)
  rw [h.slot] at hslot
  rcases hslot with hfailed | ⟨exec,hx⟩
  · contradiction
  · have hram : Ram.mem2 = .mem1 := h.space _ _ hx
    contradiction

lemma mmap_gcnOnly {v size : Word} {exec : Bool} (h : GcnOnly s) (a : ℕ) (x : Backing)
    (hx : (s.host.mmap k .mem1 v size exec).2.space a = some x) : x.ram = .mem1 := by
  rcases Host.mmap_eq_some hx with hx | ⟨hram,-⟩
  · exact h.space a x hx
  · exact hram

lemma GcnOnly.mapStep (h : GcnOnly s) (hstep : MapStep s t)
    (hslot : t.mem.slot .mem2 (7,false) = 0)
    (hspace : ∀ a x, t.host.space a = some x → x.ram = .mem1) : GcnOnly t where
  console := by rw [hstep.consoleType, h.console]
  bats := by
    rw [hstep.maxBAT]
    exact h.bats
  slot := hslot
  space := hspace

lemma reloadEntry_gcnOnly (h : GcnOnly l.s) : GcnOnly (reloadEntry k l e).s := by
  rcases reloadEntry_cases k l e with ⟨ram,htarget,heq⟩ | ⟨-,heq,-⟩ | ⟨-,heq,-⟩
  · have hram : ram = .mem1 := by
      obtain ⟨-,-,hram,-⟩ := reloadTarget_eq_some.mp htarget
      simp [EmuState.ramOf, h.console, ConsoleType.reloadPath, gcnPath] at hram
      exact hram.2.symm
    subst hram
    rw [heq]
    refine h.mapStep mapWindow_mapStep ?_ ?_
    · rw [mapWindow_slot, if_neg (fun hslot => Ram.noConfusion hslot.1)]
      exact h.slot
    · intro a x hx
      rw [mapWindow_space] at hx
      exact mmap_gcnOnly h a x hx
  · rwa [heq]
  · rw [heq]
    exact ⟨h.console,h.bats,h.slot,h.space⟩

lemma memReloadMap_gcnOnly {vaddr : Word} (h : GcnOnly s) :
    GcnOnly (memReloadMap k vaddr s) :=
  memReloadMap_invariant h (fun _ _ _ _ h => reloadEntry_gcnOnly h)

lemma unmapAll_gcnOnly (h : GcnOnly s) : GcnOnly (unmapAll s) := by
  refine h.mapStep (unmapAll_mapStep s) ?_ ?_
  · have hi : (7 : Fin 8) ∉ batIndices s.maxBAT := by
      rw [mem_batIndices]
      have hbats := h.bats
      change ¬ 7 < s.maxBAT.val
      omega
    rw [unmapAll, unmapBats_slot, if_neg hi]
    exact h.slot
  · intro a x hx
    exact h.space a x (unmapBats_space (batIndices_nodup s.maxBAT) hx).1

lemma mapReal_gcnOnly (h : GcnOnly s) : GcnOnly (mapReal k s) := by
  refine h.mapStep mapReal_mapStep ?_ ?_
  · rw [mapReal_gamecube h.console, mapPhys_slot, if_neg (fun hslot => Ram.noConfusion hslot.1)]
    exact h.slot
  · intro a x hx
    rw [mapReal_gamecube h.console, mapPhys_space] at hx
    exact mmap_gcnOnly h a x hx

lemma memMapFixups_gcnOnly {vaddr oldMsr : Word} (h : GcnOnly s) :
    GcnOnly (memMapFixups k vaddr oldMsr s) := by
  have hentry : GcnOnly (fixupsEntry oldMsr s) := ⟨h.console,h.bats,h.slot,h.space⟩
  unfold memMapFixups
  split
  · exact ⟨hentry.console,hentry.bats,hentry.slot,hentry.space⟩
  · split
    · exact mapReal_gcnOnly (unmapAll_gcnOnly hentry)
    · split
      · apply memReloadMap_gcnOnly
        unfold reloadStart
        split
        · exact unmapAll_gcnOnly hentry
        · exact hentry
      · exact hentry

lemma memInit_gcnOnly (k : Kernel) (hc : env.consoleType = .gamecube) :
    GcnOnly (memInit k env.vaddr env.mem (bootStart env)).2 := by
  have hconsole : (bootStart env).consoleType = .gamecube := by
    rw [bootStart_consoleType, hc]
  have hregions : GcnOnly (memRegions env.mem (bootStart env)).2 := by
    refine ⟨?_,?_,memRegions_slot env .mem2 (7,false),?_⟩
    · rw [(memRegions_step env.mem (bootStart env)).consoleType, hconsole]
    · rw [memRegions, hconsole]
      exact (gcnRegions_set env.mem (bootStart env)).1 ▸ le_rfl
    · intro a x hx
      rw [memRegions_space] at hx
      contradiction
  by_cases hmem : MemInitSucceeds k env
  · rw [memInit_of_succeeds hmem]
    exact memMapFixups_gcnOnly hregions
  · rw [memInit_of_fails hmem]
    exact hregions

lemma handled_gcnOnly {e : Trap} (h : GcnOnly s) : GcnOnly (handled k s e) := by
  have hstep : CpuStep s (emulated s e) := emulate_cpuStep _ s e.ctx
  have hemulated : GcnOnly (emulated s e) := by
    refine ⟨by rw [hstep.consoleType, h.console],by rw [hstep.maxBAT]; exact h.bats,?_,?_⟩
    · rw [hstep.mem, h.slot]
    · rw [hstep.host]
      exact h.space
  unfold handled
  split
  · exact memMapFixups_gcnOnly hemulated
  · exact hemulated

/-- On a GameCube the slots are truthful in no state of any run. -/
theorem gcn_slots_never_truthful (hc : env.consoleType = .gamecube)
    (hrun : Run (sigillStep k bail) (fun _ _ => True)
      (memInit k env.vaddr env.mem (bootStart env)).2 es s) : ¬ s.SlotsTruthful := by
  have hinv : GcnOnly s := hrun.invariant (memInit_gcnOnly k hc) (fun s e t hs _ hnext => by
    obtain ⟨-,rfl⟩ := sigillStep_eq_some.mp hnext
    exact handled_gcnOnly hs)
  exact hinv.not_truthful

end

end DolTools
