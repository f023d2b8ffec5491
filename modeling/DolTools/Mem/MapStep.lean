import DolTools.Mem.Reload

/-! What the mapping functions leave alone: they work on the host and the slots, raise the
error flag at most, and never touch the registers or report a fixup of their own. -/
namespace DolTools

/-- From the first state to the second nothing happened but mapping. -/
structure MapStep (s t : EmuState) : Prop where
  cpu : t.cpu = s.cpu
  maxBAT : t.maxBAT = s.maxBAT
  consoleType : t.consoleType = s.consoleType
  size : t.mem.size = s.mem.size
  flag : t.needsMemMapUpdate = s.needsMemMapUpdate
  fixups : fixupsCalls t.host.calls = fixupsCalls s.host.calls
  fatal : s.fatalError = true → t.fatalError = true

namespace MapStep

variable {s t u : EmuState}

theorem refl (s : EmuState) : MapStep s s := ⟨rfl,rfl,rfl,rfl,rfl,rfl,id⟩

theorem trans (h : MapStep s t) (h' : MapStep t u) : MapStep s u where
  cpu := h'.cpu.trans h.cpu
  maxBAT := h'.maxBAT.trans h.maxBAT
  consoleType := h'.consoleType.trans h.consoleType
  size := h'.size.trans h.size
  flag := h'.flag.trans h.flag
  fixups := h'.fixups.trans h.fixups
  fatal hs := h'.fatal (h.fatal hs)

theorem raise (h : MapStep s t) : MapStep s t.fatal where
  cpu := h.cpu
  maxBAT := h.maxBAT
  consoleType := h.consoleType
  size := h.size
  flag := h.flag
  fixups := h.fixups
  fatal _ := rfl

theorem ok (h : MapStep s t) (hok : t.fatalError = false) : s.fatalError = false := by
  by_contra hf
  rw [h.fatal ((Bool.not_eq_false _).mp hf)] at hok
  contradiction

theorem foldl {ι : Type*} {f : EmuState → ι → EmuState} (hf : ∀ s i, MapStep s (f s i))
    (is : List ι) (s : EmuState) : MapStep s (is.foldl f s) := by
  induction is generalizing s with
  | nil => exact refl s
  | cons i is ih => exact (hf s i).trans (ih (f s i))

end MapStep

section

variable {k : Kernel} {ram : Ram} {i : Fin 8} {v : Word} {exec fatal : Bool} {s : EmuState}

theorem mapWindow_mapStep : MapStep s (mapWindow k ram i v exec fatal s).s := by
  have h : MapStep s { s with
      host := (s.host.mmap k ram v (s.mem.size ram) exec).2
      mem := if exec then s.mem.setMapI ram i (s.host.mmap k ram v (s.mem.size ram) exec).1
        else s.mem.setMapD ram i (s.host.mmap k ram v (s.mem.size ram) exec).1 } := by
    refine ⟨rfl,rfl,rfl,?_,rfl,Host.fixupsCalls_mmap k ram v _ exec s.host,id⟩
    cases exec <;> rfl
  simp only [mapWindow]
  split
  · exact h.raise
  · exact h

theorem mapWindow_space : (mapWindow k ram i v exec fatal s).s.host.space =
    (s.host.mmap k ram v (s.mem.size ram) exec).2.space := by
  simp only [mapWindow]
  split <;> rfl

theorem mapWindow_calls : (mapWindow k ram i v exec fatal s).s.host.calls =
    .mmap ram v (s.mem.size ram) exec::s.host.calls := by
  simp only [mapWindow]
  split <;> exact Host.mmap_calls k ram v _ exec s.host

lemma mapWindow_vaddr : (mapWindow k ram i v exec fatal s).vaddr = v := by
  simp only [mapWindow]
  split <;> rfl

lemma mapWindow_returned_eq :
    (mapWindow k ram i v exec fatal s).returned =
      decide ((s.host.mmap k ram v (s.mem.size ram) exec).1 = mapFailed ∧ fatal = true) := by
  simp only [mapWindow]
  split <;> simp_all

theorem mapWindow_returned :
    (mapWindow k ram i v exec fatal s).returned = true →
      (mapWindow k ram i v exec fatal s).s.fatalError = true := by
  simp only [mapWindow]
  split
  · exact fun _ => rfl
  · intro h
    contradiction

/-- A mapping that must not fail, in a pass that goes on, has replaced the window. -/
theorem mapWindow_succeeds (hf : fatal = true)
    (hok : (mapWindow k ram i v exec fatal s).s.fatalError = false) :
    (mapWindow k ram i v exec fatal s).s.host.space =
      s.host.space.mapRange v.toNat (s.mem.size ram).toNat (fun o => ⟨ram,o,exec⟩) := by
  rw [mapWindow_space]
  by_cases hk : k.mmapSucceeds s.host.calls (.mmap ram v (s.mem.size ram) exec)
  · exact (Host.mmap_of_succeeds hk).2
  · have hr := (Host.mmap_of_fails hk).1
    simp only [mapWindow, hr, hf, and_self, if_true] at hok
    contradiction

lemma mapPhys_mapStep : MapStep s (mapPhys k ram s) := by
  have h : MapStep s { s with
      host := (s.host.mmap k ram (ramPaddr ram) (s.mem.size ram) true).2
      mem := (s.mem.setMapI ram 0 (s.host.mmap k ram (ramPaddr ram) (s.mem.size ram) true).1).setMapD
        ram 0 (s.host.mmap k ram (ramPaddr ram) (s.mem.size ram) true).1 } :=
    ⟨rfl,rfl,rfl,rfl,rfl,Host.fixupsCalls_mmap k ram _ _ true s.host,id⟩
  simp only [mapPhys]
  split
  · exact h.raise
  · exact h

lemma mapPhys_space : (mapPhys k ram s).host.space =
    (s.host.mmap k ram (ramPaddr ram) (s.mem.size ram) true).2.space := by
  simp only [mapPhys]
  split <;> rfl

theorem mapPhys_succeeds (hok : (mapPhys k ram s).fatalError = false) :
    (mapPhys k ram s).host.space = s.host.space.mapRange (ramPaddr ram).toNat
      (s.mem.size ram).toNat (fun o => ⟨ram,o,true⟩) ∧
    (mapPhys k ram s).mem.mapI ram 0 ≠ mapFailed := by
  by_cases hk : k.mmapSucceeds s.host.calls (.mmap ram (ramPaddr ram) (s.mem.size ram) true)
  · obtain ⟨hr,hspace⟩ := Host.mmap_of_succeeds hk
    have hne : ramPaddr ram ≠ mapFailed := by cases ram <;> decide
    simp only [mapPhys, hr, hne, if_false]
    exact ⟨hspace,by simpa [MemState.setMapD, MemState.setMapI] using hne⟩
  · have hr := (Host.mmap_of_fails hk).1
    simp only [mapPhys, hr, if_true] at hok
    contradiction

theorem mapReal_mapStep : MapStep s (mapReal k s) := by
  unfold mapReal
  cases s.consoleType with
  | gamecube => exact mapPhys_mapStep
  | wii =>
    dsimp only
    split
    · exact mapPhys_mapStep
    · exact mapPhys_mapStep.trans mapPhys_mapStep
  | other => exact (MapStep.refl s).raise

end

lemma fixupsCalls_munmapSlot (addr size : Word) (h : Host) :
    fixupsCalls (munmapSlot addr size h).calls = fixupsCalls h.calls := by
  unfold munmapSlot
  split <;> rfl

theorem unmapAll_mapStep (s : EmuState) : MapStep s (unmapAll s) := by
  refine MapStep.foldl ?_ _ s
  intro s i
  refine ⟨rfl,rfl,rfl,rfl,rfl,?_,id⟩
  simp only [unmapBat, fixupsCalls_munmapSlot]

end DolTools
