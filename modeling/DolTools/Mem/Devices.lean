import DolTools.Mem.Fixups

/-! Mapping works on the mappings: the chipset, the windows of the real hardware and the timer
hooks are the same after `E_MemMapFixups`. -/
namespace DolTools

/-- What neither mapping nor an emulated instruction touches. -/
structure DevicesKept (s t : EmuState) : Prop where
  hostType : t.hostType = s.hostType
  chipset : t.chipset = s.chipset
  timersHooks : t.timersHooks = s.timersHooks
  forward : t.forward = s.forward

namespace DevicesKept

variable {s t u : EmuState}

theorem refl (s : EmuState) : DevicesKept s s := ⟨rfl,rfl,rfl,rfl⟩

theorem trans (h : DevicesKept s t) (h' : DevicesKept t u) : DevicesKept s u where
  hostType := h'.hostType.trans h.hostType
  chipset := h'.chipset.trans h.chipset
  timersHooks := h'.timersHooks.trans h.timersHooks
  forward := h'.forward.trans h.forward

theorem raise (h : DevicesKept s t) : DevicesKept s t.fatal :=
  ⟨h.hostType,h.chipset,h.timersHooks,h.forward⟩

theorem ite {c : Prop} [Decidable c] (ht : DevicesKept s t) (hu : DevicesKept s u) :
    DevicesKept s (if c then t else u) := by
  split
  · exact ht
  · exact hu

end DevicesKept

section

variable {k : Kernel} {ram : Ram} {i : Fin 8} {v vaddr oldMsr : Word} {exec fatal : Bool}
  {s : EmuState} {l : ReloadLoop} {e : BatRef}

lemma mapWindow_devicesKept : DevicesKept s (mapWindow k ram i v exec fatal s).s := by
  simp only [mapWindow]
  split <;> exact ⟨rfl,rfl,rfl,rfl⟩

lemma mapPhys_devicesKept : DevicesKept s (mapPhys k ram s) := by
  simp only [mapPhys]
  split <;> exact ⟨rfl,rfl,rfl,rfl⟩

lemma mapReal_devicesKept : DevicesKept s (mapReal k s) := by
  unfold mapReal
  cases s.consoleType with
  | gamecube => exact mapPhys_devicesKept
  | wii => exact .ite mapPhys_devicesKept (mapPhys_devicesKept.trans mapPhys_devicesKept)
  | other => exact (DevicesKept.refl s).raise

lemma unmapAll_devicesKept (s : EmuState) : DevicesKept s (unmapAll s) :=
  List.foldlRecOn (motive := fun t => DevicesKept s t) _ unmapBat (.refl s)
    (fun _ ht _ _ => ht.trans ⟨rfl,rfl,rfl,rfl⟩)

lemma reloadEntry_devicesKept : DevicesKept l.s (reloadEntry k l e).s := by
  rcases reloadEntry_cases k l e with ⟨ram,-,heq⟩ | ⟨-,heq,-⟩ | ⟨-,heq,-⟩
  · rw [heq]
    exact mapWindow_devicesKept
  · rw [heq]
    exact .refl _
  · rw [heq]
    exact (DevicesKept.refl l.s).raise

lemma memReloadMap_devicesKept : DevicesKept s (memReloadMap k vaddr s) := by
  apply memReloadMap_invariant (P := DevicesKept s) (.refl s)
  intro l e _ _ h
  exact h.trans reloadEntry_devicesKept

theorem memMapFixups_devicesKept : DevicesKept s (memMapFixups k vaddr oldMsr s) := by
  have hentry : DevicesKept s (fixupsEntry oldMsr s) := ⟨rfl,rfl,rfl,rfl⟩
  have hstart : DevicesKept s (reloadStart oldMsr s) :=
    .ite (hentry.trans (unmapAll_devicesKept _)) hentry
  exact .ite hentry.raise (.ite ((hentry.trans (unmapAll_devicesKept _)).trans mapReal_devicesKept)
    (.ite (hstart.trans memReloadMap_devicesKept) hentry))

end

end DolTools
