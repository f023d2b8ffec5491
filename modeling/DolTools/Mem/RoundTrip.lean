import DolTools.Mem.Slots

/-! Mode switches with fixed BATs. In translated mode every slot is empty or holds the window of
its BAT, and every mapped byte is remembered by a slot; so the switch back to real mode finds
all of it. -/
namespace DolTools

/-- The real-mode map: the RAMs of the console at their physical addresses, nothing else. -/
def realMap (s : EmuState) : AddressMap Backing :=
  (consoleRams s.consoleType).foldl (fun m ram => m.mapRange (ramPaddr ram).toNat
    (s.mem.size ram).toNat (fun o => ⟨ram,o,true⟩)) AddressMap.empty

/-- The slots and the map of the translated mode. -/
structure BatMapped (grants : Word → Bool) (s : EmuState) : Prop where
  slot : ∀ ram e, s.HasBat e.1 → s.mem.slot ram e ≠ mapFailed →
    s.mem.slot ram e = (s.batOf e).bepi ∧ grants (s.batOf e).bepi = true
  remembered : s.Remembered

/-- The slots and the map of the real mode. -/
structure RealOnly (s : EmuState) : Prop where
  space : s.host.space = realMap s
  slot : ∀ ram ∈ consoleRams s.consoleType, s.mem.slot ram (0,false) = ramPaddr ram

section

variable {k : Kernel} {grants : Word → Bool} {s : EmuState} {l : ReloadLoop} {e : BatRef}

lemma mapRange_windows (s : EmuState) (rams : List Ram) {m : AddressMap Backing} {a : ℕ}
    {x : Backing} (h : rams.foldl (fun m ram => m.mapRange (ramPaddr ram).toNat
      (s.mem.size ram).toNat (fun o => ⟨ram,o,true⟩)) m a = some x) :
    m a = some x ∨ ∃ ram ∈ rams, (ramPaddr ram).toNat ≤ a ∧
      a < (ramPaddr ram).toNat + (s.mem.size ram).toNat := by
  induction rams generalizing m with
  | nil => exact .inl h
  | cons ram rams ih =>
    rcases ih h with hm | ⟨ram',hr,hin⟩
    · rcases AddressMap.mapRange_eq_some hm with ⟨hin,-⟩ | hm
      · exact .inr ⟨ram,List.mem_cons_self,hin⟩
      · exact .inl hm
    · exact .inr ⟨ram',List.mem_cons_of_mem _ hr,hin⟩

lemma RealOnly.remembered (h : RealOnly s) (hbat : s.HasBat 0) : s.Remembered := by
  intro a x hx
  rw [h.space] at hx
  rcases mapRange_windows s _ hx with hempty | ⟨ram,hram,hin⟩
  · contradiction
  · refine ⟨ram,(0,false),hbat,?_⟩
    rw [EmuState.InSlot, h.slot ram hram]
    exact ⟨by cases ram <;> decide,hin⟩

lemma mmap_byAddress (hk : k.ByAddress grants) (ram : Ram) (addr size : Word) (exec : Bool)
    (h : Host) : (h.mmap k ram addr size exec).1 = (if grants addr then addr else mapFailed) ∧
      ∀ a x, (h.mmap k ram addr size exec).2.space a = some x → h.space a = some x ∨
        grants addr = true ∧ addr.toNat ≤ a ∧ a < addr.toNat + size.toNat := by
  have hcall := hk h.calls ram addr size exec
  constructor
  · by_cases hsucc : k.mmapSucceeds h.calls (.mmap ram addr size exec)
    · rw [(Host.mmap_of_succeeds hsucc).1, ← hcall, if_pos hsucc]
    · rw [(Host.mmap_of_fails hsucc).1, ← hcall, if_neg hsucc]
  · intro a x hx
    rcases Host.mmap_eq_some hx with hx | ⟨-,hlow,hhigh,hsucc⟩
    · exact .inl hx
    · exact .inr ⟨hcall.symm.trans hsucc,hlow,hhigh⟩

/-- A slot that is written again gets the window that it held, since its BAT is the same and
the kernel answers as before. -/
lemma mapWindow_slot_kept {ram ram' : Ram} {fatal : Bool} {e' : BatRef}
    (hk : k.ByAddress grants) (h : BatMapped grants s) (he : s.HasBat e'.1)
    (hne : s.mem.slot ram' e' ≠ mapFailed) :
    (mapWindow k ram e.1 (s.batOf e).bepi (!e.2) fatal s).s.mem.slot ram' e' =
      s.mem.slot ram' e' := by
  rw [mapWindow_slot]
  split
  · rename_i heq
    obtain ⟨hslot,hg⟩ := h.slot ram' e' he hne
    rw [heq.2] at hslot hg ⊢
    rw [(mmap_byAddress hk _ _ _ _ _).1, if_pos hg, hslot]
  · rfl

/-- Mapping the window of a BAT keeps the invariant. -/
lemma mapWindow_batMapped {ram : Ram} {fatal : Bool} (hk : k.ByAddress grants)
    (he : s.HasBat e.1) (h : BatMapped grants s) :
    BatMapped grants (mapWindow k ram e.1 (s.batOf e).bepi (!e.2) fatal s).s := by
  have hstep : MapStep s (mapWindow k ram e.1 (s.batOf e).bepi (!e.2) fatal s).s :=
    mapWindow_mapStep
  have hbat : ∀ {i}, (mapWindow k ram e.1 (s.batOf e).bepi (!e.2) fatal s).s.HasBat i ↔
      s.HasBat i := by
    intro i
    rw [EmuState.HasBat, hstep.maxBAT, EmuState.HasBat]
  obtain ⟨hr,hshown⟩ := mmap_byAddress hk ram (s.batOf e).bepi (s.mem.size ram) (!e.2) s.host
  constructor
  · intro ram' e' he' hne
    rw [hstep.batOf]
    rw [mapWindow_slot] at hne ⊢
    split at hne
    · rename_i heq
      have hg : grants (s.batOf e).bepi = true := by
        by_contra hg
        rw [hr, if_neg hg] at hne
        contradiction
      rw [if_pos heq, heq.2, hr, if_pos hg]
      exact ⟨rfl,hg⟩
    · rename_i hother
      rw [if_neg hother]
      exact h.slot ram' e' (hbat.mp he') hne
  · intro a x hx
    rw [mapWindow_space] at hx
    rcases hshown a x hx with hx | ⟨hg,hin⟩
    · obtain ⟨ram',e',he',hslot,hin⟩ := h.remembered a x hx
      refine ⟨ram',e',hbat.mpr he',?_⟩
      rw [EmuState.InSlot, mapWindow_slot_kept hk h he' hslot, hstep.size]
      exact ⟨hslot,hin⟩
    · refine ⟨ram,e,hbat.mpr he,?_⟩
      rw [EmuState.InSlot, mapWindow_slot, if_pos ⟨rfl,rfl⟩, hr, if_pos hg, hstep.size]
      exact ⟨Bat.bepi_ne_mapFailed _,hin⟩

lemma reloadEntry_batMapped (hk : k.ByAddress grants) (he : l.s.HasBat e.1)
    (h : BatMapped grants l.s) : BatMapped grants (reloadEntry k l e).s := by
  rcases reloadEntry_cases k l e with ⟨ram,-,heq⟩ | ⟨-,heq,-⟩ | ⟨-,heq,-⟩
  · rw [heq]
    exact mapWindow_batMapped hk he h
  · rwa [heq]
  · rw [heq]
    exact ⟨h.slot,h.remembered⟩

/-- A pass keeps the invariant. -/
theorem memReloadMap_batMapped {vaddr : Word} (hk : k.ByAddress grants)
    (h : BatMapped grants s) : BatMapped grants (memReloadMap k vaddr s) := by
  apply memReloadMap_invariant h
  intro l e he hmap h
  refine reloadEntry_batMapped hk ?_ h
  rw [EmuState.HasBat, hmap.maxBAT]
  exact he

/-- Unmapping everything leaves the invariant to start with: no window, no slot. -/
theorem unmapAll_batMapped (h : s.Remembered) : BatMapped grants (unmapAll s) := by
  constructor
  · intro ram e he hne
    rw [EmuState.HasBat, (unmapAll_mapStep s).maxBAT] at he
    exact absurd (unmapAll_slot he) hne
  · intro a x hx
    rw [unmapAll_space h] at hx
    contradiction

lemma mapPhys_granted {ram : Ram} (hok : (mapPhys k ram s).fatalError = false) :
    (s.host.mmap k ram (ramPaddr ram) (s.mem.size ram) true).1 = ramPaddr ram := by
  by_cases hk : k.mmapSucceeds s.host.calls (.mmap ram (ramPaddr ram) (s.mem.size ram) true)
  · exact (Host.mmap_of_succeeds hk).1
  · have hr := (Host.mmap_of_fails hk).1
    simp only [mapPhys, hr, if_true] at hok
    contradiction

lemma mapPhys_slot_self {ram : Ram} (hok : (mapPhys k ram s).fatalError = false) :
    (mapPhys k ram s).mem.slot ram (0,false) = ramPaddr ram := by
  rw [mapPhys_slot, if_pos ⟨rfl,rfl⟩, mapPhys_granted hok]

/-- The switch to real mode leaves the slots of the first BATs on the physical mappings. -/
lemma mapReal_slot (hok : (mapReal k s).fatalError = false) :
    ∀ ram ∈ consoleRams s.consoleType, (mapReal k s).mem.slot ram (0,false) = ramPaddr ram := by
  intro ram hram
  cases hc : s.consoleType with
  | other =>
    rw [mapReal, hc] at hok
    contradiction
  | gamecube =>
    rw [hc] at hram
    obtain rfl := List.mem_singleton.mp hram
    rw [mapReal_gamecube hc] at hok ⊢
    exact mapPhys_slot_self hok
  | wii =>
    obtain ⟨hok1,heq⟩ := mapReal_wii hc hok
    rw [heq] at hok ⊢
    rw [hc] at hram
    rcases List.mem_cons.mp hram with rfl | hram
    · rw [mapPhys_slot, if_neg (fun h => Ram.noConfusion h.1)]
      exact mapPhys_slot_self hok1
    · obtain rfl := List.mem_singleton.mp hram
      exact mapPhys_slot_self hok

/-- From an empty map, the switch to real mode leaves the real-mode map alone. -/
lemma mapReal_space (hempty : s.host.space = AddressMap.empty)
    (hok : (mapReal k s).fatalError = false) : (mapReal k s).host.space = realMap s := by
  cases hc : s.consoleType with
  | other =>
    rw [mapReal, hc] at hok
    contradiction
  | gamecube =>
    rw [mapReal_gamecube hc] at hok ⊢
    rw [(mapPhys_succeeds hok).1, hempty, realMap, hc]
    rfl
  | wii =>
    obtain ⟨hok1,heq⟩ := mapReal_wii hc hok
    have hsize1 : (mapPhys k .mem1 s).mem.size = s.mem.size := mapPhys_mapStep.size
    rw [heq] at hok ⊢
    rw [(mapPhys_succeeds hok).1, (mapPhys_succeeds hok1).1, hempty, hsize1, realMap, hc]
    rfl

theorem mapReal_realOnly (hempty : s.host.space = AddressMap.empty)
    (hok : (mapReal k s).fatalError = false) : RealOnly (mapReal k s) := by
  have hsize : (mapReal k s).mem.size = s.mem.size := mapReal_mapStep.size
  have hconsole : (mapReal k s).consoleType = s.consoleType := mapReal_mapStep.consoleType
  constructor
  · rw [mapReal_space hempty hok]
    simp only [realMap, hsize, hconsole]
  · rw [hconsole]
    exact mapReal_slot hok

/-- The invariant of the mode that translates or not. -/
def MapFor (grants : Word → Bool) (translating : Bool) (s : EmuState) : Prop :=
  if translating then BatMapped grants s else RealOnly s

theorem MapFor.remembered {b : Bool} (h : MapFor grants b s) (hbat : s.HasBat 0) :
    s.Remembered := by
  cases b with
  | false => exact RealOnly.remembered h hbat
  | true => exact BatMapped.remembered h

lemma MapFor.entry {b : Bool} {oldMsr : Word} (h : MapFor grants b s) :
    MapFor grants b (fixupsEntry oldMsr s) := by
  cases b with
  | false =>
    have hreal : RealOnly s := h
    exact (⟨hreal.space,hreal.slot⟩ : RealOnly (fixupsEntry oldMsr s))
  | true =>
    have hbat : BatMapped grants s := h
    exact (⟨hbat.slot,hbat.remembered⟩ : BatMapped grants (fixupsEntry oldMsr s))

/-- A call of `E_MemMapFixups` without an error leads from the invariant of the old mode to the
invariant of the new one. -/
theorem mapFor_memMapFixups {vaddr oldMsr : Word} (hk : k.ByAddress grants) (hbat : s.HasBat 0)
    (h : MapFor grants (isTranslating oldMsr) s)
    (hok : (memMapFixups k vaddr oldMsr s).fatalError = false) :
    MapFor grants (isTranslating s.cpu.msr) (memMapFixups k vaddr oldMsr s) := by
  have hentry : MapFor grants (isTranslating oldMsr) (fixupsEntry oldMsr s) := h.entry
  have hremembered : (fixupsEntry oldMsr s).Remembered := hentry.remembered hbat
  cases hnew : isTranslating s.cpu.msr with
  | true =>
    rw [memMapFixups_of_translating hnew]
    apply memReloadMap_batMapped hk
    cases hold : isTranslating oldMsr with
    | true =>
      rw [reloadStart_of_translating hold]
      rwa [hold] at hentry
    | false =>
      have heq : reloadStart oldMsr s = unmapAll (fixupsEntry oldMsr s) := by
        simp [reloadStart, hold, hnew]
      rw [heq]
      exact unmapAll_batMapped hremembered
  | false =>
    have hagree := memMapFixups_agree hok
    cases hold : isTranslating oldMsr with
    | true =>
      rw [memMapFixups_of_leaving hold hnew hagree] at hok ⊢
      exact mapReal_realOnly (unmapAll_space hremembered) hok
    | false =>
      rw [memMapFixups_of_real hold hnew hagree]
      rwa [hold] at hentry

end

end DolTools
