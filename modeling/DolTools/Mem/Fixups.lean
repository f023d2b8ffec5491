import DolTools.Mem.ReloadPass

/-! What a call of `E_MemMapFixups` leaves behind: one line in the log, the flag cleared, the
registers as they were, and the map that the old and the new MSR ask for. -/
namespace DolTools

section

variable {k : Kernel} {vaddr oldMsr : Word} {s : EmuState}

lemma reloadEntries_mapStep (es : List BatRef) (l : ReloadLoop) :
    MapStep l.s (es.foldl (reloadEntry k) l).s := by
  induction es generalizing l with
  | nil => exact .refl _
  | cons e es ih => exact reloadEntry_mapStep.trans (ih (reloadEntry k l e))

theorem memReloadMap_mapStep : MapStep s (memReloadMap k vaddr s) := by
  rw [memReloadMap_eq]
  exact reloadEntries_mapStep (k := k) (reloadOrder s.maxBAT) ⟨s,vaddr,false⟩

/-- What every entry keeps, in each state that mapping has led to, the entries keep. -/
theorem reloadEntries_invariant {P : EmuState → Prop} {es : List BatRef} {l : ReloadLoop}
    (hstart : P l.s) (hstep : ∀ l' : ReloadLoop, ∀ e ∈ es, MapStep l.s l'.s → P l'.s →
      P (reloadEntry k l' e).s) : P (es.foldl (reloadEntry k) l).s := by
  have hall : MapStep l.s (es.foldl (reloadEntry k) l).s ∧ P (es.foldl (reloadEntry k) l).s := by
    refine List.foldlRecOn (motive := fun l' => MapStep l.s l'.s ∧ P l'.s) es (reloadEntry k)
      ⟨.refl l.s,hstart⟩ ?_
    rintro l' ⟨hmap,h⟩ e he
    exact ⟨hmap.trans reloadEntry_mapStep,hstep l' e he hmap h⟩
  exact hall.2

/-- The rule for a pass: its entries are the BATs below `maxBAT`. -/
theorem memReloadMap_invariant {P : EmuState → Prop} (hstart : P s)
    (hstep : ∀ (l : ReloadLoop) (e : BatRef), s.HasBat e.1 → MapStep s l.s → P l.s →
      P (reloadEntry k l e).s) : P (memReloadMap k vaddr s) := by
  rw [memReloadMap_eq]
  exact reloadEntries_invariant (l := ⟨s,vaddr,false⟩) hstart
    (fun l e he hmap h => hstep l e (mem_reloadOrder.mp he) hmap h)

lemma reloadStart_mapStep : MapStep (fixupsEntry oldMsr s) (reloadStart oldMsr s) := by
  unfold reloadStart
  split
  · exact unmapAll_mapStep _
  · exact .refl _

lemma reloadStart_of_translating (h : isTranslating oldMsr = true) :
    reloadStart oldMsr s = fixupsEntry oldMsr s := by
  rw [reloadStart, h]
  rfl

/-- Behind its entry a call of `E_MemMapFixups` only maps. -/
theorem memMapFixups_mapStep :
    MapStep (fixupsEntry oldMsr s) (memMapFixups k vaddr oldMsr s) := by
  unfold memMapFixups
  split
  · exact (MapStep.refl _).raise
  · split
    · exact (unmapAll_mapStep _).trans mapReal_mapStep
    · split
      · exact reloadStart_mapStep.trans memReloadMap_mapStep
      · exact .refl _

@[simp] theorem memMapFixups_cpu : (memMapFixups k vaddr oldMsr s).cpu = s.cpu :=
  memMapFixups_mapStep.cpu

theorem memMapFixups_flag : (memMapFixups k vaddr oldMsr s).needsMemMapUpdate = false :=
  memMapFixups_mapStep.flag

theorem memMapFixups_fixups : fixupsCalls (memMapFixups k vaddr oldMsr s).host.calls =
    (oldMsr,s.cpu.msr)::fixupsCalls s.host.calls :=
  memMapFixups_mapStep.fixups

theorem memMapFixups_agree (hok : (memMapFixups k vaddr oldMsr s).fatalError = false) :
    irEnabled s.cpu.msr = drEnabled s.cpu.msr := by
  by_contra hne
  rw [memMapFixups, if_pos hne] at hok
  contradiction

lemma agree_of_isTranslating {msr : Word} (h : isTranslating msr = true) :
    irEnabled msr = drEnabled msr := by
  obtain ⟨hi,hd⟩ := (Bool.and_eq_true _ _).mp h
  rw [hi, hd]

theorem memMapFixups_of_translating (h : isTranslating s.cpu.msr = true) :
    memMapFixups k vaddr oldMsr s = memReloadMap k vaddr (reloadStart oldMsr s) := by
  have hne : ¬ irEnabled s.cpu.msr ≠ drEnabled s.cpu.msr :=
    not_not.mpr (agree_of_isTranslating h)
  rw [memMapFixups, if_neg hne, if_neg (by simp [h]), if_pos h]

theorem memMapFixups_of_leaving (hold : isTranslating oldMsr = true)
    (h : isTranslating s.cpu.msr = false) (ha : irEnabled s.cpu.msr = drEnabled s.cpu.msr) :
    memMapFixups k vaddr oldMsr s = mapReal k (unmapAll (fixupsEntry oldMsr s)) := by
  rw [memMapFixups, if_neg (not_not.mpr ha), if_pos (by simp [hold, h])]

theorem memMapFixups_of_real (hold : isTranslating oldMsr = false)
    (h : isTranslating s.cpu.msr = false) (ha : irEnabled s.cpu.msr = drEnabled s.cpu.msr) :
    memMapFixups k vaddr oldMsr s = fixupsEntry oldMsr s := by
  rw [memMapFixups, if_neg (not_not.mpr ha), if_neg (by simp [hold]), if_neg (by simp [h])]

end

def consoleRams : ConsoleType → List Ram
  | .gamecube => [.mem1]
  | .wii => [.mem1, .mem2]
  | .other => []

/-- A BAT names a RAM of the console by its physical address. -/
theorem ramOf_spec {s : EmuState} {e : BatRef} {ram : Ram} (h : s.ramOf e = some ram) :
    ram ∈ consoleRams s.consoleType ∧ (s.batOf e).bprn = ramPaddr ram := by
  unfold EmuState.ramOf at h
  cases hc : s.consoleType with
  | gamecube =>
    simp only [hc, ConsoleType.reloadPath, gcnPath] at h
    split at h
    · obtain rfl := Option.some.inj h
      exact ⟨List.mem_singleton_self _,by assumption⟩
    · contradiction
  | wii =>
    simp only [hc, ConsoleType.reloadPath, wiiPath] at h
    split at h
    · obtain rfl := Option.some.inj h
      exact ⟨by simp [consoleRams],by assumption⟩
    · split at h
      · obtain rfl := Option.some.inj h
        exact ⟨by simp [consoleRams],by assumption⟩
      · contradiction
  | other =>
    simp only [hc, ConsoleType.reloadPath] at h
    contradiction

/-- The real-mode map: every RAM of the console at its physical address. -/
def RealMapped (s : EmuState) : Prop :=
  ∀ ram ∈ consoleRams s.consoleType, s.host.space.Shows (ramPaddr ram).toNat
    (s.mem.size ram).toNat (fun o x => x = ⟨ram,o,true⟩)

/-- MEM1 does not reach MEM2. -/
def RamsApart (s : EmuState) : Prop := (s.mem.size .mem1).toNat ≤ 0x10000000

section

variable {k : Kernel} {ram : Ram} {s : EmuState}

lemma shows_mapPhys (hok : (mapPhys k ram s).fatalError = false) :
    (mapPhys k ram s).host.space.Shows (ramPaddr ram).toNat
      ((mapPhys k ram s).mem.size ram).toNat (fun o x => x = ⟨ram,o,true⟩) := by
  rw [(mapPhys_succeeds hok).1, mapPhys_mapStep.size]
  exact AddressMap.shows_mapRange _ _ _ _ (fun _ _ => rfl)

lemma mapReal_gamecube (hc : s.consoleType = .gamecube) : mapReal k s = mapPhys k .mem1 s := by
  simp only [mapReal, hc]

/-- On Wii the second mapping runs, since a failed first one would have been fatal. -/
lemma mapReal_wii (hc : s.consoleType = .wii) (hok : (mapReal k s).fatalError = false) :
    (mapPhys k .mem1 s).fatalError = false ∧
      mapReal k s = mapPhys k .mem2 (mapPhys k .mem1 s) := by
  have hok1 : (mapPhys k .mem1 s).fatalError = false := by
    by_contra hf
    rw [Bool.not_eq_false] at hf
    have hfatal : (mapReal k s).fatalError = true := by
      simp only [mapReal, hc]
      split
      · exact hf
      · exact mapPhys_mapStep.fatal hf
    rw [hfatal] at hok
    contradiction
  refine ⟨hok1,?_⟩
  simp only [mapReal, hc, (mapPhys_succeeds hok1).2, if_false]

theorem realMapped_mapReal (hsize : RamsApart s) (hok : (mapReal k s).fatalError = false) :
    RealMapped (mapReal k s) := by
  intro ram hram
  rw [mapReal_mapStep.consoleType] at hram
  cases hc : s.consoleType with
  | other =>
    rw [hc] at hram
    contradiction
  | gamecube =>
    rw [hc] at hram
    obtain rfl := List.mem_singleton.mp hram
    rw [mapReal_gamecube hc] at hok ⊢
    exact shows_mapPhys hok
  | wii =>
    rw [hc] at hram
    obtain ⟨hok1,heq⟩ := mapReal_wii hc hok
    rw [heq] at hok ⊢
    rcases List.mem_cons.mp hram with rfl | hram
    · have hsize1 : (mapPhys k .mem1 s).mem.size = s.mem.size := mapPhys_mapStep.size
      have hsize2 : (mapPhys k .mem2 (mapPhys k .mem1 s)).mem.size =
          (mapPhys k .mem1 s).mem.size := mapPhys_mapStep.size
      rw [(mapPhys_succeeds hok).1, hsize2]
      refine AddressMap.Shows.mapRange_apart (shows_mapPhys hok1) (.inl ?_)
      rw [hsize1]
      change 0 + (s.mem.size .mem1).toNat ≤ 0x10000000
      rw [RamsApart] at hsize
      omega
    · obtain rfl := List.mem_singleton.mp hram
      exact shows_mapPhys hok

end

inductive MapMode
  | real
  | bat
  deriving DecidableEq, Repr

/-- The map that one call installs, if any. -/
def mapChange (oldMsr msr : Word) : Option MapMode :=
  if irEnabled msr ≠ drEnabled msr then none
  else if isTranslating msr then some .bat
  else if isTranslating oldMsr then some .real
  else none

/-- The map installed last, read off the log. -/
def lastMapChange (calls : List HostCall) : Option MapMode :=
  (fixupsCalls calls).findSome? (fun call => mapChange call.1 call.2)

end DolTools
