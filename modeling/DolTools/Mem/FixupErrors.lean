import DolTools.Mem.QuietPass

/-! When `E_MemMapFixups` reports an error: the two bits of the translation differ, a BAT names no
RAM of the console, or the kernel refuses a window that has to be there. -/
namespace DolTools

/-- A window that has to be mapped: one below the limit, or one for instructions on a GameCube. -/
def MustMap (c : ConsoleType) : HostCall → Prop
  | .mmap _ addr _ exec => addr < maxAllowedVaddr ∨ (exec = true ∧ c = .gamecube)
  | _ => False

/-- The newest call of a log is the mapping of such a window, and the kernel has refused it. -/
def Denied (k : Kernel) (c : ConsoleType) : List HostCall → Prop
  | [] => False
  | call::calls => MustMap c call ∧ k.mmapSucceeds calls call = false

/-- An entry that is set up but names no RAM of the console. -/
structure NoRam (s : EmuState) (e : BatRef) : Prop where
  set : (s.batOf e).isZero = false
  none : s.ramOf e = none

/-- Why a call of `E_MemMapFixups` that ends in the state has failed. -/
inductive FixupsFail (k : Kernel) (oldMsr : Word) (t : EmuState) : Prop
  | bits (differ : irEnabled t.cpu.msr ≠ drEnabled t.cpu.msr)
  | bat (e : BatRef) (translating : isTranslating t.cpu.msr = true) (below : t.HasBat e.1)
      (noRam : NoRam t e)
  | console (left : isTranslating oldMsr = true) (real : isTranslating t.cpu.msr = false)
      (other : t.consoleType = .other)
  | denied (call : Denied k t.consoleType t.host.calls)

section

variable {k : Kernel} {c : ConsoleType} {s t : EmuState} {l : ReloadLoop} {e : BatRef} {ram : Ram}
  {oldMsr vaddr : Word}

lemma MapStep.noRam (h : MapStep s t) : NoRam t e ↔ NoRam s e := by
  constructor
  · rintro ⟨hset,hnone⟩
    exact ⟨h.batOf e ▸ hset,h.ramOf e ▸ hnone⟩
  · rintro ⟨hset,hnone⟩
    exact ⟨(h.batOf e).symm ▸ hset,(h.ramOf e).symm ▸ hnone⟩

/-! One window. -/

/-- A failed window is fatal just where it has to be mapped. -/
lemma windowFatal_iff (hram : s.ramOf e = some ram) (size : Word) : s.windowFatal e = true ↔
    MustMap s.consoleType (.mmap ram (s.batOf e).bepi size (!e.2)) := by
  obtain ⟨i,isData⟩ := e
  cases isData with
  | true => simp [EmuState.windowFatal, MustMap]
  | false =>
    cases hc : s.consoleType with
    | gamecube => simp [EmuState.windowFatal, ConsoleType.reloadPath, gcnPath, MustMap, hc]
    | wii => simp [EmuState.windowFatal, ConsoleType.reloadPath, wiiPath, MustMap, hc]
    | other => simp [EmuState.ramOf, ConsoleType.reloadPath, hc] at hram

lemma mmap_failed_iff {h : Host} {addr size : Word} {exec : Bool} (haddr : addr ≠ mapFailed) :
    (h.mmap k ram addr size exec).1 = mapFailed ↔
      k.mmapSucceeds h.calls (.mmap ram addr size exec) = false := by
  by_cases hk : k.mmapSucceeds h.calls (.mmap ram addr size exec) = true
  · rw [(Host.mmap_of_succeeds hk).1, hk]
    simp [haddr]
  · rw [(Host.mmap_of_fails hk).1]
    simpa using hk

/-- An entry whose window is mapped anew ends the pass just if that is denied. -/
lemma reloadEntry_denied (htarget : reloadTarget l e = some ram) :
    (Denied k l.s.consoleType (reloadEntry k l e).s.host.calls ∧
      (reloadEntry k l e).returned = true ∧ (reloadEntry k l e).s.fatalError = true) ∨
    (¬ Denied k l.s.consoleType (reloadEntry k l e).s.host.calls ∧
      (reloadEntry k l e).returned = false ∧
      (reloadEntry k l e).s.fatalError = l.s.fatalError) := by
  obtain ⟨-,-,hram,-⟩ := reloadTarget_eq_some.mp htarget
  rw [reloadEntry_of_target htarget, mapWindow_calls, Denied,
    ← windowFatal_iff hram (l.s.mem.size ram),
    ← mmap_failed_iff (l.s.batOf e).bepi_ne_mapFailed]
  simp only [mapWindow]
  by_cases hfail : (l.s.host.mmap k ram (l.s.batOf e).bepi (l.s.mem.size ram) (!e.2)).1 =
      mapFailed ∧ l.s.windowFatal e = true
  · rw [if_pos hfail]
    exact .inl ⟨hfail.symm,rfl,rfl⟩
  · rw [if_neg hfail]
    exact .inr ⟨fun h => hfail h.symm,rfl,rfl⟩

/-! A pass. -/

/-- A pass over some entries fails where it meets one without a RAM, or at a window that it is
denied. -/
lemma reloadEntries_fatal_iff {es : List BatRef} (hret : l.returned = false)
    (hok : l.s.fatalError = false) (hcalls : ¬ Denied k l.s.consoleType l.s.host.calls) :
    (es.foldl (reloadEntry k) l).s.fatalError = true ↔ (∃ e ∈ es, NoRam l.s e) ∨
      Denied k l.s.consoleType (es.foldl (reloadEntry k) l).s.host.calls := by
  induction es generalizing l with
  | nil => simp [hok, hcalls]
  | cons e es ih =>
    have hmap : MapStep l.s (reloadEntry k l e).s := reloadEntry_mapStep
    have hrest : (∃ f ∈ es, NoRam (reloadEntry k l e).s f) ↔ ∃ f ∈ es, NoRam l.s f := by
      simp only [hmap.noRam]
    rw [List.foldl_cons]
    simp only [List.mem_cons, exists_eq_or_imp]
    by_cases hno : NoRam l.s e
    · have hfail : reloadEntry k l e = l.fail := reloadEntry_of_no_ram hret hno.set hno.none
      rw [hfail, reloadEntries_of_returned rfl]
      simp [hno, ReloadLoop.fail, EmuState.fatal]
    · rcases reloadEntry_cases k l e with ⟨ram,htarget,-⟩ | ⟨-,hs,hret'⟩ | ⟨-,-,hz,hram⟩
      · rcases reloadEntry_denied (k := k) htarget with ⟨hd,hret',hfatal⟩ | ⟨hd,hret',hsame⟩
        · rw [reloadEntries_of_returned hret']
          simp [hfatal, hd]
        · rw [← hmap.consoleType] at hd
          have h := ih hret' (hsame.trans hok) hd
          rw [h, hrest, hmap.consoleType]
          simp [hno]
      · have h := ih (l := reloadEntry k l e) (hret'.trans hret) (by rw [hs, hok])
          (by rw [hs]; exact hcalls)
        rw [h, hrest, hmap.consoleType]
        simp [hno]
      · exact absurd ⟨hz,hram⟩ hno

theorem memReloadMap_fatal_iff (hok : s.fatalError = false)
    (hcalls : ¬ Denied k s.consoleType s.host.calls) :
    (memReloadMap k vaddr s).fatalError = true ↔ (∃ e : BatRef, s.HasBat e.1 ∧ NoRam s e) ∨
      Denied k s.consoleType (memReloadMap k vaddr s).host.calls := by
  rw [memReloadMap_eq]
  simp only [EmuState.HasBat, ← mem_reloadOrder]
  exact reloadEntries_fatal_iff (l := ⟨s,vaddr,false⟩) rfl hok hcalls

/-! The calls around it. -/

lemma not_denied_munmapSlot {addr size : Word} {h : Host} (hd : ¬ Denied k c h.calls) :
    ¬ Denied k c (munmapSlot addr size h).calls := by
  unfold munmapSlot
  split_ifs
  · exact fun hn => hn.1
  · exact hd

lemma not_denied_unmapAll (hd : ¬ Denied k c s.host.calls) :
    ¬ Denied k c (unmapAll s).host.calls := by
  refine List.foldlRecOn (motive := fun t : EmuState => ¬ Denied k c t.host.calls) _ unmapBat hd ?_
  intro t ht i _
  exact not_denied_munmapSlot (not_denied_munmapSlot (not_denied_munmapSlot
    (not_denied_munmapSlot ht)))

lemma unmapAll_fatal (s : EmuState) : (unmapAll s).fatalError = s.fatalError :=
  List.foldlRecOn (motive := fun t : EmuState => t.fatalError = s.fatalError) _ unmapBat rfl
    (fun _ ht _ _ => ht)

lemma mustMap_mapPhys (c : ConsoleType) (ram : Ram) (size : Word) :
    MustMap c (.mmap ram (ramPaddr ram) size true) := by
  left
  cases ram <;> decide

lemma mapPhys_calls : (mapPhys k ram s).host.calls =
    .mmap ram (ramPaddr ram) (s.mem.size ram) true::s.host.calls := by
  simp only [mapPhys]
  split <;> exact Host.mmap_calls k ram _ _ true s.host

lemma mapPhys_fatal_iff (k : Kernel) (ram : Ram) (c : ConsoleType) (hok : s.fatalError = false) :
    (mapPhys k ram s).fatalError = true ↔ Denied k c (mapPhys k ram s).host.calls := by
  have haddr : ramPaddr ram ≠ mapFailed := by cases ram <;> decide
  rw [mapPhys_calls, Denied, ← mmap_failed_iff haddr]
  simp only [mapPhys, mustMap_mapPhys, true_and]
  split_ifs with hfail
  · simp [hfail, EmuState.fatal]
  · simp [hfail, hok]

lemma mapReal_fatal_iff (hok : s.fatalError = false) : (mapReal k s).fatalError = true ↔
    s.consoleType = .other ∨ Denied k s.consoleType (mapReal k s).host.calls := by
  cases hc : s.consoleType with
  | other => simp [mapReal, hc, EmuState.fatal]
  | gamecube =>
    rw [mapReal_gamecube hc, mapPhys_fatal_iff k .mem1 .gamecube hok]
    simp
  | wii =>
    have hfirst := mapPhys_fatal_iff k .mem1 .wii hok
    have hslot : (mapPhys k .mem1 s).mem.mapI .mem1 0 = mapFailed ↔
        (mapPhys k .mem1 s).fatalError = true := by
      simp only [mapPhys]
      split_ifs with hfail
      · simp [hfail, EmuState.fatal, MemState.setMapD, MemState.setMapI]
      · simp [hfail, hok, MemState.setMapD, MemState.setMapI]
    simp only [mapReal, hc]
    split_ifs with hfail
    · simp [hfirst]
    · have hok' : (mapPhys k .mem1 s).fatalError = false := by
        rw [hslot] at hfail
        simpa using hfail
      rw [mapPhys_fatal_iff k .mem2 .wii hok']
      simp

lemma not_denied_fixupsEntry : ¬ Denied k c (fixupsEntry oldMsr s).host.calls := fun h => h.1

lemma not_denied_reloadStart : ¬ Denied k c (reloadStart oldMsr s).host.calls := by
  unfold reloadStart
  split_ifs
  · exact not_denied_unmapAll not_denied_fixupsEntry
  · exact not_denied_fixupsEntry

lemma reloadStart_fatal (oldMsr : Word) (s : EmuState) :
    (reloadStart oldMsr s).fatalError = s.fatalError := by
  unfold reloadStart
  split_ifs
  · exact unmapAll_fatal _
  · rfl

lemma fixupsFail_of_translating (hok : s.fatalError = false)
    (hnew : isTranslating s.cpu.msr = true) : (memMapFixups k vaddr oldMsr s).fatalError = true ↔
      FixupsFail k oldMsr (memMapFixups k vaddr oldMsr s) := by
  have hcpu : (memMapFixups k vaddr oldMsr s).cpu = s.cpu := memMapFixups_cpu
  rw [memMapFixups_of_translating hnew] at hcpu ⊢
  have hmap : MapStep (reloadStart oldMsr s) (memReloadMap k vaddr (reloadStart oldMsr s)) :=
    memReloadMap_mapStep
  have hpass : (memReloadMap k vaddr (reloadStart oldMsr s)).fatalError = true ↔ _ :=
    memReloadMap_fatal_iff ((reloadStart_fatal oldMsr s).trans hok) not_denied_reloadStart
  generalize hu : memReloadMap k vaddr (reloadStart oldMsr s) = u at hcpu hmap hpass ⊢
  rw [← hmap.consoleType] at hpass
  rw [← hcpu] at hnew
  constructor
  · intro h
    rcases hpass.mp h with ⟨e,hbelow,hno⟩ | hd
    · rw [EmuState.HasBat, ← hmap.maxBAT] at hbelow
      exact .bat e hnew hbelow (hmap.noRam.mpr hno)
    · exact .denied hd
  · rintro (hbits | ⟨e,-,hbelow,hno⟩ | ⟨-,hreal,-⟩ | hd)
    · exact absurd (agree_of_isTranslating hnew) hbits
    · rw [EmuState.HasBat, hmap.maxBAT] at hbelow
      exact hpass.mpr (.inl ⟨e,hbelow,hmap.noRam.mp hno⟩)
    · rw [hnew] at hreal
      contradiction
    · exact hpass.mpr (.inr hd)

lemma fixupsFail_of_leaving (hok : s.fatalError = false) (hold : isTranslating oldMsr = true)
    (hnew : isTranslating s.cpu.msr = false) (hbits : irEnabled s.cpu.msr = drEnabled s.cpu.msr) :
    (memMapFixups k vaddr oldMsr s).fatalError = true ↔
      FixupsFail k oldMsr (memMapFixups k vaddr oldMsr s) := by
  have hcpu : (memMapFixups k vaddr oldMsr s).cpu = s.cpu := memMapFixups_cpu
  rw [memMapFixups_of_leaving hold hnew hbits] at hcpu ⊢
  have hmap : MapStep (unmapAll (fixupsEntry oldMsr s))
      (mapReal k (unmapAll (fixupsEntry oldMsr s))) := mapReal_mapStep
  have hpass := mapReal_fatal_iff (k := k) ((unmapAll_fatal (fixupsEntry oldMsr s)).trans hok)
  rw [← hmap.consoleType] at hpass
  rw [← hcpu] at hnew hbits
  constructor
  · intro h
    rcases hpass.mp h with hother | hd
    · exact .console hold hnew hother
    · exact .denied hd
  · rintro (hdiffer | ⟨e,htr,-,-⟩ | ⟨-,-,hother⟩ | hd)
    · exact absurd hbits hdiffer
    · rw [hnew] at htr
      contradiction
    · exact hpass.mpr (.inl hother)
    · exact hpass.mpr (.inr hd)

/-- A call of `E_MemMapFixups` is an error exactly for one of these reasons, as its result shows
them. -/
theorem memMapFixups_fatal_iff (hok : s.fatalError = false) :
    (memMapFixups k vaddr oldMsr s).fatalError = true ↔
      FixupsFail k oldMsr (memMapFixups k vaddr oldMsr s) := by
  by_cases hbits : irEnabled s.cpu.msr = drEnabled s.cpu.msr
  · cases hnew : isTranslating s.cpu.msr with
    | true => exact fixupsFail_of_translating hok hnew
    | false =>
      cases hold : isTranslating oldMsr with
      | true => exact fixupsFail_of_leaving hok hold hnew hbits
      | false =>
        rw [memMapFixups_of_real hold hnew hbits]
        have hok' : (fixupsEntry oldMsr s).fatalError = false := hok
        rw [hok']
        refine ⟨fun h => by contradiction,?_⟩
        rintro (hdiffer | ⟨e,htr,-,-⟩ | ⟨hleft,-,-⟩ | hd)
        · exact absurd hbits hdiffer
        · rw [show isTranslating (fixupsEntry oldMsr s).cpu.msr = false from hnew] at htr
          contradiction
        · rw [hold] at hleft
          contradiction
        · exact absurd hd not_denied_fixupsEntry
  · have hfatal : memMapFixups k vaddr oldMsr s = (fixupsEntry oldMsr s).fatal := if_pos hbits
    rw [hfatal]
    exact ⟨fun _ => .bits hbits,fun _ => rfl⟩

end

end DolTools
