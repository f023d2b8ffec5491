import DolTools.Mem.Refresh

/-! Tables and slots that one call of `E_MemMapFixups` settles. A second call finds in every slot
what the host answers again, and every instruction window shown, so that it changes nothing. -/
namespace DolTools
open Runs AddressMap

/-- The slot of the BAT holds the answer of the host, and its window is shown if that is granted. -/
structure InPlace (grants : Word → Bool) (s : EmuState) (e : BatRef) (ram : Ram) : Prop where
  slot : s.mem.slot ram e = answerAt grants (s.batOf e).bepi
  shown : grants (s.batOf e).bepi = true → s.host.space.Shows (s.batOf e).bepi.toNat
    (s.mem.size ram).toNat (fun o x => x = ⟨ram,o,!e.2⟩)

/-- The two windows are the same, of the same RAM, or have no byte in common. -/
def WindowsAgree (s : EmuState) (e : BatRef) (ram : Ram) (e' : BatRef) (ram' : Ram) : Prop :=
  (ram' = ram ∧ (s.batOf e').bepi = (s.batOf e).bepi) ∨
    Apart (s.batOf e).bepi.toNat (s.mem.size ram).toNat
      (s.batOf e').bepi.toNat (s.mem.size ram').toNat

/-- What the tables, the slots and the map before a call need so that a second one changes
nothing. Each instruction BAT is recorded nowhere or in place. Each data BAT is recorded nowhere or
in a slot that keeps its base. The windows agree, but that of a data BAT that has its turn before
an instruction BAT recorded nowhere may meet the window of that one. -/
structure SettledTables (grants : Word → Bool) (vaddr : Word) (s : EmuState) : Prop where
  instr : ∀ i ram, NamesRam s (i,false) ram →
    Unrecorded s s.mem.slot vaddr ram (i,false) ∨ InPlace grants s (i,false) ram
  data : ∀ i ram, NamesRam s (i,true) ram →
    Unrecorded s s.mem.slot vaddr ram (i,true) ∨ SurelyFound s s.mem.slot vaddr ram (i,true)
  windows : ∀ i ram, NamesRam s (i,false) ram → ∀ e ram', NamesRam s e ram' →
    (e.2 = true ∧ e.1 < i ∧ Unrecorded s s.mem.slot vaddr ram (i,false)) ∨
      WindowsAgree s (i,false) ram e ram'

/-- What a pass leaves on such tables: every instruction BAT is in place, and for every data BAT
some slot of its RAM holds its base, or its own one the answer of the host. -/
structure MapsSettled (grants : Word → Bool) (s : EmuState) : Prop where
  place : ∀ i ram, NamesRam s (i,false) ram → InPlace grants s (i,false) ram
  recorded : ∀ i ram, NamesRam s (i,true) ram →
    (∃ b : BatRef, s.HasBat b.1 ∧ s.mem.slot ram b = (s.batOf (i,true)).bepi) ∨
      s.mem.slot ram (i,true) = answerAt grants (s.batOf (i,true)).bepi

section

variable {k : Kernel} {grants : Word → Bool} {l : ReloadLoop} {e : BatRef} {i : Fin 8} {ram : Ram}
  {vaddr vaddr' : Word} {s t : EmuState} {pre post : List BatRef}

lemma InPlace.congr (h : SameTables s t) (hslot : t.mem.slot = s.mem.slot)
    (hspace : t.host.space = s.host.space) (hs : InPlace grants s e ram) :
    InPlace grants t e ram where
  slot := by
    rw [hslot, h.batOf]
    exact hs.slot
  shown hgr := by
    rw [h.batOf] at hgr ⊢
    rw [h.size, hspace]
    exact hs.shown hgr

lemma SettledTables.congr (h : SameTables s t) (hslot : t.mem.slot = s.mem.slot)
    (hspace : t.host.space = s.host.space) (hs : SettledTables grants vaddr s) :
    SettledTables grants vaddr t := by
  have hslots : ∀ ram e, s.HasBat e.1 → t.mem.slot ram e = s.mem.slot ram e :=
    fun _ _ _ => by rw [hslot]
  constructor
  · intro i ram hnames
    exact (hs.instr i ram (h.namesRam.mp hnames)).imp (h.unrecorded hslots)
      (.congr h hslot hspace)
  · intro i ram hnames
    exact (hs.data i ram (h.namesRam.mp hnames)).imp (h.unrecorded hslots) (h.surelyFound hslots)
  · intro i ram hnames e ram' hnames'
    refine (hs.windows i ram (h.namesRam.mp hnames) e ram' (h.namesRam.mp hnames')).imp ?_ ?_
    · rintro ⟨hdata,hlt,hun⟩
      exact ⟨hdata,hlt,h.unrecorded hslots hun⟩
    · rw [WindowsAgree, WindowsAgree, h.batOf, h.batOf, h.size]
      exact id

/-- Another entry leaves an instruction BAT in place, if their windows agree. -/
lemma inPlace_next (hk : k.ByAddress grants) (hstart : StartLoop s vaddr pre l)
    (hin : InPlace grants l.s (i,false) ram) (hbat : s.HasBat i) (hne : e ≠ (i,false))
    (hagree : ∀ ram', reloadTarget l e = some ram' → WindowsAgree s (i,false) ram e ram') :
    InPlace grants (reloadEntry k l e).s (i,false) ram := by
  have hstep := reloadEntry_mapStep (k := k) (l := l) (e := e)
  refine ⟨?_,fun hgr => ?_⟩
  · rw [reloadEntry_slot_of_ne hne.symm, hstep.batOf]
    exact hin.slot
  · rw [hstep.batOf] at hgr ⊢
    rw [hstep.size]
    have hshown := hin.shown hgr
    cases htarget : reloadTarget l e with
    | none =>
      rw [reloadEntry_space_of_no_target htarget]
      exact hshown
    | some ram' =>
      obtain ⟨-,hspace⟩ := reloadEntry_byAddress hk htarget
      rw [hspace]
      split
      · rcases hagree ram' htarget with ⟨rfl,hbepi⟩ | hapart
        · rw [← hstart.step.batOf, ← hstart.step.batOf] at hbepi
          rw [hbepi]
          cases hdata : e.2 with
          | false => exact shows_mapRange _ _ _ _ (fun _ _ => rfl)
          | true =>
            -- the test of the data BAT finds the base in the slot of the instruction BAT
            have hfound : alreadyMapped l e ram' = true := by
              refine alreadyMapped_of_slot (b := (i,false)) hstart.step hbat (fun h => ?_) ?_
              · exact absurd (hdata.symm.trans h) (by decide)
              · rw [hdata, if_pos rfl, hin.slot, answerAt, if_pos hgr, ← hbepi, hstart.step.batOf]
            exact absurd htarget (no_target_of_alreadyMapped hfound)
        · rw [← hstart.step.batOf, ← hstart.step.batOf, ← hstart.step.size] at hapart
          exact hshown.mapRange_apart hapart
      · exact hshown

/-- The invariant of the pass about one instruction BAT. -/
def PlaceLoop (grants : Word → Bool) (s : EmuState) (vaddr : Word) (i : Fin 8) (ram : Ram)
    (pre : List BatRef) (l : ReloadLoop) : Prop :=
  l.s.fatalError = false →
    ((i,false) ∈ pre ∨ ¬ Unrecorded s s.mem.slot vaddr ram (i,false)) →
      InPlace grants l.s (i,false) ram

lemma placeLoop_next (hk : k.ByAddress grants) (h : SettledTables grants vaddr s)
    (hstart : StartLoop s vaddr pre l) (hnames : NamesRam s (i,false) ram)
    (horder : reloadOrder s.maxBAT = pre ++ e::post)
    (hloop : PlaceLoop grants s vaddr i ram pre l) :
    PlaceLoop grants s vaddr i ram (pre ++ [e]) (reloadEntry k l e) := by
  intro hok hdue
  have hprev : l.s.fatalError = false := reloadEntry_mapStep.ok hok
  have hret := hstart.not_returned hprev
  have hbat : s.HasBat e.1 := mem_reloadOrder.mp (by rw [horder]; simp)
  by_cases hne : e = (i,false)
  · subst hne
    cases htarget : reloadTarget l (i,false) with
    | some ram' =>
      obtain rfl := ram_of_target hstart.step hnames.names htarget
      obtain ⟨hslot,hspace⟩ := reloadEntry_byAddress hk htarget
      have hstep := reloadEntry_mapStep (k := k) (l := l) (e := (i,false))
      refine ⟨by rw [hslot, hstep.batOf],fun hgr => ?_⟩
      rw [hstep.batOf] at hgr ⊢
      rw [hspace, if_pos hgr, hstep.size]
      exact shows_mapRange _ _ _ _ (fun _ _ => rfl)
    | none =>
      have hun : ¬ Unrecorded s s.mem.slot vaddr ram (i,false) := by
        intro hun
        have hno := hstart.not_alreadyMapped hret horder hun
        rw [target_of_not_mapped hstart.step hret hnames hno] at htarget
        contradiction
      have hstep := reloadEntry_mapStep (k := k) (l := l) (e := (i,false))
      exact (hloop hprev (.inr hun)).congr ⟨hstep.batOf,hstep.ramOf,hstep.maxBAT,hstep.size⟩
        (by rw [reloadEntry_keeps_of_no_target htarget]) (reloadEntry_space_of_no_target htarget)
  · have hdue' : (i,false) ∈ pre ∨ ¬ Unrecorded s s.mem.slot vaddr ram (i,false) := by
      refine hdue.imp_left (fun hmem => ?_)
      rcases List.mem_append.mp hmem with hmem | hmem
      · exact hmem
      · exact absurd (List.mem_singleton.mp hmem).symm hne
    refine inPlace_next hk hstart (hloop hprev hdue') hnames.bat hne (fun ram' htarget => ?_)
    have hnames' := names_of_target hstart.step hbat htarget
    rcases h.windows i ram hnames e ram' hnames' with ⟨hdata,hlt,hun⟩ | hagree
    · -- such a data BAT has its turn before the instruction BAT
      have hmem := hdue'.resolve_right (not_not.mpr hun)
      exact absurd (.inl hlt) ((mem_pre_iff horder).mp hmem).2.asymm
    · exact hagree

/-- A pass leaves every instruction BAT in place. -/
theorem inPlace_memReloadMap (hk : k.ByAddress grants) (h : SettledTables grants vaddr s)
    (hok : (memReloadMap k vaddr s).fatalError = false) (hnames : NamesRam s (i,false) ram) :
    InPlace grants (memReloadMap k vaddr s) (i,false) ram := by
  have hloop : PlaceLoop grants s vaddr i ram (reloadOrder s.maxBAT)
      ((reloadOrder s.maxBAT).foldl (reloadEntry k) ⟨s,vaddr,false⟩) := by
    refine foldl_invariant (P := fun _ _ => True) (fun _ _ _ _ => trivial) ?_ ?_
    · intro _ hdue
      have hun := hdue.resolve_left List.not_mem_nil
      exact (h.instr i ram hnames).resolve_left hun
    · intro pre e post hes hpre _
      exact placeLoop_next hk h (startLoop_before hes) hnames hes hpre
  rw [memReloadMap_eq] at hok ⊢
  exact hloop hok (.inl (mem_reloadOrder.mpr hnames.bat))

/-- A pass leaves the base of every data BAT in a slot, or its own slot empty if the host
refuses. -/
theorem recorded_memReloadMap (hk : k.ByAddress grants) (h : SettledTables grants vaddr s)
    (hok : (memReloadMap k vaddr s).fatalError = false) (hnames : NamesRam s (i,true) ram) :
    (∃ b : BatRef, s.HasBat b.1 ∧
      (memReloadMap k vaddr s).mem.slot ram b = (s.batOf (i,true)).bepi) ∨
    (memReloadMap k vaddr s).mem.slot ram (i,true) = answerAt grants (s.batOf (i,true)).bepi := by
  rw [memReloadMap_eq] at hok ⊢
  have hmem : (i,true) ∈ reloadOrder s.maxBAT := mem_reloadOrder.mpr hnames.bat
  obtain ⟨pre,post,horder⟩ := List.append_of_mem hmem
  have hend : StartLoop s vaddr (reloadOrder s.maxBAT)
      ((reloadOrder s.maxBAT).foldl (reloadEntry k) ⟨s,vaddr,false⟩) :=
    startLoop_before (List.append_nil _).symm
  have hstart : StartLoop s vaddr pre (pre.foldl (reloadEntry k) ⟨s,vaddr,false⟩) :=
    startLoop_before horder
  have hnodup := reloadOrder_nodup s.maxBAT
  rw [horder, List.nodup_append, List.nodup_cons] at hnodup
  rcases h.data i ram hnames with hun | ⟨b,hb⟩
  · rw [horder, List.foldl_append, List.foldl_cons] at hok ⊢
    have hprev := (reloadEntries_mapStep (k := k) ((i,true)::post) _).ok hok
    cases hmapped : alreadyMapped (pre.foldl (reloadEntry k) ⟨s,vaddr,false⟩) (i,true) ram with
    | true =>
      obtain ⟨b,hb,-,hslot⟩ := exists_slot_of_alreadyMapped hstart.step hmapped
      left
      refine ⟨b,hb,?_⟩
      rcases hstart.slot ram b with hsame | ⟨hmem,-⟩
      · exact absurd (hsame.symm.trans hslot) (hun b hb)
      · -- no later entry writes the slot
        have hpost : b ∉ (i,true)::post := fun hb' => hnodup.2.2 b hmem b hb' rfl
        rw [← List.foldl_cons, reloadEntries_slot_of_not_mem hpost]
        exact hslot
    | false =>
      right
      have htarget :=
        target_of_not_mapped hstart.step (hstart.not_returned hprev) hnames hmapped
      rw [reloadEntries_slot_of_not_mem hnodup.2.1.1, (reloadEntry_byAddress hk htarget).1,
        hstart.step.batOf]
  · exact .inl ⟨b,hb.bat,hend.keeps (hend.not_returned hok) hb⟩

theorem mapsSettled_memReloadMap (hk : k.ByAddress grants) (h : SettledTables grants vaddr s)
    (hok : (memReloadMap k vaddr s).fatalError = false) :
    MapsSettled grants (memReloadMap k vaddr s) := by
  have hu : SameTables s (memReloadMap k vaddr s) := memReloadMap_mapStep.sameTables
  constructor
  · intro i ram hnames
    exact inPlace_memReloadMap hk h hok (hu.namesRam.mp hnames)
  · intro i ram hnames
    rw [hu.batOf]
    refine (recorded_memReloadMap hk h hok (hu.namesRam.mp hnames)).imp_left ?_
    rintro ⟨b,hb,hslot⟩
    exact ⟨b,hu.hasBat.mpr hb,hslot⟩

/-- What a further pass would map anew has the host's answer in its slot already. -/
lemma MapsSettled.slot_of_redone (h : MapsSettled grants s)
    (hmem : (e,ram) ∈ s.redone vaddr (reloadOrder s.maxBAT)) :
    s.mem.slot ram e = answerAt grants (s.batOf e).bepi := by
  obtain ⟨hbat,hset,hram,v,hno⟩ := mem_redone hmem
  have hnames : NamesRam s e ram := ⟨mem_reloadOrder.mp hbat,hset,hram⟩
  obtain ⟨i,isData⟩ := e
  cases isData with
  | false => exact (h.place i ram hnames).slot
  | true =>
    rcases h.recorded i ram hnames with ⟨b,hb,hslot⟩ | hslot
    · have hfound : alreadyMapped ⟨s,v,false⟩ (i,true) ram = true :=
        alreadyMapped_data_of_slot (.refl _) hb hslot
      exact absurd (hfound.symm.trans hno) (by decide)
    · exact hslot

theorem MapsSettled.refreshable (hk : k.ByAddress grants) (h : MapsSettled grants s) :
    Refreshable k vaddr s := by
  constructor
  · rintro ws ⟨e,ram⟩ post hsplit
    have hmem : (e,ram) ∈ s.redone vaddr (reloadOrder s.maxBAT) := by
      rw [hsplit]
      simp
    rw [EmuState.AnswersSlot, EmuState.windowCall, hk]
    exact (h.slot_of_redone hmem).symm
  · rintro ws i ram post hsplit a ⟨hslot,hlow,hhigh⟩ -
    have hmem : ((i,false),ram) ∈ s.redone vaddr (reloadOrder s.maxBAT) := by
      rw [hsplit]
      simp
    obtain ⟨hbat,hset,hram,-⟩ := mem_redone hmem
    have hin := h.place i ram ⟨mem_reloadOrder.mp hbat,hset,hram⟩
    have hgr : grants (s.batOf (i,false)).bepi = true := by
      by_contra hno
      have hfailed := hin.slot
      rw [answerAt, if_neg hno] at hfailed
      exact Bat.bepi_ne_mapFailed _ (hslot.symm.trans hfailed)
    have ho : a - (s.batOf (i,false)).bepi.toNat < (s.mem.size ram).toNat :=
      Nat.sub_lt_left_of_lt_add hlow hhigh
    obtain ⟨x,hx,rfl⟩ := hin.shown hgr _ ho
    rwa [Nat.add_sub_cancel' hlow] at hx

/-- The state that a call leaves on settled tables is refreshable. -/
theorem refreshable_of_settled (hk : k.ByAddress grants) (hmsr : isTranslating s.cpu.msr = true)
    (h : SettledTables grants vaddr s) (hok : (refresh k vaddr s).fatalError = false) :
    Refreshable k vaddr' (refresh k vaddr s) := by
  have hsame : SameTables s (fixupsEntry s.cpu.msr s) :=
    ⟨fun _ => rfl,fun _ => rfl,rfl,rfl⟩
  have heq : refresh k vaddr s = memReloadMap k vaddr (fixupsEntry s.cpu.msr s) := by
    rw [refresh, memMapFixups_of_translating hmsr, reloadStart_of_translating hmsr]
  rw [heq] at hok ⊢
  exact (mapsSettled_memReloadMap hk (h.congr hsame rfl rfl) hok).refreshable hk

end

/-- The default BATs with no slot taken, and address translation on. -/
def defaultsOn : EmuState :=
  { gcnDefaults with
    mem := ⟨fun _ _ => mapFailed,fun _ _ => mapFailed,gcnDefaults.mem.size,fun _ => 3,0⟩
    cpu := { gcnDefaults.cpu with msr := 0x00000030#32 } }

/-- The overlapping tables with address translation on. -/
def overlapOn : EmuState :=
  { overlapTables with cpu := { overlapTables.cpu with msr := 0x00000030#32 } }

end DolTools
