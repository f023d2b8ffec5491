import DolTools.Mem.PassStart

/-! Coverage of a pass: every BAT that the guest may rely on has its window mapped. An entry
is lost where the test for an existing mapping finds an address that some slot happens to
hold, and a window loses its execute permission where a data BAT is mapped over it. -/
namespace DolTools
open Runs

/-- The entry is active, names the RAM, has its window below the limit, and shares it with no
other BAT, unless that one asks for the same RAM at the same place. -/
structure Owns (s : EmuState) (e : BatRef) (ram : Ram) : Prop where
  bat : s.HasBat e.1
  active : (s.batOf e).active = true
  names : s.ramOf e = some ram
  low : (s.batOf e).bepi.toNat + (s.mem.size ram).toNat ≤ maxAllowedVaddr.toNat
  clear : ∀ e' : BatRef, s.HasBat e'.1 → (s.batOf e').isZero = false →
    ∀ ram', s.ramOf e' = some ram' →
      (ram' = ram ∧ (s.batOf e').bepi = (s.batOf e).bepi) ∨
        AddressMap.Apart (s.batOf e).bepi.toNat (s.mem.size ram).toNat
          (s.batOf e').bepi.toNat (s.mem.size ram').toNat

/-- The host shows the RAM in the whole window, executable if the BAT is an instruction BAT. -/
def Covered (s : EmuState) (e : BatRef) (ram : Ram) : Prop :=
  s.host.space.Shows (s.batOf e).bepi.toNat (s.mem.size ram).toNat
    (fun o x => x.ram = ram ∧ x.offset = o ∧ (e.2 = false → x.exec = true))

def AllCovered (s : EmuState) : Prop := ∀ e ram, Owns s e ram → Covered s e ram

/-- The tables and slots before a pass do not let it lose the window of the BAT. What its test
looks for is recorded nowhere, or the window is `there` before; for an instruction BAT a slot then
keeps its base, so that no data BAT is mapped over it. -/
def Unlost (s : EmuState) (slots : Ram → BatRef → Word) (vaddr : Word) (ram : Ram) (e : BatRef)
    (there : Prop) : Prop :=
  Unrecorded s slots vaddr ram e ∨
    (there ∧ (e.2 = false → ∃ b, Keeps s slots ram b (s.batOf e).bepi))

section

variable {s t : EmuState} {e : BatRef} {ram : Ram}

lemma Owns.congr (h : SameTables s t) (hown : Owns s e ram) : Owns t e ram := by
  obtain ⟨hbat,hactive,hnames,hlow,hclear⟩ := hown
  constructor
  · exact h.hasBat.mpr hbat
  · rwa [h.batOf]
  · rwa [h.ramOf]
  · rwa [h.batOf, h.size]
  · simpa only [h.hasBat, h.batOf, h.ramOf, h.size] using hclear

lemma SameTables.owns (h : SameTables s t) : Owns t e ram ↔ Owns s e ram :=
  ⟨.congr h.symm,.congr h⟩

lemma SameTables.unlost {slots slots' : Ram → BatRef → Word} {vaddr : Word} {there there' : Prop}
    (h : SameTables s t) (hslots : ∀ ram e, s.HasBat e.1 → slots' ram e = slots ram e)
    (hthere : there → there') (hun : Unlost s slots vaddr ram e there) :
    Unlost t slots' vaddr ram e there' := by
  rcases hun with hun | ⟨ht,hkeeps⟩
  · exact .inl (h.unrecorded hslots hun)
  · refine .inr ⟨hthere ht,fun hinstr => ?_⟩
    obtain ⟨b,hb⟩ := hkeeps hinstr
    refine ⟨b,?_⟩
    rw [h.batOf]
    exact h.keeps hslots hb

lemma Covered.congr (h : Covered s e ram) (hb : t.batOf e = s.batOf e)
    (hs : t.mem.size = s.mem.size) (hh : t.host.space = s.host.space) : Covered t e ram := by
  rw [Covered, hb, hs, hh]
  exact h

lemma isZero_of_active {b : Bat} (h : b.active = true) : b.isZero = false := by
  by_contra hz
  rw [Bool.not_eq_false, Bat.isZero, Bool.and_eq_true, beq_iff_eq] at hz
  rw [Bat.active, hz.1] at h
  revert h
  decide

end

section

variable {k : Kernel} {l : ReloadLoop} {e e' : BatRef} {ram : Ram} {vaddr : Word}
  {s : EmuState} {pre post : List BatRef}

lemma Owns.bepi_lt {s : EmuState} (h : Owns s e ram) (hsize : 0 < (s.mem.size ram).toNat) :
    (s.batOf e).bepi < maxAllowedVaddr := by
  have hlow := h.low
  rw [BitVec.lt_def]
  omega

lemma Owns.namesRam (h : Owns s e ram) : NamesRam s e ram :=
  ⟨h.bat,isZero_of_active h.active,h.names⟩

lemma reloadEntry_space_cases (h : reloadTarget l e = some ram) :
    (reloadEntry k l e).s.host.space = l.s.host.space ∨
      (reloadEntry k l e).s.host.space = l.s.host.space.mapRange (l.s.batOf e).bepi.toNat
        (l.s.mem.size ram).toNat (fun o => ⟨ram,o,!e.2⟩) := by
  obtain ⟨-,-,⟨-,hspace⟩ | ⟨-,hspace⟩⟩ := reloadEntry_window (k := k) h
  · exact .inl hspace
  · exact .inr hspace

/-- An entry whose window is mapped anew has it covered, and that of each BAT at the same place
with the same RAM, unless this one needs it executable. -/
lemma covered_of_target (htarget : reloadTarget l e' = some ram)
    (hbepi : (l.s.batOf e').bepi = (l.s.batOf e).bepi) (hlow : (l.s.batOf e).bepi < maxAllowedVaddr)
    (hexec : e.2 = false → e'.2 = false) (hok : (reloadEntry k l e').s.fatalError = false) :
    Covered (reloadEntry k l e').s e ram := by
  have hstep := reloadEntry_mapStep (k := k) (l := l) (e := e')
  intro o ho
  rw [hstep.size] at ho
  rw [hstep.batOf, reloadEntry_space htarget (hbepi ▸ hlow) hok, hbepi]
  refine ⟨_,AddressMap.mapRange_add _ _ _ _ _ ho,rfl,rfl,?_⟩
  intro he
  rw [hexec he]
  rfl

/-- The iteration of another entry keeps a window covered, unless it is a data BAT at the
place of an instruction BAT. -/
lemma covered_other (hown : Owns l.s e' ram) (hcov : Covered l.s e' ram) (hbat : l.s.HasBat e.1)
    (hexec : e'.2 = false → e.2 = true → reloadTarget l e = some ram →
      (l.s.batOf e').bepi ≠ (l.s.batOf e).bepi)
    (hok : (reloadEntry k l e).s.fatalError = false) :
    Covered (reloadEntry k l e).s e' ram := by
  have hstep := reloadEntry_mapStep (k := k) (l := l) (e := e)
  cases htarget : reloadTarget l e with
  | none =>
    exact hcov.congr (hstep.batOf e') hstep.size (reloadEntry_space_of_no_target htarget)
  | some ram' =>
    obtain ⟨-,hz,hnames,-⟩ := reloadTarget_eq_some.mp htarget
    rcases hown.clear e hbat hz ram' hnames with ⟨rfl,hbepi⟩ | hapart
    · intro o ho
      refine covered_of_target htarget hbepi (hown.bepi_lt ?_) (fun he' => ?_) hok o ho
      · rw [hstep.size] at ho
        omega
      · by_contra hdata
        exact hexec he' (by simpa using hdata) htarget hbepi.symm
    · rcases reloadEntry_space_cases (k := k) htarget with hspace | hspace
      · exact hcov.congr (hstep.batOf e') hstep.size hspace
      · rw [Covered, hstep.batOf, hstep.size, hspace]
        exact AddressMap.Shows.mapRange_apart hcov hapart

/-- The window of the BAT is covered, and if it has to be executable, a slot holds its base for
good. -/
structure Settled (s : EmuState) (l : ReloadLoop) (e : BatRef) (ram : Ram) : Prop where
  covered : Covered l.s e ram
  slot : e.2 = false → ∃ b, s.HasBat b.1 ∧ l.s.mem.slot ram b = (s.batOf e).bepi ∧
    (NamesRam s b ram → (s.batOf b).bepi = (s.batOf e).bepi)

/-- The BAT has not had its turn, and no slot holds the base that its test looks for. -/
structure Awaited (s : EmuState) (vaddr : Word) (pre : List BatRef) (l : ReloadLoop) (e : BatRef)
    (ram : Ram) : Prop where
  later : e ∉ pre
  unrecorded : Unrecorded s s.mem.slot vaddr ram e
  slot : e.2 = true → ∀ b, s.HasBat b.1 → l.s.mem.slot ram b ≠ (s.batOf e).bepi

lemma settled_next (hstart : StartLoop s vaddr pre l) (hown : Owns s e ram)
    (hlow : (s.batOf e).bepi < maxAllowedVaddr) (hbat : s.HasBat e'.1) (h : Settled s l e ram)
    (hok : (reloadEntry k l e').s.fatalError = false) : Settled s (reloadEntry k l e') e ram where
  covered := by
    by_cases hee : e' = e
    · subst hee
      cases htarget : reloadTarget l e' with
      | none =>
        exact h.covered.congr (reloadEntry_mapStep.batOf e') reloadEntry_mapStep.size
          (reloadEntry_space_of_no_target htarget)
      | some ram' =>
        obtain rfl := ram_of_target hstart.step hown.names htarget
        exact covered_of_target htarget rfl (by rwa [hstart.step.batOf]) id hok
    · refine covered_other (hstart.step.sameTables.owns.mpr hown) h.covered ?_ ?_ hok
      · rw [EmuState.HasBat, hstart.step.maxBAT]
        exact hbat
      · -- the test of a data BAT at the same place finds the base
        intro hinstr hdata htarget hbepi
        obtain ⟨b,hb,hslot,-⟩ := h.slot hinstr
        rw [hstart.step.batOf, hstart.step.batOf] at hbepi
        have hfound : alreadyMapped l e' ram = true := by
          refine alreadyMapped_of_slot hstart.step hb ?_ ?_
          · rw [hdata]
            exact fun h => absurd h (by decide)
          · rw [hdata, if_pos rfl, hslot, hbepi]
        exact no_target_of_alreadyMapped hfound htarget
  slot hinstr := by
    obtain ⟨b,hb,hslot,hstays⟩ := h.slot hinstr
    refine ⟨b,hb,?_,hstays⟩
    cases htarget : reloadTarget l e' with
    | none => rwa [reloadEntry_keeps_of_no_target htarget]
    | some ram' =>
      by_cases heq : ram = ram' ∧ b = e'
      · obtain ⟨rfl,rfl⟩ := heq
        have hbepi := hstays (names_of_target hstart.step hbat htarget)
        rw [← hstart.step.batOf] at hbepi
        rw [slot_of_not_fatal hstart.returned htarget (hbepi ▸ hlow) hok]
        exact hbepi
      · obtain ⟨v,hslots,-⟩ := reloadEntry_window (k := k) htarget
        rw [hslots, if_neg heq]
        exact hslot

/-- At its turn an awaited BAT is mapped anew. -/
lemma settled_of_turn (hstart : StartLoop s vaddr pre l) (hret : l.returned = false)
    (hown : Owns s e ram) (hlow : (s.batOf e).bepi < maxAllowedVaddr)
    (horder : reloadOrder s.maxBAT = pre ++ e::post) (h : Awaited s vaddr pre l e ram)
    (hok : (reloadEntry k l e).s.fatalError = false) : Settled s (reloadEntry k l e) e ram := by
  have hnew : alreadyMapped l e ram = false := by
    obtain ⟨i,isData⟩ := e
    cases isData with
    | false => exact hstart.not_alreadyMapped hret horder h.unrecorded
    | true =>
      by_contra hfound
      obtain ⟨b,hb,-,hslot⟩ :=
        exists_slot_of_alreadyMapped hstart.step (Bool.not_eq_false _ ▸ hfound)
      exact h.slot rfl b hb hslot
  have htarget := target_of_not_mapped hstart.step hret hown.namesRam hnew
  rw [← hstart.step.batOf] at hlow
  refine ⟨covered_of_target htarget rfl hlow id hok,fun _ => ⟨e,hown.bat,?_,fun _ => rfl⟩⟩
  rw [slot_of_not_fatal hstart.returned htarget hlow hok, hstart.step.batOf]

/-- Until then it stays awaited, or another BAT maps its window. -/
lemma awaited_next (hstart : StartLoop s vaddr pre l)
    (hlow : (s.batOf e).bepi < maxAllowedVaddr) (hbat : s.HasBat e'.1) (hne : e' ≠ e)
    (h : Awaited s vaddr pre l e ram) (hok : (reloadEntry k l e').s.fatalError = false) :
    Settled s (reloadEntry k l e') e ram ∨
      Awaited s vaddr (pre ++ [e']) (reloadEntry k l e') e ram := by
  have hlater : e ∉ pre ++ [e'] := by simp [h.later, hne.symm]
  by_cases htwin : e.2 = true ∧ reloadTarget l e' = some ram ∧ (s.batOf e').bepi = (s.batOf e).bepi
  · obtain ⟨hdata,htarget,hbepi⟩ := htwin
    refine .inl ⟨covered_of_target htarget ?_ (by rwa [hstart.step.batOf]) ?_ hok,?_⟩
    · rw [hstart.step.batOf, hstart.step.batOf, hbepi]
    · rw [hdata]
      exact fun h => absurd h (by decide)
    · rw [hdata]
      exact fun h => absurd h (by decide)
  · refine .inr ⟨hlater,h.unrecorded,fun hdata b hb => ?_⟩
    cases htarget : reloadTarget l e' with
    | none =>
      rw [reloadEntry_keeps_of_no_target htarget]
      exact h.slot hdata b hb
    | some ram' =>
      obtain ⟨v,hslots,hwindow⟩ := reloadEntry_window (k := k) htarget
      rw [hslots]
      split
      · rename_i heq
        obtain ⟨rfl,rfl⟩ := heq
        rcases hwindow with ⟨hv,-⟩ | ⟨hv,-⟩
        · rw [hv]
          exact (Bat.bepi_ne_mapFailed _).symm
        · rw [hv, hstart.step.batOf]
          exact fun hbepi => htwin ⟨hdata,htarget,hbepi⟩
      · exact h.slot hdata b hb

/-- The invariant of a pass about the window of one BAT. -/
def CoverLoop (s : EmuState) (vaddr : Word) (e : BatRef) (ram : Ram) (pre : List BatRef)
    (l : ReloadLoop) : Prop :=
  l.s.fatalError = false → Settled s l e ram ∨ Awaited s vaddr pre l e ram

lemma coverLoop_start (h : Unlost s s.mem.slot vaddr ram e (Covered s e ram)) :
    CoverLoop s vaddr e ram [] ⟨s,vaddr,false⟩ := by
  intro _
  rcases h with hun | ⟨hcov,hkeeps⟩
  · refine .inr ⟨List.not_mem_nil,hun,fun hdata => ?_⟩
    obtain ⟨i,isData⟩ := e
    obtain rfl : isData = true := hdata
    exact hun
  · refine .inl ⟨hcov,fun hinstr => ?_⟩
    obtain ⟨b,hb⟩ := hkeeps hinstr
    exact ⟨b,hb.bat,hb.slot,fun hnames => (hb.stays hnames).1⟩

lemma coverLoop_next (hstart : StartLoop s vaddr pre l) (hown : Owns s e ram)
    (hlow : (s.batOf e).bepi < maxAllowedVaddr) (horder : reloadOrder s.maxBAT = pre ++ e'::post)
    (h : CoverLoop s vaddr e ram pre l) :
    CoverLoop s vaddr e ram (pre ++ [e']) (reloadEntry k l e') := by
  intro hok
  have hprev : l.s.fatalError = false := reloadEntry_mapStep.ok hok
  have hbat : s.HasBat e'.1 := mem_reloadOrder.mp (by rw [horder]; simp)
  rcases h hprev with hsettled | hawaited
  · exact .inl (settled_next hstart hown hlow hbat hsettled hok)
  · by_cases hne : e' = e
    · subst hne
      have hret := hstart.not_returned hprev
      exact .inl (settled_of_turn hstart hret hown hlow horder hawaited hok)
    · exact awaited_next hstart hlow hbat hne hawaited hok

/-- A pass that loses none of the windows owned, and reports no error, covers them. -/
theorem allCovered_memReloadMap (hkept : s.fatalError = false → ∀ e ram, Owns s e ram →
      Unlost s s.mem.slot vaddr ram e (Covered s e ram))
    (hok : (memReloadMap k vaddr s).fatalError = false) :
    AllCovered (memReloadMap k vaddr s) := by
  intro e ram hown
  rw [memReloadMap_mapStep.sameTables.owns] at hown
  rcases Nat.eq_zero_or_pos (s.mem.size ram).toNat with hsize | hsize
  · intro o ho
    rw [memReloadMap_mapStep.size, hsize] at ho
    exact absurd ho (Nat.not_lt_zero o)
  have hloop : CoverLoop s vaddr e ram (reloadOrder s.maxBAT)
      ((reloadOrder s.maxBAT).foldl (reloadEntry k) ⟨s,vaddr,false⟩) := by
    refine foldl_invariant (P := fun _ _ => True) (fun _ _ _ _ => trivial)
      (coverLoop_start (hkept (memReloadMap_mapStep.ok hok) e ram hown)) ?_
    intro pre e' post hes hpre _
    exact coverLoop_next (startLoop_before hes) hown (hown.bepi_lt hsize) hes hpre
  rw [memReloadMap_eq] at hok ⊢
  rcases hloop hok with hsettled | hawaited
  · exact hsettled.covered
  · exact absurd (mem_reloadOrder.mpr hown.bat) hawaited.later

end
end DolTools
