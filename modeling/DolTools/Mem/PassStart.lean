import DolTools.Library.Runs
import DolTools.Mem.Init
import DolTools.Mem.Slots

/-! What the tables and slots before a pass say of its tests for an existing mapping. That of a
data BAT looks for its own base, that of an instruction BAT for what an earlier entry has left in
`vaddr`; where the slots of the pass settle a test, they do so whatever the host answers. -/
namespace DolTools
open Runs

/-- What a mapping at the base leaves in its slot. -/
def answerAt (grants : Word → Bool) (base : Word) : Word := if grants base then base else mapFailed

/-- The BAT is set up and names the RAM. -/
structure NamesRam (s : EmuState) (e : BatRef) (ram : Ram) : Prop where
  bat : s.HasBat e.1
  set : (s.batOf e).isZero = false
  names : s.ramOf e = some ram

instance (s : EmuState) (e : BatRef) (ram : Ram) : Decidable (NamesRam s e ram) :=
  decidable_of_iff (s.HasBat e.1 ∧ (s.batOf e).isZero = false ∧ s.ramOf e = some ram)
    ⟨fun ⟨h,h',h''⟩ => ⟨h,h',h''⟩,fun h => ⟨h.bat,h.set,h.names⟩⟩

/-- The first BAT has its turn before the second one. -/
def Precedes (a b : BatRef) : Prop := a.1 < b.1 ∨ (a.1 = b.1 ∧ a.2 = false ∧ b.2 = true)

instance (a b : BatRef) : Decidable (Precedes a b) := inferInstanceAs (Decidable (_ ∨ _))

/-- A value that `vaddr` may have at the turn of the BAT: that of the call, if no data BAT is set
before, or the BEPI of a set BAT, if no data BAT is set between. -/
inductive MayHold (s : EmuState) (vaddr : Word) (e : BatRef) : Word → Prop
  | unset (h : ∀ j, Precedes (j,true) e → (s.batOf (j,true)).isZero = true) :
    MayHold s vaddr e vaddr
  | bepi {e' : BatRef} (before : Precedes e' e) (set : (s.batOf e').isZero = false)
      (last : ∀ j, Precedes e' (j,true) → Precedes (j,true) e →
        (s.batOf (j,true)).isZero = true) : MayHold s vaddr e (s.batOf e').bepi

/-- The slot holds the base before a pass and keeps it: its BAT is not set for the RAM, or stands
at this base. -/
structure Keeps (s : EmuState) (slots : Ram → BatRef → Word) (ram : Ram) (e : BatRef)
    (base : Word) : Prop where
  bat : s.HasBat e.1
  slot : slots ram e = base
  stays : NamesRam s e ram → (s.batOf e).bepi = base ∧ base < maxAllowedVaddr

/-- The BAT is sure to be taken for mapped: what its test looks for is in a slot that keeps it. -/
def SurelyFound (s : EmuState) (slots : Ram → BatRef → Word) (vaddr : Word) (ram : Ram) :
    BatRef → Prop
  | (i,true) => ∃ e, Keeps s slots ram e (s.batOf (i,true)).bepi
  | (i,false) => ∀ v, MayHold s vaddr (i,false) v → ∃ j, Keeps s slots ram (j,false) v

/-- What the test of the BAT looks for is in no slot before the pass, and for an instruction BAT
also no BEPI of an earlier one of its RAM. -/
def Unrecorded (s : EmuState) (slots : Ram → BatRef → Word) (vaddr : Word) (ram : Ram) :
    BatRef → Prop
  | (i,true) => ∀ e, s.HasBat e.1 → slots ram e ≠ (s.batOf (i,true)).bepi
  | (i,false) => ∀ v, MayHold s vaddr (i,false) v → ∀ j, s.HasBat j →
    slots ram (j,false) ≠ v ∧ (j < i → NamesRam s (j,false) ram → (s.batOf (j,false)).bepi ≠ v)

/-- Two states with the same BATs, the same RAMs behind them, and RAMs of the same size. -/
structure SameTables (s t : EmuState) : Prop where
  batOf : ∀ e, t.batOf e = s.batOf e
  ramOf : ∀ e, t.ramOf e = s.ramOf e
  maxBAT : t.maxBAT = s.maxBAT
  size : t.mem.size = s.mem.size

/-- The slots with which the pass of a call of `E_MemMapFixups` starts: on the return from real
mode it has emptied them. -/
def passSlots (oldMsr : Word) (s : EmuState) : Ram → BatRef → Word :=
  if isTranslating oldMsr then s.mem.slot else fun _ _ => mapFailed

/-- The invariant of a pass over the entries done so far: where `vaddr` and the slots have their
values from. -/
structure StartLoop (s : EmuState) (vaddr : Word) (pre : List BatRef) (l : ReloadLoop) :
    Prop where
  step : MapStep s l.s
  returned : l.returned = true → l.s.fatalError = true
  vaddr : l.returned = false →
    (l.vaddr = vaddr ∧ l.s.mem = s.mem ∧ ∀ d ∈ pre, d.2 = true → (s.batOf d).isZero = true) ∨
    ∃ pre₁ e pre₂, pre = pre₁ ++ e::pre₂ ∧ (s.batOf e).isZero = false ∧
      l.vaddr = (s.batOf e).bepi ∧ ∀ d ∈ pre₂, d.2 = true → (s.batOf d).isZero = true
  slot : ∀ ram e, l.s.mem.slot ram e = s.mem.slot ram e ∨ (e ∈ pre ∧ NamesRam s e ram ∧
    (l.s.mem.slot ram e = (s.batOf e).bepi ∨ (l.s.mem.slot ram e = mapFailed ∧
      ((s.batOf e).bepi < maxAllowedVaddr → l.returned = true))))

section

variable {k : Kernel} {s t : EmuState} {l : ReloadLoop} {a b e : BatRef} {i : Fin 8} {ram : Ram}
  {ram' : Ram} {vaddr v base : Word} {pre post : List BatRef} {slots : Ram → BatRef → Word}

lemma Precedes.irrefl : ¬ Precedes e e := by
  rintro (h | ⟨-,h,h'⟩)
  · exact lt_irrefl _ h
  · exact absurd (h.symm.trans h') (by decide)

lemma Precedes.asymm (h : Precedes a b) : ¬ Precedes b a := by
  rintro h'
  rcases h with h | ⟨heq,ha,hb⟩ <;> rcases h' with h' | ⟨heq',hb',ha'⟩
  · exact absurd h' (not_lt.mpr h.le)
  · exact absurd h (heq' ▸ lt_irrefl _)
  · exact absurd h' (heq ▸ lt_irrefl _)
  · exact absurd (ha.symm.trans ha') (by decide)

lemma reloadOrder_precedes (maxBAT : Fin 9) : (reloadOrder maxBAT).Pairwise Precedes := by
  rw [reloadOrder, List.pairwise_flatMap]
  constructor
  · intro i _
    simp [Precedes]
  · apply (batIndices_sorted maxBAT).imp
    intro i j hij a ha b hb
    have ha' : a.1 = i := by rcases List.mem_pair.mp ha with rfl | rfl <;> rfl
    have hb' : b.1 = j := by rcases List.mem_pair.mp hb with rfl | rfl <;> rfl
    exact .inl (by rwa [ha', hb'])

/-- The entries done when one has its turn are those that precede it. -/
lemma mem_pre_iff (h : reloadOrder s.maxBAT = pre ++ e::post) :
    a ∈ pre ↔ s.HasBat a.1 ∧ Precedes a e := by
  have hsorted := reloadOrder_precedes s.maxBAT
  rw [h, List.pairwise_append, List.pairwise_cons] at hsorted
  obtain ⟨-,⟨hpost,-⟩,hpre⟩ := hsorted
  constructor
  · intro ha
    exact ⟨mem_reloadOrder.mp (h ▸ List.mem_append_left _ ha),hpre a ha e List.mem_cons_self⟩
  · rintro ⟨hbat,hae⟩
    have hmem : a ∈ pre ++ e::post := h ▸ mem_reloadOrder.mpr hbat
    rcases List.mem_append.mp hmem with ha | ha
    · exact ha
    · rcases List.mem_cons.mp ha with rfl | ha
      · exact absurd hae Precedes.irrefl
      · exact absurd (hpost a ha) hae.asymm

namespace SameTables

theorem refl (s : EmuState) : SameTables s s := ⟨fun _ => rfl,fun _ => rfl,rfl,rfl⟩

theorem symm (h : SameTables s t) : SameTables t s :=
  ⟨fun e => (h.batOf e).symm,fun e => (h.ramOf e).symm,h.maxBAT.symm,h.size.symm⟩

theorem hasBat (h : SameTables s t) : t.HasBat i ↔ s.HasBat i := by
  rw [EmuState.HasBat, h.maxBAT]
  rfl

theorem namesRam (h : SameTables s t) : NamesRam t e ram ↔ NamesRam s e ram := by
  constructor
  · rintro ⟨hbat,hz,hram⟩
    exact ⟨h.hasBat.mp hbat,by rwa [← h.batOf],by rwa [← h.ramOf]⟩
  · rintro ⟨hbat,hz,hram⟩
    exact ⟨h.hasBat.mpr hbat,by rwa [h.batOf],by rwa [h.ramOf]⟩

theorem mayHold (h : SameTables s t) (hv : MayHold s vaddr e v) : MayHold t vaddr e v := by
  cases hv with
  | unset hno =>
    refine .unset (fun j hj => ?_)
    rw [h.batOf]
    exact hno j hj
  | @bepi e' before set last =>
    rw [← h.batOf]
    refine .bepi before (by rwa [h.batOf]) (fun j hj hje => ?_)
    rw [h.batOf]
    exact last j hj hje

variable {slots' : Ram → BatRef → Word}

theorem keeps (h : SameTables s t)
    (hslots : ∀ ram e, s.HasBat e.1 → slots' ram e = slots ram e)
    (hkeeps : Keeps s slots ram e base) : Keeps t slots' ram e base where
  bat := h.hasBat.mpr hkeeps.bat
  slot := (hslots ram e hkeeps.bat).trans hkeeps.slot
  stays hnames := by
    rw [h.batOf]
    exact hkeeps.stays (h.namesRam.mp hnames)

theorem surelyFound (h : SameTables s t)
    (hslots : ∀ ram e, s.HasBat e.1 → slots' ram e = slots ram e)
    (hfound : SurelyFound s slots vaddr ram e) : SurelyFound t slots' vaddr ram e := by
  obtain ⟨i,isData⟩ := e
  cases isData with
  | true =>
    obtain ⟨b,hb⟩ := hfound
    refine ⟨b,?_⟩
    rw [h.batOf]
    exact h.keeps hslots hb
  | false =>
    intro v hv
    obtain ⟨j,hj⟩ := hfound v (h.symm.mayHold hv)
    exact ⟨j,h.keeps hslots hj⟩

theorem unrecorded (h : SameTables s t)
    (hslots : ∀ ram e, s.HasBat e.1 → slots' ram e = slots ram e)
    (hun : Unrecorded s slots vaddr ram e) : Unrecorded t slots' vaddr ram e := by
  obtain ⟨i,isData⟩ := e
  cases isData with
  | true =>
    intro b hb
    rw [hslots ram b (h.hasBat.mp hb), h.batOf]
    exact hun b (h.hasBat.mp hb)
  | false =>
    intro v hv j hj
    obtain ⟨hold,hnew⟩ := hun v (h.symm.mayHold hv) j (h.hasBat.mp hj)
    rw [hslots ram (j,false) (h.hasBat.mp hj), h.batOf]
    exact ⟨hold,fun hji hnames => hnew hji (h.namesRam.mp hnames)⟩

end SameTables

lemma MapStep.sameTables (h : MapStep s t) : SameTables s t :=
  ⟨h.batOf,h.ramOf,h.maxBAT,h.size⟩

lemma reloadStart_sameTables (oldMsr : Word) (s : EmuState) :
    SameTables s (reloadStart oldMsr s) :=
  have h : MapStep (fixupsEntry oldMsr s) (reloadStart oldMsr s) := reloadStart_mapStep
  ⟨h.batOf,h.ramOf,h.maxBAT,h.size⟩

lemma reloadStart_slot {oldMsr : Word} (hnew : isTranslating s.cpu.msr = true)
    (hbat : s.HasBat e.1) :
    (reloadStart oldMsr s).mem.slot ram e = passSlots oldMsr s ram e := by
  cases hold : isTranslating oldMsr with
  | true =>
    rw [reloadStart_of_translating hold, passSlots, hold, if_pos rfl]
    rfl
  | false =>
    have heq : reloadStart oldMsr s = unmapAll (fixupsEntry oldMsr s) := by
      simp [reloadStart, hold, hnew]
    have hempty : (unmapAll (fixupsEntry oldMsr s)).mem.slot ram e = mapFailed := unmapAll_slot hbat
    rw [heq, hempty, passSlots, hold, if_neg Bool.false_ne_true]

lemma names_of_target (hstep : MapStep s l.s) (hbat : s.HasBat e.1)
    (h : reloadTarget l e = some ram) : NamesRam s e ram := by
  obtain ⟨-,hz,hram,-⟩ := reloadTarget_eq_some.mp h
  rw [hstep.batOf] at hz
  rw [hstep.ramOf] at hram
  exact ⟨hbat,hz,hram⟩

lemma ram_of_target (hstep : MapStep s l.s) (hnames : s.ramOf e = some ram)
    (h : reloadTarget l e = some ram') : ram' = ram := by
  obtain ⟨-,-,hram,-⟩ := reloadTarget_eq_some.mp h
  rw [hstep.ramOf, hnames] at hram
  exact (Option.some.inj hram).symm

lemma target_of_not_mapped (hstep : MapStep s l.s) (hret : l.returned = false)
    (hnames : NamesRam s e ram) (hno : alreadyMapped l e ram = false) :
    reloadTarget l e = some ram := by
  refine reloadTarget_eq_some.mpr ⟨hret,?_,?_,hno⟩
  · rw [hstep.batOf]
    exact hnames.set
  · rw [hstep.ramOf]
    exact hnames.names

/-- An entry that is mapped anew writes its slot, and its window if the host agrees. -/
lemma reloadEntry_window (h : reloadTarget l e = some ram) :
    ∃ v, (∀ ram' e', (reloadEntry k l e).s.mem.slot ram' e' =
        if ram' = ram ∧ e' = e then v else l.s.mem.slot ram' e') ∧
      ((v = mapFailed ∧ (reloadEntry k l e).s.host.space = l.s.host.space) ∨
        (v = (l.s.batOf e).bepi ∧ (reloadEntry k l e).s.host.space =
          l.s.host.space.mapRange (l.s.batOf e).bepi.toNat (l.s.mem.size ram).toNat
            (fun o => ⟨ram,o,!e.2⟩))) := by
  rw [reloadEntry_of_target h]
  refine ⟨_,fun ram' e' => mapWindow_slot ram' e',?_⟩
  rw [mapWindow_space]
  by_cases hk : k.mmapSucceeds l.s.host.calls
      (.mmap ram (l.s.batOf e).bepi (l.s.mem.size ram) (!e.2))
  · exact .inr (Host.mmap_of_succeeds hk)
  · exact .inl (Host.mmap_of_fails hk)

/-- With a host that answers by address the answer is known beforehand. -/
lemma reloadEntry_byAddress {grants : Word → Bool} (hk : k.ByAddress grants)
    (h : reloadTarget l e = some ram) :
    (reloadEntry k l e).s.mem.slot ram e = answerAt grants (l.s.batOf e).bepi ∧
      (reloadEntry k l e).s.host.space = if grants (l.s.batOf e).bepi then
        l.s.host.space.mapRange (l.s.batOf e).bepi.toNat (l.s.mem.size ram).toNat
          (fun o => ⟨ram,o,!e.2⟩) else l.s.host.space := by
  have hcall := hk l.s.host.calls ram (l.s.batOf e).bepi (l.s.mem.size ram) (!e.2)
  rw [reloadEntry_of_target h, mapWindow_slot, if_pos ⟨rfl,rfl⟩, mapWindow_space, answerAt, ← hcall]
  by_cases hsucc : k.mmapSucceeds l.s.host.calls
      (.mmap ram (l.s.batOf e).bepi (l.s.mem.size ram) (!e.2)) = true
  · rw [if_pos hsucc, if_pos hsucc]
    exact Host.mmap_of_succeeds hsucc
  · rw [if_neg hsucc, if_neg hsucc]
    exact Host.mmap_of_fails hsucc

/-- A refused window below the limit ends the pass. -/
lemma returned_of_refused (h : reloadTarget l e = some ram)
    (hslot : (reloadEntry k l e).s.mem.slot ram e = mapFailed)
    (hlow : (l.s.batOf e).bepi < maxAllowedVaddr) : (reloadEntry k l e).returned = true := by
  rw [reloadEntry_of_target h] at hslot ⊢
  rw [mapWindow_slot, if_pos ⟨rfl,rfl⟩] at hslot
  rw [mapWindow_returned_eq, hslot, windowFatal_of_lt hlow]
  rfl

/-- Below the limit a window that is mapped anew without an error has its base in the slot. -/
lemma slot_of_not_fatal (hreturned : l.returned = true → l.s.fatalError = true)
    (h : reloadTarget l e = some ram) (hlow : (l.s.batOf e).bepi < maxAllowedVaddr)
    (hok : (reloadEntry k l e).s.fatalError = false) :
    (reloadEntry k l e).s.mem.slot ram e = (l.s.batOf e).bepi := by
  obtain ⟨v,hslots,hwindow⟩ := reloadEntry_window (k := k) h
  have hslot : (reloadEntry k l e).s.mem.slot ram e = v := by rw [hslots, if_pos ⟨rfl,rfl⟩]
  rcases hwindow with ⟨hfailed,-⟩ | ⟨hbase,-⟩
  · have hret := returned_of_refused h (hslot.trans hfailed) hlow
    rw [reloadEntry_returned hreturned hret] at hok
    contradiction
  · exact hslot.trans hbase

namespace StartLoop

theorem not_returned (h : StartLoop s vaddr pre l) (hok : l.s.fatalError = false) :
    l.returned = false := by
  by_contra hret
  rw [h.returned ((Bool.not_eq_false _).mp hret)] at hok
  contradiction

theorem start (s : EmuState) (vaddr : Word) : StartLoop s vaddr [] ⟨s,vaddr,false⟩ :=
  ⟨.refl s,nofun,fun _ => .inl ⟨rfl,rfl,fun _ hd => absurd hd List.not_mem_nil⟩,fun _ _ => .inl rfl⟩

/-- An entry without effect on the slots, which leaves `vaddr` unless it is a data BAT that is
set. -/
theorem of_kept (h : StartLoop s vaddr pre l) (hmem : (reloadEntry k l e).s.mem = l.s.mem)
    (hret : l.returned = true → (reloadEntry k l e).returned = true)
    (hvaddr : (reloadEntry k l e).returned = false → l.returned = false ∧
      (((reloadEntry k l e).vaddr = l.vaddr ∧ (e.2 = true → (s.batOf e).isZero = true)) ∨
        ((s.batOf e).isZero = false ∧ (reloadEntry k l e).vaddr = (s.batOf e).bepi))) :
    StartLoop s vaddr (pre ++ [e]) (reloadEntry k l e) where
  step := h.step.trans reloadEntry_mapStep
  returned := reloadEntry_returned h.returned
  vaddr hr := by
    obtain ⟨hr',hkept | ⟨hz,hbepi⟩⟩ := hvaddr hr
    · rw [hkept.1, hmem]
      rcases h.vaddr hr' with ⟨hv,hm,hunset⟩ | ⟨pre₁,e₁,pre₂,rfl,hz,hv,hunset⟩
      · refine .inl ⟨hv,hm,fun d hd hdata => ?_⟩
        rcases List.mem_append.mp hd with hd | hd
        · exact hunset d hd hdata
        · obtain rfl := List.mem_singleton.mp hd
          exact hkept.2 hdata
      · refine .inr ⟨pre₁,e₁,pre₂ ++ [e],by simp,hz,hv,fun d hd hdata => ?_⟩
        rcases List.mem_append.mp hd with hd | hd
        · exact hunset d hd hdata
        · obtain rfl := List.mem_singleton.mp hd
          exact hkept.2 hdata
    · exact .inr ⟨pre,e,[],rfl,hz,hbepi,fun d hd => absurd hd List.not_mem_nil⟩
  slot ram e' := by
    rw [hmem]
    refine (h.slot ram e').imp_right ?_
    rintro ⟨he,hnames,hv⟩
    exact ⟨List.mem_append_left _ he,hnames,hv.imp_right (fun hv => ⟨hv.1,fun hlow =>
      hret (hv.2 hlow)⟩)⟩

theorem of_target (h : StartLoop s vaddr pre l) (hbat : s.HasBat e.1)
    (htarget : reloadTarget l e = some ram) :
    StartLoop s vaddr (pre ++ [e]) (reloadEntry k l e) where
  step := h.step.trans reloadEntry_mapStep
  returned := reloadEntry_returned h.returned
  vaddr _ := by
    refine .inr ⟨pre,e,[],rfl,(names_of_target h.step hbat htarget).set,?_,
      fun d hd => absurd hd List.not_mem_nil⟩
    rw [reloadEntry_of_target htarget, mapWindow_vaddr, h.step.batOf]
  slot ram' e' := by
    have hret : l.returned = false := (reloadTarget_eq_some.mp htarget).1
    obtain ⟨v,hslot,hwindow⟩ := reloadEntry_window (k := k) htarget
    by_cases heq : ram' = ram ∧ e' = e
    · obtain ⟨rfl,rfl⟩ := heq
      refine .inr ⟨by simp,names_of_target h.step hbat htarget,?_⟩
      rcases hwindow with ⟨hv,-⟩ | ⟨hv,-⟩
      · have hfailed : (reloadEntry k l e').s.mem.slot ram' e' = mapFailed := by
          rw [hslot, if_pos ⟨rfl,rfl⟩, hv]
        refine .inr ⟨hfailed,fun hlow => returned_of_refused htarget hfailed ?_⟩
        rwa [h.step.batOf]
      · left
        rw [hslot, if_pos ⟨rfl,rfl⟩, hv, h.step.batOf]
    · rw [hslot, if_neg heq]
      refine (h.slot ram' e').imp_right ?_
      rintro ⟨he,hnames,hv⟩
      refine ⟨List.mem_append_left _ he,hnames,hv.imp_right (fun hv => ⟨hv.1,fun hlow => ?_⟩)⟩
      rw [hret] at hv
      exact absurd (hv.2 hlow) Bool.false_ne_true

theorem next (h : StartLoop s vaddr pre l) (hbat : s.HasBat e.1) :
    StartLoop s vaddr (pre ++ [e]) (reloadEntry k l e) := by
  have hz : (l.s.batOf e).isZero = (s.batOf e).isZero := by rw [h.step.batOf]
  cases htarget : reloadTarget l e with
  | some ram => exact h.of_target hbat htarget
  | none =>
    have hmem := reloadEntry_keeps_of_no_target (k := k) htarget
    cases hret : l.returned with
    | true =>
      have hsame : reloadEntry k l e = l := if_pos hret
      rw [hsame] at hmem ⊢
      exact hsame ▸ h.of_kept (k := k) (by rw [hsame]) (fun hr => by rw [hsame, hr])
        (fun hr => absurd (hret.symm.trans (hsame ▸ hr)) (by decide))
    | false =>
      cases hzero : (s.batOf e).isZero with
      | true =>
        have hsame : reloadEntry k l e = l := reloadEntry_of_zero (hz.trans hzero)
        exact h.of_kept hmem (fun hr => by rw [hsame, hr])
          (fun _ => ⟨hret,.inl ⟨by rw [hsame],fun _ => hzero⟩⟩)
      | false =>
        cases hram : l.s.ramOf e with
        | none =>
          have hfail := reloadEntry_of_no_ram (k := k) hret (hz.trans hzero) hram
          refine h.of_kept hmem (fun _ => by rw [hfail]; rfl) (fun hr => ?_)
          rw [hfail] at hr
          exact absurd (show true = false from hr) (by decide)
        | some ram =>
          have hmapped : alreadyMapped l e ram = true := by
            by_contra hno
            rw [reloadTarget_eq_some.mpr ⟨hret,hz.trans hzero,hram,Bool.not_eq_true _ ▸ hno⟩]
              at htarget
            contradiction
          have heq := reloadEntry_of_ram (k := k) hret (hz.trans hzero) hram
          rw [if_pos hmapped] at heq
          refine h.of_kept hmem (fun hr => by rw [heq]; exact hr) (fun _ => ⟨hret,?_⟩)
          cases hdata : e.2 with
          | true =>
            refine .inr ⟨hzero,?_⟩
            rw [heq, hdata, ← h.step.batOf]
            rfl
          | false =>
            refine .inl ⟨?_,fun h => absurd h (by decide)⟩
            rw [heq, hdata]
            rfl

end StartLoop

/-- The rule for the tests of a pass: where an entry has its turn, the invariant holds. -/
theorem startLoop_before (h : reloadOrder s.maxBAT = pre ++ post) :
    StartLoop s vaddr pre (pre.foldl (reloadEntry k) ⟨s,vaddr,false⟩) := by
  refine foldl_invariant (P := fun _ _ => True) (fun _ _ _ _ => trivial) (.start s vaddr) ?_
  intro es e rest hes hloop _
  have hmem : e ∈ reloadOrder s.maxBAT := by
    rw [h, hes]
    simp
  exact hloop.next (mem_reloadOrder.mp hmem)

/-- A slot that keeps its base has it throughout the pass. -/
theorem StartLoop.keeps (h : StartLoop s vaddr pre l) (hret : l.returned = false)
    (hkeeps : Keeps s s.mem.slot ram e base) : l.s.mem.slot ram e = base := by
  rcases h.slot ram e with heq | ⟨-,hnames,heq | ⟨-,hlow⟩⟩
  · exact heq.trans hkeeps.slot
  · exact heq.trans (hkeeps.stays hnames).1
  · obtain ⟨hbepi,hbase⟩ := hkeeps.stays hnames
    rw [← hbepi] at hbase
    exact absurd (hret.symm.trans (hlow hbase)) (by decide)

/-- What `vaddr` holds at the turn of an entry. -/
theorem StartLoop.mayHold (h : StartLoop s vaddr pre l) (hret : l.returned = false)
    (horder : reloadOrder s.maxBAT = pre ++ e::post) : MayHold s vaddr e l.vaddr := by
  have hbat : s.HasBat e.1 := mem_reloadOrder.mp (by rw [horder]; simp)
  have hsorted := reloadOrder_precedes s.maxBAT
  have hdone : ∀ j, Precedes (j,true) e → s.HasBat j := by
    intro j hj
    have hle : j ≤ e.1 := by
      rcases hj with hj | ⟨hj,-⟩
      · exact hj.le
      · exact hj.le
    simp only [EmuState.HasBat, mem_batIndices] at hbat ⊢
    omega
  rcases h.vaddr hret with ⟨hv,-,hunset⟩ | ⟨pre₁,e',pre₂,rfl,hz,hv,hunset⟩
  · rw [hv]
    exact .unset (fun j hj => hunset _ ((mem_pre_iff horder).mpr ⟨hdone j hj,hj⟩) rfl)
  · rw [hv]
    refine .bepi ((mem_pre_iff horder).mp (by simp)).2 hz (fun j hj hje => ?_)
    have hmem : (j,true) ∈ pre₁ ++ e'::pre₂ := (mem_pre_iff horder).mpr ⟨hdone j hje,hje⟩
    rw [horder, List.append_assoc, List.pairwise_append] at hsorted
    rcases List.mem_append.mp hmem with hm | hm
    · exact absurd (hsorted.2.2 _ hm e' (by simp)) hj.asymm
    · rcases List.mem_cons.mp hm with rfl | hm
      · exact absurd hj Precedes.irrefl
      · exact hunset _ hm rfl

lemma alreadyMapped_of_slot (hstep : MapStep s l.s) (hbat : s.HasBat b.1)
    (hkind : e.2 = false → b.2 = false) (hslot : l.s.mem.slot ram b =
      if e.2 then (s.batOf e).bepi else l.vaddr) : alreadyMapped l e ram = true := by
  have hmem : b.1 ∈ batIndices l.s.maxBAT := by
    rw [hstep.maxBAT]
    exact hbat
  obtain ⟨j,isData⟩ := b
  cases hdata : e.2 with
  | true =>
    rw [hdata, if_pos rfl] at hslot
    rw [alreadyMapped, hdata, if_pos rfl, slotD, List.any_eq_true, hstep.batOf, ← hslot]
    refine ⟨j,hmem,?_⟩
    cases isData with
    | false => simp [MemState.slot]
    | true => simp [MemState.slot]
  | false =>
    obtain rfl : isData = false := hkind hdata
    rw [hdata, if_neg Bool.false_ne_true] at hslot
    rw [alreadyMapped, hdata, if_neg Bool.false_ne_true, slotI, List.any_eq_true, ← hslot]
    exact ⟨j,hmem,by simp [MemState.slot]⟩

lemma alreadyMapped_data_of_slot {i : Fin 8} (hstep : MapStep s l.s) (hbat : s.HasBat b.1)
    (hslot : l.s.mem.slot ram b = (s.batOf (i,true)).bepi) : alreadyMapped l (i,true) ram = true :=
  alreadyMapped_of_slot hstep hbat (fun h : true = false => absurd h (by decide)) hslot

lemma exists_slot_of_alreadyMapped (hstep : MapStep s l.s)
    (h : alreadyMapped l e ram = true) : ∃ b : BatRef, s.HasBat b.1 ∧
      (e.2 = false → b.2 = false) ∧
      l.s.mem.slot ram b = if e.2 then (s.batOf e).bepi else l.vaddr := by
  cases hdata : e.2 with
  | true =>
    rw [alreadyMapped, hdata, if_pos rfl, slotD, List.any_eq_true, hstep.batOf, hstep.maxBAT] at h
    obtain ⟨j,hj,hslot⟩ := h
    rcases (Bool.or_eq_true _ _).mp hslot with hslot | hslot
    · exact ⟨(j,true),hj,fun h => absurd h (by decide),beq_iff_eq.mp hslot⟩
    · exact ⟨(j,false),hj,fun h => absurd h (by decide),beq_iff_eq.mp hslot⟩
  | false =>
    rw [alreadyMapped, hdata, if_neg Bool.false_ne_true, slotI, List.any_eq_true, hstep.maxBAT] at h
    obtain ⟨j,hj,hslot⟩ := h
    exact ⟨(j,false),hj,fun _ => rfl,beq_iff_eq.mp hslot⟩

/-- A BAT that is sure to be found is not mapped anew. -/
theorem StartLoop.alreadyMapped_of_found (h : StartLoop s vaddr pre l) (hret : l.returned = false)
    (horder : reloadOrder s.maxBAT = pre ++ e::post)
    (hfound : SurelyFound s s.mem.slot vaddr ram e) : alreadyMapped l e ram = true := by
  obtain ⟨i,isData⟩ := e
  cases isData with
  | true =>
    obtain ⟨b,hb⟩ := hfound
    exact alreadyMapped_data_of_slot h.step hb.bat (h.keeps hret hb)
  | false =>
    obtain ⟨j,hj⟩ := hfound _ (h.mayHold hret horder)
    exact alreadyMapped_of_slot h.step hj.bat (fun _ => rfl) (h.keeps hret hj)

theorem StartLoop.no_target_of_found (h : StartLoop s vaddr pre l)
    (horder : reloadOrder s.maxBAT = pre ++ e::post) (hram : s.ramOf e = some ram)
    (hfound : SurelyFound s s.mem.slot vaddr ram e) : reloadTarget l e = none := by
  by_contra hne
  obtain ⟨ram',htarget⟩ := Option.ne_none_iff_exists'.mp hne
  obtain ⟨hret,-,-,-⟩ := reloadTarget_eq_some.mp htarget
  obtain rfl := ram_of_target h.step hram htarget
  exact no_target_of_alreadyMapped (h.alreadyMapped_of_found hret horder hfound) htarget

/-- An instruction BAT that is recorded nowhere is not found. -/
theorem StartLoop.not_alreadyMapped (h : StartLoop s vaddr pre l) (hret : l.returned = false)
    (horder : reloadOrder s.maxBAT = pre ++ (i,false)::post)
    (hun : Unrecorded s s.mem.slot vaddr ram (i,false)) :
    alreadyMapped l (i,false) ram = false := by
  by_contra hfound
  obtain ⟨⟨j,isData⟩,hj,hkind,hslot⟩ :=
    exists_slot_of_alreadyMapped h.step (Bool.not_eq_false _ ▸ hfound)
  obtain rfl : isData = false := hkind rfl
  obtain ⟨hold,hnew⟩ := hun _ (h.mayHold hret horder) j hj
  have hslot' : l.s.mem.slot ram (j,false) = l.vaddr := hslot
  rcases h.vaddr hret with ⟨-,hmem,-⟩ | ⟨-,e',-,-,-,hv,-⟩
  · exact hold (hmem ▸ hslot')
  · rcases h.slot ram (j,false) with heq | ⟨hdone,hnames,heq | ⟨heq,-⟩⟩
    · exact hold (heq.symm.trans hslot')
    · refine hnew ?_ hnames (heq.symm.trans hslot')
      obtain ⟨-,hlt | ⟨-,-,hdata⟩⟩ := (mem_pre_iff horder).mp hdone
      · exact hlt
      · contradiction
    · -- an empty slot holds no BEPI
      exact Bat.bepi_ne_mapFailed _ (hv.symm.trans (hslot'.symm.trans heq))

end

/-- A state with these tables and sizes. -/
def withTables (console : ConsoleType) (maxBAT : Fin 9) (cpu : CpuState) (mem2Size : Word) :
    EmuState :=
  { EmuState.zero with
    consoleType := console
    maxBAT := maxBAT
    cpu := cpu
    mem := { EmuState.zero.mem with
      size := Function.update (fun _ => 0x01800000#32) .mem2 mem2Size } }

def gcnDefaults : EmuState := withTables .gamecube 4 (setMem1Bats .zero) 0

def wiiDefaults : EmuState := withTables .wii 8 (setMem2Bats (setMem1Bats .zero)) 0x04000000#32

section

variable {s : EmuState} {e : BatRef} {i j : Fin 8} {ram : Ram} {vaddr msr : Word}

/-- Behind the regions of `E_MemInit` the tables are the default ones of a console. -/
theorem Regions.sameTables (h : Regions { CpuState.zero with msr := msr } s) :
    SameTables gcnDefaults s ∨ SameTables wiiDefaults s := by
  have hsame : ∀ {t : EmuState}, s.consoleType = t.consoleType → s.maxBAT = t.maxBAT →
      s.cpu = { t.cpu with msr := msr } → s.mem.size = t.mem.size → SameTables t s := by
    intro t hconsole hmax hcpu hsize
    have hbat : ∀ e, s.batOf e = t.batOf e := by
      intro e
      simp only [EmuState.batOf, EmuState.bat, hcpu]
    refine ⟨hbat,fun e => ?_,hmax,hsize⟩
    simp only [EmuState.ramOf, hbat, hconsole]
  cases h with
  | gamecube hconsole hmax hcpu hsize1 hsize2 =>
    refine .inl (hsame (t := gcnDefaults) hconsole hmax hcpu ?_)
    funext ram
    cases ram with
    | mem1 => exact hsize1
    | mem2 => exact hsize2
  | wii hconsole hmax hcpu hsize1 hsize2 =>
    refine .inr (hsame (t := wiiDefaults) hconsole hmax hcpu ?_)
    funext ram
    cases ram with
    | mem1 => exact hsize1
    | mem2 => exact hsize2

lemma Regions.bepi_ne_zero (h : Regions { CpuState.zero with msr := msr } s)
    (hset : (s.batOf e).isZero = false) : (s.batOf e).bepi ≠ 0 := by
  rcases h.sameTables with h | h
  · rw [h.batOf] at hset ⊢
    revert e
    decide
  · rw [h.batOf] at hset ⊢
    revert e
    decide

/-- No RAM has two instruction BATs. -/
lemma Regions.instr_unique (h : Regions { CpuState.zero with msr := msr } s)
    (hi : NamesRam s (i,false) ram) (hj : NamesRam s (j,false) ram) : i = j := by
  rcases h.sameTables with h | h <;> rw [h.namesRam] at hi hj <;> cases ram <;> revert i j <;>
    decide

/-- The default BATs are recorded nowhere as long as no slot is written. -/
theorem unrecorded_of_regions (h : Regions { CpuState.zero with msr := msr } s)
    (hzero : ∀ ram e, s.mem.slot ram e = 0) (hvaddr : vaddr ≠ 0) (hnames : NamesRam s e ram) :
    Unrecorded s s.mem.slot vaddr ram e := by
  obtain ⟨i,isData⟩ := e
  cases isData with
  | true =>
    intro b _
    rw [hzero]
    exact (h.bepi_ne_zero hnames.set).symm
  | false =>
    intro v hv j hj
    have hv' : v ≠ 0 := by
      cases hv with
      | unset => exact hvaddr
      | bepi before set last => exact h.bepi_ne_zero set
    rw [hzero]
    refine ⟨hv'.symm,fun hji hother => ?_⟩
    exact absurd (h.instr_unique hother hnames) hji.ne

end

end DolTools
