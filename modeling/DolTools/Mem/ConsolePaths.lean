import DolTools.Mem.QuietPass

/-! The two console cases of the loop of `E_MemReloadMap` side by side, on tables that both
take: four BATs that name MEM1. They differ where an instruction BAT from the limit on is
refused, and in the empty slots that only the Wii looks at. -/
namespace DolTools
open Runs

/-- The answer to an `mmap` depends on its address only. -/
def addressKernel (grants : Word → Bool) : Kernel where
  mmapSucceeds _ call :=
    match call with
    | .mmap _ addr _ _ => grants addr
    | _ => false

namespace EmuState

def onGcn (s : EmuState) : EmuState := { s with consoleType := .gamecube, maxBAT := 4 }

def onWii (s : EmuState) : EmuState := { s with consoleType := .wii, maxBAT := 8 }

end EmuState

/-- Four BATs that name MEM1 only, and no slot taken beyond. -/
structure Mem1Tables (s : EmuState) : Prop where
  zero : ∀ e : BatRef, 4 ≤ e.1.val → (s.batOf e).isZero = true
  base : ∀ e, (s.batOf e).isZero = false → (s.batOf e).bprn = mem1Paddr
  slots : ∀ ram (e : BatRef), 4 ≤ e.1.val → s.mem.slot ram e = mapFailed

/-- The two cases make the same calls and leave the same slots of MEM1 and the same flag. -/
structure ConsolesAgree (k : Kernel) (vaddr : Word) (s : EmuState) : Prop where
  calls : (memReloadMap k vaddr s.onGcn).host.calls = (memReloadMap k vaddr s.onWii).host.calls
  slots : ∀ e, (memReloadMap k vaddr s.onGcn).mem.slot .mem1 e =
    (memReloadMap k vaddr s.onWii).mem.slot .mem1 e
  fatal : (memReloadMap k vaddr s.onGcn).fatalError = (memReloadMap k vaddr s.onWii).fatalError

/-- `vaddr` happens to be `MAP_FAILED`, which none of the first four instruction slots is, and
the first BAT that is set is an instruction BAT. On the Wii the last four slots hide it. -/
structure HiddenOnWii (vaddr : Word) (s : EmuState) : Prop where
  vaddr : vaddr = mapFailed
  taken : ∀ j : Fin 8, j.val < 4 → s.mem.slot .mem1 (j,false) ≠ mapFailed
  first : ∃ i, (s.batOf (i,false)).isZero = false ∧ ∀ e : BatRef, e.1 < i →
    (s.batOf e).isZero = true

/-- An instruction BAT from the limit on is to be mapped anew, and the host refuses: the
GameCube stops, the Wii goes on. -/
def StopsGcn (grants : Word → Bool) (l : ReloadLoop) (e : BatRef) : Prop :=
  e.2 = false ∧ (reloadTarget l e).isSome = true ∧ maxAllowedVaddr ≤ (l.s.batOf e).bepi ∧
    grants (l.s.batOf e).bepi = false

instance (grants : Word → Bool) (l : ReloadLoop) (e : BatRef) : Decidable (StopsGcn grants l e) :=
  inferInstanceAs (Decidable (_ ∧ _))

/-- Where the GameCube stops first, the error flag is set already and the Wii maps nothing
more. -/
def StopHarmless (grants : Word → Bool) : ReloadLoop → List BatRef → Prop
  | _, [] => True
  | l, e::es =>
    if StopsGcn grants l e then
      l.s.fatalError = true ∧
        Quiet (addressKernel grants) (reloadEntry (addressKernel grants) l e) es
    else StopHarmless grants (reloadEntry (addressKernel grants) l e) es

/-- The loops of the two consoles have the same slots. The GameCube may have made some calls
more, before the others. -/
structure Alike (s : EmuState) (extra : List HostCall) (g w : ReloadLoop) : Prop where
  gcn : MapStep s.onGcn g.s
  wii : MapStep s.onWii w.s
  mem : w.s.mem = g.s.mem
  slots : ∀ e : BatRef, 4 ≤ e.1.val → g.s.mem.slot .mem1 e = mapFailed
  calls : ∃ new, g.s.host.calls = new ++ (extra ++ s.host.calls) ∧
    w.s.host.calls = new ++ s.host.calls

/-- Both loops are still at the same entry. -/
structure Lockstep (s : EmuState) (extra : List HostCall) (g w : ReloadLoop) : Prop
    extends Alike s extra g w where
  returned : w.returned = g.returned
  fatal : w.s.fatalError = g.s.fatalError

/-- The locals `vaddr` give both loops the same answer about an instruction BAT. -/
def VaddrsMatch (g w : ReloadLoop) : Prop :=
  (w.vaddr = g.vaddr ∧ g.vaddr ≠ mapFailed) ∨
    (slotI g.s .mem1 g.vaddr = true ∧ slotI w.s .mem1 w.vaddr = true)

section

variable {grants : Word → Bool} {s : EmuState} {ram : Ram} {i : Fin 8} {v : Word}
  {exec fatal : Bool}

lemma mmap_address (size : Word) (h : Host) :
    (h.mmap (addressKernel grants) ram v size exec).1 = if grants v then v else mapFailed := by
  by_cases hg : grants v = true
  · rw [if_pos hg]
    exact (Host.mmap_of_succeeds hg).1
  · rw [if_neg hg]
    exact (Host.mmap_of_fails hg).1

lemma mapWindow_mem : (mapWindow (addressKernel grants) ram i v exec fatal s).s.mem =
    if exec then s.mem.setMapI ram i (if grants v then v else mapFailed)
    else s.mem.setMapD ram i (if grants v then v else mapFailed) := by
  rw [← mmap_address (s.mem.size ram) s.host]
  simp only [mapWindow]
  split <;> rfl

lemma mapWindow_stops (hv : v ≠ mapFailed) :
    (mapWindow (addressKernel grants) ram i v exec fatal s).returned = (!grants v && fatal) ∧
      (mapWindow (addressKernel grants) ram i v exec fatal s).s.fatalError =
        (s.fatalError || (!grants v && fatal)) := by
  simp only [mapWindow, mmap_address]
  cases grants v <;> cases fatal <;> simp [hv, EmuState.fatal]

end

/-- The last four indices do not count when they fail the test. -/
lemma any_batIndices {p : Fin 8 → Bool} (h : ∀ j : Fin 8, 4 ≤ j.val → p j = false) :
    (batIndices 8).any p = (batIndices 4).any p := by
  rw [show batIndices 8 = batIndices 4 ++ [4,5,6,7] by decide, List.any_append]
  simp [h]

section

variable {grants : Word → Bool} {s : EmuState} {extra : List HostCall} {g w l : ReloadLoop}
  {e : BatRef} {v : Word}

namespace Alike

theorem batOf (h : Alike s extra g w) (e : BatRef) :
    g.s.batOf e = s.batOf e ∧ w.s.batOf e = s.batOf e := ⟨h.gcn.batOf e,h.wii.batOf e⟩

theorem slotI (h : Alike s extra g w) (hv : v ≠ mapFailed) :
    slotI w.s .mem1 v = slotI g.s .mem1 v := by
  unfold DolTools.slotI
  rw [h.wii.maxBAT, h.gcn.maxBAT, h.mem]
  apply any_batIndices
  intro j hj
  rw [show g.s.mem.mapI .mem1 j = mapFailed from h.slots (j,false) hj]
  exact beq_eq_false_iff_ne.mpr hv.symm

theorem slotD (h : Alike s extra g w) (hv : v ≠ mapFailed) :
    slotD w.s .mem1 v = slotD g.s .mem1 v := by
  unfold DolTools.slotD
  rw [h.wii.maxBAT, h.gcn.maxBAT, h.mem]
  apply any_batIndices
  intro j hj
  rw [show g.s.mem.mapI .mem1 j = mapFailed from h.slots (j,false) hj,
    show g.s.mem.mapD .mem1 j = mapFailed from h.slots (j,true) hj, Bool.or_self]
  exact beq_eq_false_iff_ne.mpr hv.symm

theorem alreadyMapped (h : Alike s extra g w) (hv : VaddrsMatch g w ∨ e.2 = true) :
    alreadyMapped w e .mem1 = alreadyMapped g e .mem1 := by
  obtain ⟨hbg,hbw⟩ := h.batOf e
  cases hdata : e.2 with
  | true =>
    simp only [DolTools.alreadyMapped, hdata, if_true, hbg, hbw]
    exact h.slotD (Bat.bepi_ne_mapFailed _)
  | false =>
    simp only [DolTools.alreadyMapped, hdata, Bool.false_eq_true, if_false]
    rw [hdata] at hv
    rcases hv with (⟨heq,hne⟩ | ⟨hg,hw⟩) | hv
    · rw [heq, h.slotI hne]
    · rw [hg, hw]
    · contradiction

end Alike

lemma ramOf_onGcn (h : Mem1Tables s) (hz : (s.batOf e).isZero = false) :
    s.onGcn.ramOf e = some .mem1 := by
  change gcnPath.ramOf (s.batOf e).bprn = _
  rw [h.base e hz]
  rfl

lemma ramOf_onWii (h : Mem1Tables s) (hz : (s.batOf e).isZero = false) :
    s.onWii.ramOf e = some .mem1 := by
  change wiiPath.ramOf (s.batOf e).bprn = _
  rw [h.base e hz]
  rfl

/-- A set entry that the two loops come to together: mapped already for both, or for neither. -/
lemma lockstep_entry (htab : Mem1Tables s) (h : Lockstep s extra g w) (hret : g.returned = false)
    (hz : (s.batOf e).isZero = false) (hv : VaddrsMatch g w ∨ e.2 = true) :
    (∀ k, reloadEntry k g e = { g with vaddr := if e.2 then (s.batOf e).bepi else g.vaddr } ∧
      reloadEntry k w e = { w with vaddr := if e.2 then (s.batOf e).bepi else w.vaddr }) ∨
    (reloadTarget g e = some .mem1 ∧ reloadTarget w e = some .mem1) := by
  obtain ⟨hbg,hbw⟩ := h.batOf e
  have hzg : (g.s.batOf e).isZero = false := by rwa [hbg]
  have hzw : (w.s.batOf e).isZero = false := by rwa [hbw]
  have hrg : g.s.ramOf e = some .mem1 := (h.gcn.ramOf e).trans (ramOf_onGcn htab hz)
  have hrw : w.s.ramOf e = some .mem1 := (h.wii.ramOf e).trans (ramOf_onWii htab hz)
  have hretw : w.returned = false := h.returned.trans hret
  have hmapped := h.alreadyMapped hv
  cases hmap : alreadyMapped g e .mem1 with
  | true =>
    refine .inl (fun k => ?_)
    rw [hmap] at hmapped
    rw [reloadEntry_of_ram hret hzg hrg, reloadEntry_of_ram hretw hzw hrw, hmap, hmapped,
      if_pos rfl, if_pos rfl, hbg, hbw]
    exact ⟨rfl,rfl⟩
  | false =>
    rw [hmap] at hmapped
    exact .inr ⟨reloadTarget_eq_some.mpr ⟨hret,hzg,hrg,hmap⟩,
      reloadTarget_eq_some.mpr ⟨hretw,hzw,hrw,hmapped⟩⟩

/-- Both loops map the window of the entry. -/
lemma windows_of_target (h : Alike s extra g w) (hg : reloadTarget g e = some .mem1)
    (hw : reloadTarget w e = some .mem1) (k : Kernel) :
    reloadEntry k g e =
        mapWindow k .mem1 e.1 (s.batOf e).bepi (!e.2) (g.s.windowFatal e) g.s ∧
      reloadEntry k w e =
        mapWindow k .mem1 e.1 (s.batOf e).bepi (!e.2) (w.s.windowFatal e) w.s := by
  rw [reloadEntry_of_target hg, reloadEntry_of_target hw, (h.batOf e).1, (h.batOf e).2]
  exact ⟨rfl,rfl⟩

/-- Both loops make the same call, with the same answer. -/
lemma alike_of_target (htab : Mem1Tables s) (h : Alike s extra g w)
    (hz : (s.batOf e).isZero = false) (hg : reloadTarget g e = some .mem1)
    (hw : reloadTarget w e = some .mem1) :
    Alike s extra (reloadEntry (addressKernel grants) g e)
      (reloadEntry (addressKernel grants) w e) where
  gcn := h.gcn.trans reloadEntry_mapStep
  wii := h.wii.trans reloadEntry_mapStep
  mem := by
    obtain ⟨hgcn,hwii⟩ := windows_of_target h hg hw (addressKernel grants)
    rw [hgcn, hwii, mapWindow_mem, mapWindow_mem, h.mem]
  slots e' he' := by
    have hne : e' ≠ e := by
      rintro rfl
      exact absurd ((htab.zero e' he').symm.trans hz) (by decide)
    rw [reloadEntry_slot_of_ne hne]
    exact h.slots e' he'
  calls := by
    obtain ⟨new,hcg,hcw⟩ := h.calls
    rw [reloadEntry_calls, reloadEntry_calls, hg, hw, hcg, hcw, h.mem, (h.batOf e).1,
      (h.batOf e).2]
    exact ⟨_::new,rfl,rfl⟩

lemma windowFatal_onGcn (h : MapStep s.onGcn g.s) : g.s.windowFatal e =
    (!e.2 || decide ((s.batOf e).bepi < maxAllowedVaddr)) := by
  unfold EmuState.windowFatal
  rw [h.batOf, h.consoleType]
  cases e.2 <;> rfl

lemma windowFatal_onWii (h : MapStep s.onWii w.s) : w.s.windowFatal e =
    decide ((s.batOf e).bepi < maxAllowedVaddr) := by
  unfold EmuState.windowFatal
  rw [h.batOf, h.consoleType]
  cases e.2 <;> rfl

/-- Where the GameCube does not stop alone, the loops stay together. -/
lemma lockstep_step (htab : Mem1Tables s) (h : Lockstep s extra g w) (hret : g.returned = false)
    (hz : (s.batOf e).isZero = false) (hv : VaddrsMatch g w ∨ e.2 = true)
    (hstop : ¬ StopsGcn grants w e) :
    Lockstep s extra (reloadEntry (addressKernel grants) g e)
        (reloadEntry (addressKernel grants) w e) ∧
      VaddrsMatch (reloadEntry (addressKernel grants) g e)
        (reloadEntry (addressKernel grants) w e) := by
  rcases lockstep_entry htab h hret hz hv with hskip | ⟨hg,hw⟩
  · obtain ⟨hg,hw⟩ := hskip (addressKernel grants)
    rw [hg, hw]
    refine ⟨⟨⟨h.gcn,h.wii,h.mem,h.slots,h.calls⟩,h.returned,h.fatal⟩,?_⟩
    cases hdata : e.2 with
    | true => exact .inl ⟨rfl,Bat.bepi_ne_mapFailed _⟩
    | false =>
      rw [hdata] at hv
      exact hv.resolve_right (by decide)
  · have hflags : (!grants (s.batOf e).bepi && g.s.windowFatal e) =
        (!grants (s.batOf e).bepi && w.s.windowFatal e) := by
      rw [windowFatal_onGcn h.gcn, windowFatal_onWii h.wii]
      by_contra hne
      refine hstop ⟨?_,by rw [hw]; rfl,?_,?_⟩
      · cases hdata : e.2 with
        | false => rfl
        | true => exact absurd (by rw [hdata]; rfl) hne
      · rw [(h.batOf e).2]
        by_contra hlt
        exact hne (by rw [decide_eq_true (BitVec.not_le.mp hlt), Bool.or_true])
      · rw [(h.batOf e).2]
        cases hgr : grants (s.batOf e).bepi with
        | false => rfl
        | true => exact absurd (by rw [hgr]; rfl) hne
    have hne := Bat.bepi_ne_mapFailed (s.batOf e)
    obtain ⟨hgcn,hwii⟩ := windows_of_target h.toAlike hg hw (addressKernel grants)
    refine ⟨⟨alike_of_target htab h.toAlike hz hg hw,?_,?_⟩,.inl ⟨?_,?_⟩⟩
    · rw [hgcn, hwii, (mapWindow_stops hne).1, (mapWindow_stops hne).1, hflags]
    · rw [hgcn, hwii, (mapWindow_stops hne).2, (mapWindow_stops hne).2, hflags, h.fatal]
    · rw [hgcn, hwii, mapWindow_vaddr, mapWindow_vaddr]
    · rw [hgcn, mapWindow_vaddr]
      exact hne

/-- The GameCube has stopped alone: it has made the refused call and raised the flag. -/
structure Parted (grants : Word → Bool) (g : ReloadLoop) : Prop where
  returned : g.returned = true
  fatal : g.s.fatalError = true
  refused : ∃ ram addr size rest, g.s.host.calls = HostCall.mmap ram addr size true::rest ∧
    grants addr = false

lemma parted_of_stops (htab : Mem1Tables s) (h : Lockstep s extra g w) (hret : g.returned = false)
    (hz : (s.batOf e).isZero = false) (hv : VaddrsMatch g w ∨ e.2 = true)
    (hstop : StopsGcn grants w e) :
    Alike s extra (reloadEntry (addressKernel grants) g e)
        (reloadEntry (addressKernel grants) w e) ∧
      Parted grants (reloadEntry (addressKernel grants) g e) ∧
      (reloadEntry (addressKernel grants) w e).s.fatalError = w.s.fatalError := by
  obtain ⟨hinstr,htarget,hhigh,hrefused⟩ := hstop
  have hne := Bat.bepi_ne_mapFailed (s.batOf e)
  rw [(h.batOf e).2] at hhigh hrefused
  rcases lockstep_entry htab h hret hz hv with hskip | ⟨hg,hw⟩
  · -- a mapping that exists already is not made anew
    have hcalls := reloadEntry_calls (addressKernel grants) w e
    rw [(hskip (addressKernel grants)).2] at hcalls
    obtain ⟨ram,hram⟩ := Option.isSome_iff_exists.mp htarget
    rw [hram] at hcalls
    exact absurd (congrArg List.length hcalls) (by simp)
  · have hfg : g.s.windowFatal e = true := by
      rw [windowFatal_onGcn h.gcn, hinstr]
      rfl
    have hfw : w.s.windowFatal e = false := by
      rw [windowFatal_onWii h.wii]
      exact decide_eq_false (BitVec.not_lt.mpr hhigh)
    obtain ⟨hgcn,hwii⟩ := windows_of_target h.toAlike hg hw (addressKernel grants)
    refine ⟨alike_of_target htab h.toAlike hz hg hw,⟨?_,?_,?_⟩,?_⟩
    · rw [hgcn, (mapWindow_stops hne).1, hrefused, hfg]
      rfl
    · rw [hgcn, (mapWindow_stops hne).2, hrefused, hfg]
      exact Bool.or_true _
    · rw [hgcn, mapWindow_calls, hinstr]
      exact ⟨_,_,_,_,rfl,hrefused⟩
    · rw [hwii, (mapWindow_stops hne).2, hfw, Bool.and_false, Bool.or_false]

/-- The first entry that is set is a data BAT. -/
def DataFirst (s : EmuState) (es : List BatRef) : Prop :=
  ∀ i, (i,false) ∈ es → (s.batOf (i,false)).isZero = false →
    ∃ e ∈ es, e.1 < i ∧ (s.batOf e).isZero = false

/-- The loops stay together over the entries, or the GameCube stops at one of them. -/
inductive Outcome (grants : Word → Bool) (s : EmuState) (extra : List HostCall)
    (g w : ReloadLoop) (es : List BatRef) : Prop
  | together (lockstep : Lockstep s extra (es.foldl (reloadEntry (addressKernel grants)) g)
        (es.foldl (reloadEntry (addressKernel grants)) w))
      (harmless : StopHarmless grants w es)
  | parted (w' : ReloadLoop) (post : List BatRef)
      (alike : Alike s extra (es.foldl (reloadEntry (addressKernel grants)) g) w')
      (stopped : Parted grants (es.foldl (reloadEntry (addressKernel grants)) g))
      (rest : es.foldl (reloadEntry (addressKernel grants)) w =
        post.foldl (reloadEntry (addressKernel grants)) w')
      (harmless : StopHarmless grants w es ↔
        w'.s.fatalError = true ∧ Quiet (addressKernel grants) w' post)

lemma stopHarmless_cons (h : ¬ StopsGcn grants l e) (es : List BatRef) :
    StopHarmless grants l (e::es) ↔
      StopHarmless grants (reloadEntry (addressKernel grants) l e) es := by
  rw [StopHarmless, if_neg h]

lemma stopHarmless_of_returned (h : l.returned = true) (es : List BatRef) :
    StopHarmless grants l es := by
  induction es with
  | nil => trivial
  | cons e es ih =>
    have htarget : reloadTarget l e = none := by simp [reloadTarget, h]
    rw [stopHarmless_cons (by simp [StopsGcn, htarget]), show reloadEntry _ l e = l from if_pos h]
    exact ih

lemma Outcome.cons {es : List BatRef} (hstop : ¬ StopsGcn grants w e)
    (h : Outcome grants s extra (reloadEntry (addressKernel grants) g e)
      (reloadEntry (addressKernel grants) w e) es) : Outcome grants s extra g w (e::es) := by
  cases h with
  | together lockstep harmless =>
    exact .together lockstep ((stopHarmless_cons hstop es).mpr harmless)
  | parted w' post alike stopped rest harmless =>
    exact .parted w' post alike stopped rest ((stopHarmless_cons hstop es).trans harmless)

/-- An instruction BAT is not the first set entry of a list that begins with data BATs. -/
lemma isData_of_first {es : List BatRef} (hsorted : (e::es).Pairwise (fun a b => a.1 ≤ b.1))
    (hz : (s.batOf e).isZero = false) (h : DataFirst s (e::es)) : e.2 = true := by
  cases hdata : e.2 with
  | true => rfl
  | false =>
    obtain ⟨i,isData⟩ := e
    obtain rfl : isData = false := hdata
    obtain ⟨e',hmem,hlt,-⟩ := h i List.mem_cons_self hz
    rcases List.mem_cons.mp hmem with rfl | hmem
    · exact absurd hlt (lt_irrefl _)
    · exact absurd hlt (not_lt.mpr ((List.pairwise_cons.mp hsorted).1 e' hmem))

lemma outcome (htab : Mem1Tables s) {es : List BatRef}
    (hsorted : es.Pairwise (fun a b => a.1 ≤ b.1)) (h : Lockstep s extra g w)
    (hv : VaddrsMatch g w ∨ DataFirst s es) : Outcome grants s extra g w es := by
  induction es generalizing g w with
  | nil => exact .together h trivial
  | cons e es ih =>
    have htail := (List.pairwise_cons.mp hsorted).2
    cases hret : g.returned with
    | true =>
      have hretw := h.returned.trans hret
      refine .together ?_ (stopHarmless_of_returned hretw _)
      rw [reloadEntries_of_returned hret, reloadEntries_of_returned hretw]
      exact h
    | false =>
      cases hz : (s.batOf e).isZero with
      | true =>
        have hzg : (g.s.batOf e).isZero = true := by rwa [(h.batOf e).1]
        have hzw : (w.s.batOf e).isZero = true := by rwa [(h.batOf e).2]
        refine .cons (by simp [StopsGcn, reloadTarget, hzw]) ?_
        rw [reloadEntry_of_zero hzg, reloadEntry_of_zero hzw]
        refine ih htail h (hv.imp_right ?_)
        intro hfirst i hi hzi
        obtain ⟨e',hmem,hlt,hz'⟩ := hfirst i (List.mem_cons_of_mem e hi) hzi
        rcases List.mem_cons.mp hmem with rfl | hmem
        · exact absurd (hz.symm.trans hz') (by decide)
        · exact ⟨e',hmem,hlt,hz'⟩
      | false =>
        have hdata := hv.imp_right (isData_of_first hsorted hz)
        by_cases hstop : StopsGcn grants w e
        · obtain ⟨halike,hparted,hkept⟩ := parted_of_stops htab h hret hz hdata hstop
          have hsame : (e::es).foldl (reloadEntry (addressKernel grants)) g =
              reloadEntry (addressKernel grants) g e :=
            reloadEntries_of_returned hparted.returned es
          refine .parted _ es (hsame ▸ halike) (hsame ▸ hparted) rfl ?_
          rw [StopHarmless, if_pos hstop, hkept]
        · obtain ⟨hlock,hmatch⟩ := lockstep_step htab h hret hz hdata hstop
          exact .cons hstop (ih htail hlock (.inl hmatch))

/-- The two passes end alike. -/
structure EndAlike (g w : ReloadLoop) : Prop where
  calls : g.s.host.calls = w.s.host.calls
  slots : ∀ e, g.s.mem.slot .mem1 e = w.s.mem.slot .mem1 e
  fatal : g.s.fatalError = w.s.fatalError

lemma endAlike_iff (htab : Mem1Tables s) {es : List BatRef} (h : Outcome grants s [] g w es) :
    EndAlike (es.foldl (reloadEntry (addressKernel grants)) g)
      (es.foldl (reloadEntry (addressKernel grants)) w) ↔ StopHarmless grants w es := by
  cases h with
  | together lockstep harmless =>
    refine iff_of_true ⟨?_,fun e => by rw [lockstep.mem],lockstep.fatal.symm⟩ harmless
    obtain ⟨new,hg,hw⟩ := lockstep.calls
    rw [hg, hw]
    rfl
  | parted w' post alike stopped rest harmless =>
    rw [harmless, rest]
    obtain ⟨new,hg,hw⟩ := alike.calls
    have hcalls : (es.foldl (reloadEntry (addressKernel grants)) g).s.host.calls =
        w'.s.host.calls := hg.trans hw.symm
    have hram : ∀ e ∈ post, (w'.s.batOf e).isZero = false → w'.s.ramOf e ≠ none := by
      intro e _ hz
      rw [(alike.batOf e).2] at hz
      rw [alike.wii.ramOf, ramOf_onWii htab hz]
      exact Option.some_ne_none _
    constructor
    · intro hend
      have hquiet : Quiet (addressKernel grants) w' post :=
        quiet_iff_calls.mpr (hend.calls.symm.trans hcalls)
      have hfatal := hend.fatal
      rw [reloadEntries_of_quiet hquiet hram, stopped.fatal] at hfatal
      exact ⟨hfatal.symm,hquiet⟩
    · rintro ⟨hfatal,hquiet⟩
      have hsame := reloadEntries_of_quiet hquiet hram
      refine ⟨by rw [hsame, hcalls],fun e => by rw [hsame, alike.mem],?_⟩
      rw [hsame, stopped.fatal, hfatal]

/-- A call more that was granted is never made up for. -/
lemma calls_ne_of_outcome {ram : Ram} {addr size : Word} {exec : Bool} {es : List BatRef}
    (hgranted : grants addr = true)
    (h : Outcome grants s [.mmap ram addr size exec] g w es) :
    (es.foldl (reloadEntry (addressKernel grants)) g).s.host.calls ≠
      (es.foldl (reloadEntry (addressKernel grants)) w).s.host.calls := by
  intro heq
  cases h with
  | together lockstep harmless =>
    obtain ⟨new,hg,hw⟩ := lockstep.calls
    rw [hg, hw] at heq
    have hlen := congrArg List.length heq
    simp only [List.length_append, List.length_cons, List.length_nil] at hlen
    omega
  | parted w' post alike stopped rest harmless =>
    -- the Wii would make one call more as well, the last one, and it would be the refused one
    obtain ⟨new,hg,hw⟩ := alike.calls
    obtain ⟨last,hlast⟩ := reloadEntries_calls (addressKernel grants) post w'
    obtain ⟨ram',addr',size',older,hrefused,hno⟩ := stopped.refused
    rw [rest, hlast, hw] at heq
    have hlen := congrArg List.length (hg.symm.trans heq)
    simp only [List.length_append, List.length_cons, List.length_nil] at hlen
    obtain ⟨call,rfl⟩ := List.length_eq_one_iff.mp (show last.length = 1 by omega)
    obtain rfl : HostCall.mmap ram' addr' size' true = call :=
      (List.cons.inj (hrefused.symm.trans heq)).1
    have hne : HostCall.mmap ram' addr' size' true ≠ .mmap ram addr size exec := by
      intro hcall
      rw [(HostCall.mmap.inj hcall).2.1] at hno
      exact absurd (hno.symm.trans hgranted) (by decide)
    have hcount := congrArg (List.count (HostCall.mmap ram addr size exec)) (hg.symm.trans heq)
    simp only [List.count_append, List.count_cons_self, List.count_cons_of_ne hne,
      List.count_nil] at hcount
    omega

/-- Entries beyond the fourth change nothing on either console. -/
lemma memReloadMap_onGcn (htab : Mem1Tables s) (k : Kernel) (vaddr : Word) :
    memReloadMap k vaddr s.onGcn =
      ((reloadOrder 8).foldl (reloadEntry k) ⟨s.onGcn,vaddr,false⟩).s := by
  obtain ⟨high,hsplit,hhigh⟩ : ∃ high, reloadOrder 8 = reloadOrder 4 ++ high ∧
      ∀ e ∈ high, 4 ≤ e.1.val :=
    ⟨[(4,false),(4,true),(5,false),(5,true),(6,false),(6,true),(7,false),(7,true)],by decide⟩
  have hzero : ∀ e ∈ high, (((reloadOrder 4).foldl (reloadEntry k)
      ⟨s.onGcn,vaddr,false⟩).s.batOf e).isZero = true := by
    intro e he
    rw [(reloadEntries_mapStep (reloadOrder 4) ⟨s.onGcn,vaddr,false⟩).batOf e]
    exact htab.zero e (hhigh e he)
  rw [memReloadMap_eq, hsplit, List.foldl_append, reloadEntries_of_zero hzero]
  rfl

lemma consolesAgree_iff_endAlike (htab : Mem1Tables s) (k : Kernel) (vaddr : Word) :
    ConsolesAgree k vaddr s ↔ EndAlike
      ((reloadOrder 8).foldl (reloadEntry k) ⟨s.onGcn,vaddr,false⟩)
      ((reloadOrder 8).foldl (reloadEntry k) ⟨s.onWii,vaddr,false⟩) := by
  have hw : memReloadMap k vaddr s.onWii =
    ((reloadOrder 8).foldl (reloadEntry k) ⟨s.onWii,vaddr,false⟩).s := memReloadMap_eq k vaddr _
  constructor
  · rintro ⟨hcalls,hslots,hfatal⟩
    rw [memReloadMap_onGcn htab, hw] at hcalls hfatal
    simp only [memReloadMap_onGcn htab, hw] at hslots
    exact ⟨hcalls,hslots,hfatal⟩
  · rintro ⟨hcalls,hslots,hfatal⟩
    rw [← memReloadMap_onGcn htab, ← hw] at hcalls hfatal
    simp only [← memReloadMap_onGcn htab, ← hw] at hslots
    exact ⟨hcalls,hslots,hfatal⟩

lemma alike_start (htab : Mem1Tables s) (vaddr : Word) :
    Alike s [] ⟨s.onGcn,vaddr,false⟩ ⟨s.onWii,vaddr,false⟩ :=
  ⟨.refl _,.refl _,rfl,fun e he => htab.slots .mem1 e he,[],rfl,rfl⟩

/-- The Wii finds `MAP_FAILED` among the last four slots. -/
lemma slotI_onWii (htab : Mem1Tables s) : slotI s.onWii .mem1 mapFailed = true := by
  rw [slotI, List.any_eq_true]
  refine ⟨4,show 4 ∈ batIndices 8 by decide,?_⟩
  rw [show s.onWii.mem.mapI .mem1 4 = mapFailed from htab.slots .mem1 (4,false) (by decide)]
  rfl

lemma start_matches (htab : Mem1Tables s) {vaddr : Word} (h : ¬ HiddenOnWii vaddr s) :
    VaddrsMatch ⟨s.onGcn,vaddr,false⟩ ⟨s.onWii,vaddr,false⟩ ∨ DataFirst s (reloadOrder 8) := by
  by_cases hv : vaddr = mapFailed
  · subst hv
    by_cases htaken : ∀ j : Fin 8, j.val < 4 → s.mem.slot .mem1 (j,false) ≠ mapFailed
    · refine .inr (fun i hi hz => ?_)
      by_contra hcon
      push Not at hcon
      refine h ⟨rfl,htaken,i,hz,?_⟩
      intro e hlt
      by_contra hset
      have hmem : e ∈ reloadOrder 8 := mem_reloadOrder.mpr (by
        have hall : ∀ j : Fin 8, j ∈ batIndices 8 := by decide
        exact hall e.1)
      exact hset ((Bool.not_eq_false _).mp (hcon e hmem hlt))
    · push Not at htaken
      obtain ⟨j,hj,hslot⟩ := htaken
      refine .inl (.inr ⟨?_,slotI_onWii htab⟩)
      rw [slotI, List.any_eq_true]
      have hall : ∀ j : Fin 8, j.val < 4 → j ∈ batIndices 4 := by decide
      exact ⟨j,hall j hj,by rw [show s.onGcn.mem.mapI .mem1 j = mapFailed from hslot]; rfl⟩
  · exact .inl (.inl ⟨rfl,hv⟩)

/-- The order of a pass, about one instruction BAT. -/
lemma reloadOrder_split (i : Fin 8) : ∃ pre post, reloadOrder 8 = pre ++ (i,false)::post ∧
    (∀ e ∈ pre, e.1 < i) ∧ (i,false) ∉ post := by
  have hmem : (i,false) ∈ reloadOrder 8 := by
    revert i
    decide
  obtain ⟨pre,post,hsplit⟩ := List.append_of_mem hmem
  have hpair : (reloadOrder 8).Pairwise (fun a b => b.2 = false → a.1 < b.1) := by decide
  rw [hsplit, List.pairwise_append] at hpair
  refine ⟨pre,post,hsplit,fun e he => hpair.2.2 e he _ List.mem_cons_self rfl,fun hpost => ?_⟩
  exact lt_irrefl _ ((List.pairwise_cons.mp hpair.2.1).1 _ hpost rfl)

/-- The GameCube maps the BAT that is hidden on the Wii. -/
lemma gcn_maps_hidden {i : Fin 8} (htab : Mem1Tables s) (h : HiddenOnWii mapFailed s)
    (hz : (s.batOf (i,false)).isZero = false) :
    reloadTarget ⟨s.onGcn,mapFailed,false⟩ (i,false) = some .mem1 := by
  refine reloadTarget_eq_some.mpr ⟨rfl,hz,ramOf_onGcn htab hz,?_⟩
  change slotI s.onGcn .mem1 mapFailed = false
  rw [DolTools.slotI, List.any_eq_false]
  intro j hj
  have hall : ∀ j ∈ batIndices 4, j.val < 4 := by decide
  exact fun heq => h.taken j (hall j hj) (eq_of_beq heq)

lemma wii_skips_hidden {i : Fin 8} (htab : Mem1Tables s) (k : Kernel)
    (hz : (s.batOf (i,false)).isZero = false) :
    reloadEntry k ⟨s.onWii,mapFailed,false⟩ (i,false) = ⟨s.onWii,mapFailed,false⟩ := by
  rw [reloadEntry_of_ram rfl hz (ramOf_onWii htab hz)]
  exact if_pos (slotI_onWii htab)

/-- If the window is granted and the slot held its base already, the two loops differ in that
one call only. -/
lemma lockstep_of_hidden {i : Fin 8} (htab : Mem1Tables s) (hi : i.val < 4)
    (hg : reloadTarget ⟨s.onGcn,mapFailed,false⟩ (i,false) = some .mem1)
    (hgr : grants (s.batOf (i,false)).bepi = true)
    (hslot : s.mem.slot .mem1 (i,false) = (s.batOf (i,false)).bepi) :
    Lockstep s [.mmap .mem1 (s.batOf (i,false)).bepi (s.mem.size .mem1) true]
        (reloadEntry (addressKernel grants) ⟨s.onGcn,mapFailed,false⟩ (i,false))
        ⟨s.onWii,mapFailed,false⟩ ∧
      VaddrsMatch (reloadEntry (addressKernel grants) ⟨s.onGcn,mapFailed,false⟩ (i,false))
        ⟨s.onWii,mapFailed,false⟩ := by
  have hne : (s.onGcn.batOf (i,false)).bepi ≠ mapFailed := Bat.bepi_ne_mapFailed _
  have hgr' : grants (s.onGcn.batOf (i,false)).bepi = true := hgr
  have hmem : (reloadEntry (addressKernel grants) ⟨s.onGcn,mapFailed,false⟩ (i,false)).s.mem =
      s.mem := by
    rw [reloadEntry_of_target hg]
    apply mapWindow_mem_of_slot (e := (i,false))
    rw [mmap_address, if_pos hgr']
    exact hslot.symm
  refine ⟨⟨⟨reloadEntry_mapStep (l := ⟨s.onGcn,mapFailed,false⟩),.refl _,hmem.symm,?_,[],?_,rfl⟩,
    ?_,?_⟩,.inr ⟨?_,slotI_onWii htab⟩⟩
  · rw [hmem]
    exact htab.slots .mem1
  · rw [reloadEntry_calls, hg]
    rfl
  · rw [reloadEntry_of_target hg, (mapWindow_stops hne).1, hgr']
    rfl
  · rw [reloadEntry_of_target hg, (mapWindow_stops hne).2, hgr']
    exact (Bool.or_false _).symm
  · rw [slotI, hmem, List.any_eq_true]
    have hall : ∀ j : Fin 8, j.val < 4 → j ∈ batIndices 4 := by decide
    refine ⟨i,?_,?_⟩
    · rw [reloadEntry_mapStep.maxBAT]
      exact hall i hi
    · rw [reloadEntry_of_target hg, mapWindow_vaddr]
      exact beq_iff_eq.mpr hslot

/-- The mapping that only the GameCube makes shows in the slot of the BAT, or else in the
calls. -/
lemma not_endAlike_of_hidden (htab : Mem1Tables s) {vaddr : Word} (h : HiddenOnWii vaddr s) :
    ¬ EndAlike ((reloadOrder 8).foldl (reloadEntry (addressKernel grants)) ⟨s.onGcn,vaddr,false⟩)
      ((reloadOrder 8).foldl (reloadEntry (addressKernel grants)) ⟨s.onWii,vaddr,false⟩) := by
  obtain rfl := h.vaddr
  obtain ⟨i,hz,hbefore⟩ := h.first
  have hi : i.val < 4 := by
    by_contra hi
    exact absurd ((htab.zero (i,false) (not_lt.mp hi)).symm.trans hz) (by decide)
  obtain ⟨pre,post,hsplit,hpre,hpost⟩ := reloadOrder_split i
  have hg := gcn_maps_hidden htab h hz
  have hzero : ∀ l : ReloadLoop, l.s.batOf = s.batOf →
      pre.foldl (reloadEntry (addressKernel grants)) l = l :=
    fun l hl => reloadEntries_of_zero (fun e he => by rw [hl]; exact hbefore e (hpre e he))
  rw [hsplit, List.foldl_append, List.foldl_append, hzero ⟨s.onGcn,mapFailed,false⟩ rfl,
    hzero ⟨s.onWii,mapFailed,false⟩ rfl, List.foldl_cons, List.foldl_cons,
    wii_skips_hidden htab _ hz]
  intro hend
  -- no later entry writes the slot
  have hslot := hend.slots (i,false)
  rw [reloadEntries_slot_of_not_mem hpost, reloadEntries_slot_of_not_mem hpost,
    reloadEntry_of_target hg, mapWindow_mem] at hslot
  have hwritten := (MemState.slot_setMapI _ _ _ _ _ _).symm.trans hslot
  rw [if_pos ⟨rfl,rfl⟩] at hwritten
  cases hgr : grants (s.batOf (i,false)).bepi with
  | false =>
    rw [show grants (s.onGcn.batOf (i,false)).bepi = false from hgr] at hwritten
    exact h.taken i hi hwritten.symm
  | true =>
    rw [show grants (s.onGcn.batOf (i,false)).bepi = true from hgr, if_pos rfl] at hwritten
    obtain ⟨hlock,hmatch⟩ := lockstep_of_hidden htab hi hg hgr hwritten.symm
    have hsorted := reloadOrder_sorted 8
    rw [hsplit, List.pairwise_append] at hsorted
    exact calls_ne_of_outcome hgr (outcome htab (List.pairwise_cons.mp hsorted.2.1).2 hlock
      (.inl hmatch)) hend.calls

end

/-- The two cases agree just when no BAT is hidden on the Wii, and the GameCube stops nowhere
alone, or only with the flag set before and nothing more to map. -/
theorem consolesAgree_iff_stopHarmless (grants : Word → Bool) (vaddr : Word) {s : EmuState}
    (htab : Mem1Tables s) : ConsolesAgree (addressKernel grants) vaddr s ↔
      ¬ HiddenOnWii vaddr s ∧ StopHarmless grants ⟨s.onWii,vaddr,false⟩ (reloadOrder 8) := by
  rw [consolesAgree_iff_endAlike htab]
  by_cases hhidden : HiddenOnWii vaddr s
  · exact iff_of_false (not_endAlike_of_hidden htab hhidden) (fun h => h.1 hhidden)
  · rw [endAlike_iff htab (outcome htab (reloadOrder_sorted 8)
      ⟨alike_start htab vaddr,rfl,rfl⟩ (start_matches htab hhidden))]
    exact (and_iff_right hhidden).symm

end DolTools
