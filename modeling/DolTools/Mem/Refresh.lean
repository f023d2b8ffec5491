import DolTools.Library.LastWrite
import DolTools.Mem.QuietPass

/-! `E_MemMapFixups` called twice with nothing changed in between, address translation on. The
second pass may map instruction windows once more, for the test whether they exist looks at
the `vaddr` of the entry before. -/
namespace DolTools
open Runs LastWrite

/-- `E_MemMapFixups` for a state whose MSR has not changed. -/
def refresh (k : Kernel) (vaddr : Word) (s : EmuState) : EmuState :=
  memMapFixups k vaddr s.cpu.msr s

/-- The slots and what each address shows are the same. -/
structure SameView (s t : EmuState) : Prop where
  slot : ∀ ram e, t.mem.slot ram e = s.mem.slot ram e
  space : ∀ a, t.host.space a = s.host.space a

/-- After a first call without an error, a second one changes nothing. -/
def RefreshKeeps (k : Kernel) (vaddr vaddr' : Word) (s : EmuState) : Prop :=
  (refresh k vaddr s).fatalError = false →
    SameView (refresh k vaddr s) (refresh k vaddr' (refresh k vaddr s))

namespace EmuState

/-- The windows that are mapped anew, each with its RAM, if the slots are as they are and `vaddr`
holds `v` before the first entry. The last one may be refused where it must not. -/
def redone (s : EmuState) : Word → List BatRef → List (BatRef × Ram)
  | _, [] => []
  | v, e::es =>
    if (s.batOf e).isZero then s.redone v es
    else match s.ramOf e with
    | none => []
    | some ram =>
      if alreadyMapped ⟨s,v,false⟩ e ram then s.redone (if e.2 then (s.batOf e).bepi else v) es
      else (e,ram)::(if s.mem.slot ram e = mapFailed ∧ s.windowFatal e then []
        else s.redone (s.batOf e).bepi es)

def windowCall (s : EmuState) (w : BatRef × Ram) : HostCall :=
  .mmap w.2 (s.batOf w.1).bepi (s.mem.size w.2) (!w.1.2)

/-- The slot of the window holds its base, and the byte lies in it. -/
def Holds (s : EmuState) (a : ℕ) (w : BatRef × Ram) : Prop :=
  s.mem.slot w.2 w.1 = (s.batOf w.1).bepi ∧ (s.batOf w.1).bepi.toNat ≤ a ∧
    a < (s.batOf w.1).bepi.toNat + (s.mem.size w.2).toNat

/-- The host answers the call for the window with what its slot holds. -/
def AnswersSlot (s : EmuState) (k : Kernel) (calls : List HostCall) (w : BatRef × Ram) : Prop :=
  (if k.mmapSucceeds calls (s.windowCall w) then (s.batOf w.1).bepi else mapFailed) =
    s.mem.slot w.2 w.1

def logWindow (s : EmuState) (calls : List HostCall) (w : BatRef × Ram) : List HostCall :=
  s.windowCall w::calls

end EmuState

/-- Each window to be mapped anew gets the answer that its slot holds, and each byte of the
instruction windows among them shows the last of these already. -/
structure Refreshable (k : Kernel) (vaddr : Word) (s : EmuState) : Prop where
  answers : LoopGuard s.logWindow (s.AnswersSlot k)
    (.fixups s.cpu.msr s.cpu.msr::s.host.calls) (s.redone vaddr (reloadOrder s.maxBAT))
  shown : ∀ pre i ram post, s.redone vaddr (reloadOrder s.maxBAT) = pre ++ ((i,false),ram)::post →
    ∀ a, s.Holds a ((i,false),ram) → (∀ w ∈ post, ¬ s.Holds a w) →
      s.host.space a = some ⟨ram,a - (s.batOf (i,false)).bepi.toNat,true⟩

/-- The loop of a call, before its first entry. -/
def refreshStart (vaddr : Word) (s : EmuState) : ReloadLoop :=
  ⟨fixupsEntry s.cpu.msr s,vaddr,false⟩

/-- A pass that has kept the registers and the slots so far. -/
structure Unmoved (s : EmuState) (l : ReloadLoop) : Prop where
  cpu : l.s.cpu = s.cpu
  maxBAT : l.s.maxBAT = s.maxBAT
  consoleType : l.s.consoleType = s.consoleType
  mem : l.s.mem = s.mem

/-- The windows that the rest of a pass maps anew. -/
def redoneFrom (s : EmuState) (l : ReloadLoop) (es : List BatRef) : List (BatRef × Ram) :=
  if l.returned then [] else s.redone l.vaddr es

/-- The address space with the window mapped, if its slot holds it. -/
def showWindow (s : EmuState) (space : AddressMap Backing) (w : BatRef × Ram) :
    AddressMap Backing :=
  if s.mem.slot w.2 w.1 = (s.batOf w.1).bepi then
    space.mapRange (s.batOf w.1).bepi.toNat (s.mem.size w.2).toNat (fun o => ⟨w.2,o,!w.1.2⟩)
  else space

section

variable {k : Kernel} {l : ReloadLoop} {e : BatRef} {es : List BatRef} {ram : Ram} {a : ℕ}
  {vaddr : Word} {s : EmuState} {w : BatRef × Ram}

lemma showWindow_of_holds (space : AddressMap Backing) (h : s.Holds a w) :
    showWindow s space w a = some ⟨w.2,a - (s.batOf w.1).bepi.toNat,!w.1.2⟩ := by
  rw [showWindow, if_pos h.1]
  exact AddressMap.mapRange_of_mem _ _ h.2

lemma showWindow_of_not_holds (space : AddressMap Backing) (h : ¬ s.Holds a w) :
    showWindow s space w a = space a := by
  unfold showWindow
  split
  · rename_i hslot
    exact AddressMap.mapRange_of_not_mem _ _ (fun hin => h ⟨hslot,hin⟩)
  · rfl

/-- Showing the windows changes no byte just when each shows what is there. -/
lemma showWindows_same (space : AddressMap Backing) (ws : List (BatRef × Ram)) :
    ws.foldl (showWindow s) space a = space a ↔ ∀ pre w post, ws = pre ++ w::post →
      s.Holds a w → (∀ c ∈ post, ¬ s.Holds a c) →
        some ⟨w.2,a - (s.batOf w.1).bepi.toNat,!w.1.2⟩ = space a :=
  foldl_same_iff (fun _ => True) (fun m : AddressMap Backing => m a) (s.Holds a)
    (fun _ w => some ⟨w.2,a - (s.batOf w.1).bepi.toNat,!w.1.2⟩) (fun _ _ _ => trivial)
    (fun m _ _ h => showWindow_of_not_holds m h) (fun m _ _ h => showWindow_of_holds m h) trivial

/-- Where a window is mapped anew, the test for an existing mapping has failed. -/
lemma mem_redone (h : (e,ram) ∈ s.redone vaddr es) :
    e ∈ es ∧ (s.batOf e).isZero = false ∧ s.ramOf e = some ram ∧
      ∃ v, alreadyMapped ⟨s,v,false⟩ e ram = false := by
  induction es generalizing vaddr with
  | nil => contradiction
  | cons c es ih =>
    have htail : ∀ {v}, (e,ram) ∈ s.redone v es → e ∈ c::es ∧ (s.batOf e).isZero = false ∧
        s.ramOf e = some ram ∧ ∃ v, alreadyMapped ⟨s,v,false⟩ e ram = false :=
      fun hmem => ⟨List.mem_cons_of_mem c (ih hmem).1,(ih hmem).2⟩
    rw [EmuState.redone] at h
    split at h
    · exact htail h
    · rename_i hset
      split at h
      · contradiction
      · rename_i hram
        split at h
        · exact htail h
        · rename_i hnot
          rcases List.mem_cons.mp h with heq | h
          · obtain ⟨rfl,rfl⟩ := Prod.mk.inj heq
            exact ⟨List.mem_cons_self,Bool.not_eq_true _ ▸ hset,hram,vaddr,
              Bool.not_eq_true _ ▸ hnot⟩
          · split at h
            · contradiction
            · exact htail h

/-- A data BAT is mapped anew only if no slot of its RAM holds its base, its own neither. -/
lemma not_holds_data {i : Fin 8} (h : ((i,true),ram) ∈ s.redone vaddr (reloadOrder s.maxBAT)) :
    ¬ s.Holds a ((i,true),ram) := by
  rintro ⟨hslot,-⟩
  obtain ⟨hmem,-,-,v,hnot⟩ := mem_redone h
  have hseen : slotD s ram (s.batOf (i,true)).bepi = true := by
    rw [slotD, List.any_eq_true]
    refine ⟨i,mem_reloadOrder.mp hmem,?_⟩
    rw [show s.mem.mapD ram i = (s.batOf (i,true)).bepi from hslot]
    simp
  exact absurd (hseen.symm.trans hnot) (by decide)

namespace Unmoved

theorem batOf (h : Unmoved s l) (e : BatRef) : l.s.batOf e = s.batOf e := by
  simp only [EmuState.batOf, EmuState.bat, h.cpu]

theorem ramOf (h : Unmoved s l) (e : BatRef) : l.s.ramOf e = s.ramOf e := by
  simp only [EmuState.ramOf, h.batOf, h.consoleType]

theorem next (h : Unmoved s l) (hmem : (reloadEntry k l e).s.mem = l.s.mem) :
    Unmoved s (reloadEntry k l e) where
  cpu := reloadEntry_mapStep.cpu.trans h.cpu
  maxBAT := reloadEntry_mapStep.maxBAT.trans h.maxBAT
  consoleType := reloadEntry_mapStep.consoleType.trans h.consoleType
  mem := hmem.trans h.mem

theorem alreadyMapped (h : Unmoved s l) (e : BatRef) (ram : Ram) :
    DolTools.alreadyMapped l e ram = DolTools.alreadyMapped ⟨s,l.vaddr,false⟩ e ram := by
  simp only [DolTools.alreadyMapped, slotD, slotI, h.batOf, h.maxBAT, h.mem]

theorem windowFatal (h : Unmoved s l) (e : BatRef) : l.s.windowFatal e = s.windowFatal e := by
  simp only [EmuState.windowFatal, h.batOf, h.consoleType]

/-- An entry that maps nothing anew. -/
theorem of_no_target (h : Unmoved s l) (htarget : reloadTarget l e = none)
    (es : List BatRef) :
    Unmoved s (reloadEntry k l e) ∧
      redoneFrom s l (e::es) = redoneFrom s (reloadEntry k l e) es := by
  refine ⟨h.next (reloadEntry_keeps_of_no_target htarget),?_⟩
  cases hret : l.returned with
  | true =>
    rw [show reloadEntry k l e = l from if_pos hret, redoneFrom, redoneFrom, if_pos hret]
    exact (if_pos hret).symm
  | false =>
    rw [redoneFrom, hret, if_neg (by decide), EmuState.redone, ← h.batOf, ← h.ramOf]
    cases hz : (l.s.batOf e).isZero with
    | true =>
      rw [reloadEntry_of_zero hz, if_pos rfl, redoneFrom, hret]
      rfl
    | false =>
      rw [if_neg (by decide)]
      cases hram : l.s.ramOf e with
      | none =>
        rw [reloadEntry_of_no_ram hret hz hram]
        rfl
      | some ram =>
        have hmapped : DolTools.alreadyMapped l e ram = true := by
          by_contra hno
          rw [reloadTarget_eq_some.mpr ⟨hret,hz,hram,Bool.not_eq_true _ ▸ hno⟩] at htarget
          contradiction
        rw [reloadEntry_of_ram hret hz hram, if_pos hmapped]
        dsimp only
        rw [← h.alreadyMapped, if_pos hmapped, redoneFrom, hret]
        rfl

/-- The answer to the call of a window. -/
theorem answer (h : Unmoved s l) :
    s.AnswersSlot k l.s.host.calls (e,ram) ↔
      (l.s.host.mmap k ram (l.s.batOf e).bepi (l.s.mem.size ram) (!e.2)).1 = s.mem.slot ram e := by
  rw [EmuState.AnswersSlot, EmuState.windowCall, h.batOf, h.mem, Host.mmap]
  dsimp only
  split <;> exact Iff.rfl

theorem redoneFrom_of_target (h : Unmoved s l) (htarget : reloadTarget l e = some ram) :
    redoneFrom s l (e::es) = (e,ram)::(if s.mem.slot ram e = mapFailed ∧ s.windowFatal e then []
      else s.redone (s.batOf e).bepi es) := by
  obtain ⟨hret,hz,hram,hnot⟩ := reloadTarget_eq_some.mp htarget
  rw [redoneFrom, hret, if_neg (by decide), EmuState.redone, ← h.batOf, ← h.ramOf, hz,
    if_neg (by decide), hram]
  dsimp only
  rw [← h.alreadyMapped, hnot, if_neg (by decide)]

/-- An entry whose window is mapped anew, with the answer that its slot holds. -/
theorem of_answer (h : Unmoved s l) (htarget : reloadTarget l e = some ram)
    (hanswer : s.AnswersSlot k l.s.host.calls (e,ram)) (es : List BatRef) :
    Unmoved s (reloadEntry k l e) ∧
      redoneFrom s l (e::es) = (e,ram)::redoneFrom s (reloadEntry k l e) es ∧
      (reloadEntry k l e).s.host.space = showWindow s l.s.host.space (e,ram) := by
  have hmmap := h.answer.mp hanswer
  refine ⟨h.next ?_,?_,?_⟩
  · rw [← h.mem] at hmmap
    rw [reloadEntry_of_target htarget]
    exact mapWindow_mem_of_slot hmmap
  · have hends : (reloadEntry k l e).returned =
        decide (s.mem.slot ram e = mapFailed ∧ s.windowFatal e = true) := by
      rw [reloadEntry_of_target htarget, mapWindow_returned_eq, hmmap, h.windowFatal]
    have hvaddr : (reloadEntry k l e).vaddr = (s.batOf e).bepi := by
      rw [reloadEntry_of_target htarget, mapWindow_vaddr, h.batOf]
    rw [h.redoneFrom_of_target htarget, redoneFrom, hends, hvaddr]
    simp only [decide_eq_true_eq]
  · rw [reloadEntry_of_target htarget, mapWindow_space, h.batOf, h.mem]
    rw [h.batOf, h.mem] at hmmap
    unfold showWindow
    by_cases hk : k.mmapSucceeds l.s.host.calls
        (.mmap ram (s.batOf e).bepi (s.mem.size ram) (!e.2)) = true
    · rw [if_pos (hmmap.symm.trans (Host.mmap_of_succeeds hk).1), (Host.mmap_of_succeeds hk).2]
    · have hne : s.mem.slot ram e ≠ (s.batOf e).bepi := by
        rw [← hmmap, (Host.mmap_of_fails hk).1]
        exact (Bat.bepi_ne_mapFailed _).symm
      rw [if_neg hne, (Host.mmap_of_fails hk).2]

end Unmoved

lemma reloadEntry_calls_of_target (h : Unmoved s l) (htarget : reloadTarget l e = some ram) :
    (reloadEntry k l e).s.host.calls = s.logWindow l.s.host.calls (e,ram) := by
  rw [reloadEntry_calls, htarget, EmuState.logWindow, EmuState.windowCall, h.batOf, h.mem]
  rfl

/-- A pass that gets the answers its slots hold keeps them, and shows the windows in turn. -/
theorem reloadEntries_of_answers (h : Unmoved s l)
    (hanswers : LoopGuard s.logWindow (s.AnswersSlot k) l.s.host.calls (redoneFrom s l es)) :
    Unmoved s (es.foldl (reloadEntry k) l) ∧ (es.foldl (reloadEntry k) l).s.host.space =
      (redoneFrom s l es).foldl (showWindow s) l.s.host.space := by
  induction es generalizing l with
  | nil =>
    refine ⟨h,?_⟩
    rw [show redoneFrom s l [] = [] from ite_self _]
    rfl
  | cons e es ih =>
    rw [List.foldl_cons]
    cases htarget : reloadTarget l e with
    | none =>
      obtain ⟨hnext,hredone⟩ := h.of_no_target (k := k) htarget es
      rw [hredone, ← reloadEntry_calls_of_no_target (k := k) htarget] at hanswers
      rw [hredone, ← reloadEntry_space_of_no_target (k := k) htarget]
      exact ih hnext hanswers
    | some ram =>
      have hanswer : s.AnswersSlot k l.s.host.calls (e,ram) := by
        rw [h.redoneFrom_of_target htarget] at hanswers
        exact (loopGuard_cons.mp hanswers).1
      obtain ⟨hnext,hredone,hspace⟩ := h.of_answer htarget hanswer es
      rw [hredone, loopGuard_cons, ← reloadEntry_calls_of_target h htarget] at hanswers
      rw [hredone, List.foldl_cons, ← hspace]
      exact ih hnext hanswers.2

/-- A pass that leaves the slots as they were has got these answers. -/
theorem answers_of_slots (h : Unmoved s l) (hnodup : es.Nodup)
    (hslots : ∀ ram e, (es.foldl (reloadEntry k) l).s.mem.slot ram e = s.mem.slot ram e) :
    LoopGuard s.logWindow (s.AnswersSlot k) l.s.host.calls (redoneFrom s l es) := by
  induction es generalizing l with
  | nil =>
    rw [show redoneFrom s l [] = [] from ite_self _]
    exact loopGuard_nil _ _ _
  | cons e es ih =>
    obtain ⟨hnot,hrest⟩ := List.nodup_cons.mp hnodup
    rw [List.foldl_cons] at hslots
    cases htarget : reloadTarget l e with
    | none =>
      obtain ⟨hnext,hredone⟩ := h.of_no_target (k := k) htarget es
      rw [hredone, ← reloadEntry_calls_of_no_target (k := k) htarget]
      exact ih hnext hrest hslots
    | some ram =>
      have hanswer : s.AnswersSlot k l.s.host.calls (e,ram) := by
        -- no later entry writes the slot
        have hslot := hslots ram e
        rw [reloadEntries_slot_of_not_mem hnot, reloadEntry_of_target htarget, mapWindow_slot,
          if_pos ⟨rfl,rfl⟩] at hslot
        exact h.answer.mpr hslot
      obtain ⟨hnext,hredone,-⟩ := h.of_answer htarget hanswer es
      rw [hredone, loopGuard_cons, ← reloadEntry_calls_of_target h htarget]
      exact ⟨hanswer,ih hnext hrest hslots⟩

lemma refresh_eq (h : isTranslating s.cpu.msr = true) (k : Kernel) (vaddr : Word) :
    refresh k vaddr s =
      ((reloadOrder s.maxBAT).foldl (reloadEntry k) (refreshStart vaddr s)).s := by
  rw [refresh, memMapFixups_of_translating h, reloadStart_of_translating h, memReloadMap_eq]
  rfl

lemma unmoved_start (vaddr : Word) (s : EmuState) : Unmoved s (refreshStart vaddr s) :=
  ⟨rfl,rfl,rfl,rfl⟩

lemma sameView_of_refreshable (h : isTranslating s.cpu.msr = true) (hr : Refreshable k vaddr s) :
    SameView s (refresh k vaddr s) := by
  obtain ⟨hkept,hspace⟩ := reloadEntries_of_answers (unmoved_start vaddr s) hr.answers
  rw [refresh_eq h]
  refine ⟨fun ram e => by rw [hkept.mem],?_⟩
  intro a
  rw [hspace]
  apply (showWindows_same s.host.space _).mpr
  rintro pre ⟨⟨i,isData⟩,ram⟩ post hsplit hholds hpost
  cases isData with
  | true =>
    have hmem : ((i,true),ram) ∈ s.redone vaddr (reloadOrder s.maxBAT) := by
      rw [show s.redone vaddr _ = _ from hsplit]
      simp
    exact absurd hholds (not_holds_data hmem)
  | false => exact (hr.shown pre i ram post hsplit a hholds hpost).symm

lemma refreshable_of_sameView (h : isTranslating s.cpu.msr = true)
    (hsame : SameView s (refresh k vaddr s)) : Refreshable k vaddr s := by
  rw [refresh_eq h] at hsame
  have hanswers := answers_of_slots (unmoved_start vaddr s) (reloadOrder_nodup s.maxBAT) hsame.slot
  refine ⟨hanswers,?_⟩
  intro pre i ram post hsplit a hholds hpost
  have hspace := hsame.space a
  rw [(reloadEntries_of_answers (unmoved_start vaddr s) hanswers).2] at hspace
  exact ((showWindows_same s.host.space _).mp hspace pre _ post hsplit hholds hpost).symm

theorem sameView_iff (h : isTranslating s.cpu.msr = true) :
    SameView s (refresh k vaddr s) ↔ Refreshable k vaddr s :=
  ⟨refreshable_of_sameView h,sameView_of_refreshable h⟩

end

end DolTools
