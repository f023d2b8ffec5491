import DolTools.Mem.MapStep

/-! One pass of `E_MemReloadMap` as a loop over single BATs. An entry is empty, or names no
RAM and ends the pass, or is taken to be mapped already, or has its window mapped anew; no
step touches the registers. -/
namespace DolTools

/-- A BAT: its index, and whether it is a data BAT. -/
abbrev BatRef := Fin 8 × Bool

def reloadOrder (maxBAT : Fin 9) : List BatRef :=
  (batIndices maxBAT).flatMap (fun i => [(i,false),(i,true)])

lemma mem_reloadOrder {maxBAT : Fin 9} {e : BatRef} :
    e ∈ reloadOrder maxBAT ↔ e.1 ∈ batIndices maxBAT := by
  obtain ⟨i,isData⟩ := e
  cases isData <;> simp [reloadOrder]

lemma reloadOrder_nodup (maxBAT : Fin 9) : (reloadOrder maxBAT).Nodup := by
  rw [reloadOrder, List.nodup_flatMap]
  refine ⟨fun i _ => by simp,(batIndices_nodup maxBAT).imp ?_⟩
  intro i j hij e hi hj
  simp only [List.mem_cons, List.not_mem_nil, or_false] at hi hj
  rcases hi with rfl | rfl <;> rcases hj with h | h <;> simp_all

theorem reloadOrder_sorted (maxBAT : Fin 9) :
    (reloadOrder maxBAT).Pairwise (fun a b => a.1 ≤ b.1) := by
  rw [reloadOrder, List.pairwise_flatMap]
  constructor
  · intro i _
    simp
  · apply (batIndices_sorted maxBAT).imp
    intro i j hij a ha b hb
    have ha' : a.1 = i := by rcases List.mem_pair.mp ha with rfl | rfl <;> rfl
    have hb' : b.1 = j := by rcases List.mem_pair.mp hb with rfl | rfl <;> rfl
    rw [ha', hb']
    exact hij.le

/-- The console case of the loop; without one every entry is fatal. -/
def ConsoleType.reloadPath : ConsoleType → ReloadPath
  | .gamecube => gcnPath
  | .wii => wiiPath
  | .other => ⟨fun _ => none,fun _ => true⟩

namespace EmuState

def batOf (s : EmuState) (e : BatRef) : Bat := s.bat e.2 e.1

def ramOf (s : EmuState) (e : BatRef) : Option Ram :=
  s.consoleType.reloadPath.ramOf (s.batOf e).bprn

def windowFatal (s : EmuState) (e : BatRef) : Bool :=
  if e.2 then decide ((s.batOf e).bepi < maxAllowedVaddr)
  else s.consoleType.reloadPath.ibatFatal (s.batOf e).bepi

end EmuState

def alreadyMapped (l : ReloadLoop) (e : BatRef) (ram : Ram) : Bool :=
  if e.2 then slotD l.s ram (l.s.batOf e).bepi else slotI l.s ram l.vaddr

/-- The RAM whose window the entry maps anew, if it does. -/
def reloadTarget (l : ReloadLoop) (e : BatRef) : Option Ram :=
  if l.returned || (l.s.batOf e).isZero then none
  else (l.s.ramOf e).filter (fun ram => !alreadyMapped l e ram)

/-- The half of an iteration that belongs to one entry. -/
def reloadEntry (k : Kernel) (l : ReloadLoop) (e : BatRef) : ReloadLoop :=
  if l.returned then l
  else if e.2 then reloadDbat k l.s.consoleType.reloadPath e.1 l
  else reloadIbat k l.s.consoleType.reloadPath e.1 l

lemma reloadTarget_eq_some {l : ReloadLoop} {e : BatRef} {ram : Ram} :
    reloadTarget l e = some ram ↔ l.returned = false ∧ (l.s.batOf e).isZero = false ∧
      l.s.ramOf e = some ram ∧ alreadyMapped l e ram = false := by
  unfold reloadTarget
  cases l.returned <;> cases (l.s.batOf e).isZero <;> simp [Option.filter_eq_some_iff]

lemma no_target_of_alreadyMapped {l : ReloadLoop} {e : BatRef} {ram : Ram}
    (h : alreadyMapped l e ram = true) : reloadTarget l e ≠ some ram := by
  intro htarget
  obtain ⟨-,-,-,hno⟩ := reloadTarget_eq_some.mp htarget
  exact absurd (h.symm.trans hno) (by decide)

namespace MapStep

variable {s t : EmuState}

theorem bat (h : MapStep s t) (isData : Bool) (i : Fin 8) : t.bat isData i = s.bat isData i := by
  simp only [EmuState.bat, h.cpu]

theorem batOf (h : MapStep s t) (e : BatRef) : t.batOf e = s.batOf e := h.bat e.2 e.1

theorem ramOf (h : MapStep s t) (e : BatRef) : t.ramOf e = s.ramOf e := by
  simp only [EmuState.ramOf, h.batOf, h.consoleType]

end MapStep

/-- An entry that is set up but names no RAM of the console ends the pass. -/
theorem reloadEntry_of_no_ram {k : Kernel} {l : ReloadLoop} {e : BatRef}
    (hret : l.returned = false) (hz : (l.s.batOf e).isZero = false)
    (hram : l.s.ramOf e = none) : reloadEntry k l e = l.fail := by
  obtain ⟨i,isData⟩ := e
  simp only [EmuState.ramOf, EmuState.batOf] at hram hz
  cases isData <;> simp [reloadEntry, reloadIbat, reloadDbat, hret, hz, hram]

section

variable (k : Kernel) (l : ReloadLoop) (e : BatRef)

/-- What one entry does to a pass: its window is mapped anew, or the pass goes on in the same
state, or the entry ends the pass. -/
theorem reloadEntry_cases :
    (∃ ram, reloadTarget l e = some ram ∧ reloadEntry k l e =
      mapWindow k ram e.1 (l.s.batOf e).bepi (!e.2) (l.s.windowFatal e) l.s) ∨
    (reloadTarget l e = none ∧ (reloadEntry k l e).s = l.s ∧
      (reloadEntry k l e).returned = l.returned) ∨
    (reloadTarget l e = none ∧ reloadEntry k l e = l.fail ∧
      (l.s.batOf e).isZero = false ∧ l.s.ramOf e = none) := by
  cases hret : l.returned with
  | true => exact .inr (.inl (by simp [reloadTarget, reloadEntry, hret]))
  | false =>
    cases hz : (l.s.batOf e).isZero with
    | true =>
      have hsame : reloadEntry k l e = l := by
        obtain ⟨i,isData⟩ := e
        cases isData <;> exact (if_neg (by simp [hret])).trans (if_pos hz)
      exact .inr (.inl ⟨by simp [reloadTarget, hz],by rw [hsame],by rw [hsame, hret]⟩)
    | false =>
      cases hram : l.s.ramOf e with
      | none =>
        exact .inr (.inr ⟨by simp [reloadTarget, hram],reloadEntry_of_no_ram hret hz hram,rfl,rfl⟩)
      | some ram =>
        cases hmap : alreadyMapped l e ram with
        | true =>
          refine .inr (.inl ⟨by simp [reloadTarget, hram, hmap],?_⟩)
          obtain ⟨i,isData⟩ := e
          simp only [EmuState.ramOf, EmuState.batOf, alreadyMapped] at hram hz hmap
          cases isData <;> simp_all [reloadEntry, reloadIbat, reloadDbat]
        | false =>
          refine .inl ⟨ram,by simp [reloadTarget, hret, hz, hram, hmap],?_⟩
          obtain ⟨i,isData⟩ := e
          simp only [EmuState.ramOf, EmuState.batOf, alreadyMapped] at hram hz hmap
          cases isData with
          | false => simp_all [reloadEntry, reloadIbat, EmuState.batOf, EmuState.windowFatal]
          | true =>
            simp_all [reloadEntry, reloadDbat, EmuState.batOf, EmuState.windowFatal]
            rfl

end

section

variable {k : Kernel} {l : ReloadLoop} {e : BatRef} {ram : Ram}

theorem reloadEntry_of_target (h : reloadTarget l e = some ram) : reloadEntry k l e =
    mapWindow k ram e.1 (l.s.batOf e).bepi (!e.2) (l.s.windowFatal e) l.s := by
  rcases reloadEntry_cases k l e with ⟨ram',h',heq⟩ | ⟨h',-⟩ | ⟨h',-⟩
  · obtain rfl := Option.some.inj (h.symm.trans h')
    exact heq
  · rw [h] at h'
    contradiction
  · rw [h] at h'
    contradiction

theorem reloadEntry_space_of_no_target (h : reloadTarget l e = none) :
    (reloadEntry k l e).s.host.space = l.s.host.space := by
  rcases reloadEntry_cases k l e with ⟨ram,h',-⟩ | ⟨-,heq,-⟩ | ⟨-,heq,-⟩
  · rw [h] at h'
    contradiction
  · rw [heq]
  · rw [heq]
    rfl

theorem reloadEntry_mapStep : MapStep l.s (reloadEntry k l e).s := by
  rcases reloadEntry_cases k l e with ⟨ram,-,heq⟩ | ⟨-,heq,-⟩ | ⟨-,heq,-⟩
  · rw [heq]
    exact mapWindow_mapStep
  · rw [heq]
    exact .refl _
  · rw [heq]
    exact (MapStep.refl l.s).raise

/-- A pass returns early only with a fatal error. -/
theorem reloadEntry_returned (h : l.returned = true → l.s.fatalError = true)
    (hr : (reloadEntry k l e).returned = true) : (reloadEntry k l e).s.fatalError = true := by
  rcases reloadEntry_cases k l e with ⟨ram,-,heq⟩ | ⟨-,heq,hret⟩ | ⟨-,heq,-⟩
  · rw [heq] at hr ⊢
    exact mapWindow_returned hr
  · rw [heq]
    exact h (hret ▸ hr)
  · rw [heq]
    rfl

theorem windowFatal_of_lt {s : EmuState} (h : (s.batOf e).bepi < maxAllowedVaddr) :
    s.windowFatal e = true := by
  unfold EmuState.windowFatal
  split
  · exact decide_eq_true h
  · cases hc : s.consoleType with
    | gamecube => rfl
    | wii => exact decide_eq_true h
    | other => rfl

lemma reloadEntry_keeps_of_no_target (h : reloadTarget l e = none) :
    (reloadEntry k l e).s.mem = l.s.mem := by
  rcases reloadEntry_cases k l e with ⟨ram,htarget,-⟩ | ⟨-,heq,-⟩ | ⟨-,heq,-⟩
  · rw [h] at htarget
    contradiction
  · rw [heq]
  · rw [heq]
    rfl

/-- What an entry that names a RAM does to a pass that has not returned. -/
lemma reloadEntry_of_ram (hret : l.returned = false)
    (hz : (l.s.batOf e).isZero = false) (hram : l.s.ramOf e = some ram) :
    reloadEntry k l e = if alreadyMapped l e ram then
      { l with vaddr := if e.2 then (l.s.batOf e).bepi else l.vaddr }
    else mapWindow k ram e.1 (l.s.batOf e).bepi (!e.2) (l.s.windowFatal e) l.s := by
  cases hmap : alreadyMapped l e ram with
  | false =>
    rw [if_neg (by decide)]
    exact reloadEntry_of_target (reloadTarget_eq_some.mpr ⟨hret,hz,hram,hmap⟩)
  | true =>
    rw [if_pos rfl]
    obtain ⟨i,isData⟩ := e
    obtain ⟨t,vaddr,returned⟩ := l
    simp only [EmuState.ramOf, EmuState.batOf, alreadyMapped] at hram hz hmap
    cases isData <;> simp_all [reloadEntry, reloadIbat, reloadDbat, EmuState.batOf]

/-- In a pass that goes on, a window below the limit is replaced by the RAM. -/
theorem reloadEntry_space (h : reloadTarget l e = some ram)
    (hlt : (l.s.batOf e).bepi < maxAllowedVaddr)
    (hok : (reloadEntry k l e).s.fatalError = false) :
    (reloadEntry k l e).s.host.space = l.s.host.space.mapRange (l.s.batOf e).bepi.toNat
      (l.s.mem.size ram).toNat (fun o => ⟨ram,o,!e.2⟩) := by
  rw [reloadEntry_of_target h] at hok ⊢
  exact mapWindow_succeeds (windowFatal_of_lt hlt) hok

end

lemma reloadEntry_of_zero {k : Kernel} {l : ReloadLoop} {e : BatRef}
    (hz : (l.s.batOf e).isZero = true) : reloadEntry k l e = l := by
  obtain ⟨i,isData⟩ := e
  cases hret : l.returned with
  | true => exact if_pos hret
  | false => cases isData <;> exact (if_neg (by simp [hret])).trans (if_pos hz)

lemma reloadBoth_eq {k : Kernel} {l : ReloadLoop} (i : Fin 8) (hret : l.returned = false) :
    reloadBoth k l.s.consoleType.reloadPath i l =
      reloadEntry k (reloadEntry k l (i,false)) (i,true) := by
  have hi : reloadEntry k l (i,false) = reloadIbat k l.s.consoleType.reloadPath i l := by
    simp [reloadEntry, hret]
  have hc := (reloadEntry_mapStep (k := k) (l := l) (e := (i,false))).consoleType
  rw [hi] at hc
  rw [reloadBoth, hi]
  simp only [reloadEntry, hc, if_true]

lemma reloadBoth_other {k : Kernel} {l : ReloadLoop} {i : Fin 8} (hret : l.returned = false)
    (hz : ¬ ((l.s.bat false i).isZero && (l.s.bat true i).isZero) = true) :
    reloadBoth k ConsoleType.other.reloadPath i l = l.fail := by
  cases hi : (l.s.bat false i).isZero with
  | false =>
    have hfail : reloadIbat k ConsoleType.other.reloadPath i l = l.fail := if_neg (by simp [hi])
    rw [reloadBoth, hfail]
    rfl
  | true =>
    have hd : (l.s.bat true i).isZero = false := by simpa [hi] using hz
    have hskip : reloadIbat k ConsoleType.other.reloadPath i l = l := if_pos hi
    rw [reloadBoth, hskip]
    exact (if_neg (by simp [hret])).trans (if_neg (by simp [hd]))

/-- An iteration of the source is its two entries, one after the other. -/
theorem reloadBat_eq (k : Kernel) (l : ReloadLoop) (i : Fin 8) :
    reloadBat k l i = reloadEntry k (reloadEntry k l (i,false)) (i,true) := by
  cases hret : l.returned with
  | true => simp [reloadBat, reloadEntry, hret]
  | false =>
    by_cases hz : ((l.s.bat false i).isZero && (l.s.bat true i).isZero) = true
    · obtain ⟨hi,hd⟩ := (Bool.and_eq_true _ _).mp hz
      rw [reloadEntry_of_zero (e := (i,false)) hi, reloadEntry_of_zero (e := (i,true)) hd]
      simp [reloadBat, hi, hd]
    · have hboth := reloadBoth_eq (k := k) i hret
      rw [reloadBat, if_neg (by simp [hret]), if_neg hz, ← hboth]
      cases hc : l.s.consoleType with
      | gamecube => rfl
      | wii => rfl
      | other => exact (reloadBoth_other hret hz).symm

theorem memReloadMap_eq (k : Kernel) (vaddr : Word) (s : EmuState) : memReloadMap k vaddr s =
    ((reloadOrder s.maxBAT).foldl (reloadEntry k) ⟨s,vaddr,false⟩).s := by
  rw [memReloadMap, reloadOrder, List.foldl_flatMap]
  congr 2
  funext l i
  exact reloadBat_eq k l i

end DolTools
