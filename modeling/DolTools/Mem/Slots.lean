import DolTools.Mem.Fixups

/-! The slots that remember the mappings, one for each RAM and BAT, and what the two loops
that unmap everything do: whatever lies in a remembered window goes, and the slots are marked
empty. -/
namespace DolTools

/-- The slot of a RAM and a BAT. -/
def MemState.slot (m : MemState) (ram : Ram) (e : BatRef) : Word :=
  if e.2 then m.mapD ram e.1 else m.mapI ram e.1

/-- The slot holds a window with the address. -/
def EmuState.InSlot (s : EmuState) (ram : Ram) (e : BatRef) (a : ℕ) : Prop :=
  s.mem.slot ram e ≠ mapFailed ∧ (s.mem.slot ram e).toNat ≤ a ∧
    a < (s.mem.slot ram e).toNat + (s.mem.size ram).toNat

/-- Every mapped byte lies in a window that one of the first `maxBAT` slots remembers. -/
def EmuState.Remembered (s : EmuState) : Prop :=
  ∀ a x, s.host.space a = some x → ∃ ram e, s.HasBat e.1 ∧ s.InSlot ram e a

namespace MemState

variable (m : MemState) (ram ram' : Ram) (i : Fin 8) (e : BatRef) (v : Word)

lemma slot_setMapI : (m.setMapI ram i v).slot ram' e =
    if ram' = ram ∧ e = (i,false) then v else m.slot ram' e := by
  obtain ⟨j,isData⟩ := e
  cases isData with
  | true => simp [slot, setMapI]
  | false =>
    by_cases hr : ram' = ram
    · subst hr
      simp [slot, setMapI, Function.update_apply]
    · simp [slot, setMapI, hr]

lemma slot_setMapD : (m.setMapD ram i v).slot ram' e =
    if ram' = ram ∧ e = (i,true) then v else m.slot ram' e := by
  obtain ⟨j,isData⟩ := e
  cases isData with
  | false => simp [slot, setMapD]
  | true =>
    by_cases hr : ram' = ram
    · subst hr
      simp [slot, setMapD, Function.update_apply]
    · simp [slot, setMapD, hr]

end MemState

section

variable {s : EmuState} {ram : Ram} {i : Fin 8} {e : BatRef} {a : ℕ} {x : Backing}

lemma munmapSlot_eq_some {addr size : Word} {h : Host} :
    (munmapSlot addr size h).space a = some x ↔ h.space a = some x ∧
      ¬ (addr ≠ mapFailed ∧ addr.toNat ≤ a ∧ a < addr.toNat + size.toNat) := by
  unfold munmapSlot
  split
  · rename_i hne
    rw [Host.munmap, AddressMap.unmapRange_eq_some]
    simp [hne]
  · rename_i heq
    simp [not_not.mp heq]

/-- One iteration unmaps the four windows of its index. -/
lemma unmapBat_space (h : (unmapBat s i).host.space a = some x) :
    s.host.space a = some x ∧ ∀ ram isData, ¬ s.InSlot ram (i,isData) a := by
  simp only [unmapBat, munmapSlot_eq_some] at h
  obtain ⟨⟨⟨⟨hx,hi1⟩,hd1⟩,hi2⟩,hd2⟩ := h
  refine ⟨hx,?_⟩
  intro ram isData
  cases ram with
  | mem1 =>
    cases isData with
    | false => exact hi1
    | true => exact hd1
  | mem2 =>
    cases isData with
    | false => exact hi2
    | true => exact hd2

lemma unmapBat_slot (ram : Ram) (e : BatRef) :
    (unmapBat s i).mem.slot ram e = if e.1 = i then mapFailed else s.mem.slot ram e := by
  obtain ⟨j,isData⟩ := e
  by_cases hj : j = i
  · subst hj
    cases ram <;> cases isData <;>
      simp [unmapBat, MemState.slot, MemState.setMapI, MemState.setMapD]
  · cases ram <;> cases isData <;>
      simp [unmapBat, MemState.slot, MemState.setMapI, MemState.setMapD, hj]

lemma unmapBat_inSlot (hne : e.1 ≠ i) :
    (unmapBat s i).InSlot ram e a ↔ s.InSlot ram e a := by
  rw [EmuState.InSlot, EmuState.InSlot, unmapBat_slot, if_neg hne]
  rfl

lemma unmapBats_space {is : List (Fin 8)} (hnd : is.Nodup)
    (h : (is.foldl unmapBat s).host.space a = some x) :
    s.host.space a = some x ∧ ∀ ram e, e.1 ∈ is → ¬ s.InSlot ram e a := by
  induction is generalizing s with
  | nil => exact ⟨h,fun _ _ he => absurd he List.not_mem_nil⟩
  | cons i is ih =>
    obtain ⟨hi,hnd⟩ := List.nodup_cons.mp hnd
    obtain ⟨hx,htail⟩ := ih hnd h
    obtain ⟨hx,hhead⟩ := unmapBat_space hx
    refine ⟨hx,?_⟩
    rintro ram ⟨j,isData⟩ hj
    rcases List.mem_cons.mp hj with rfl | hj
    · exact hhead ram isData
    · have hne : j ≠ i := fun heq => hi (heq ▸ hj)
      rw [← unmapBat_inSlot (i := i) (e := (j,isData)) hne]
      exact htail ram (j,isData) hj

lemma unmapBats_slot (is : List (Fin 8)) : (is.foldl unmapBat s).mem.slot ram e =
    if e.1 ∈ is then mapFailed else s.mem.slot ram e := by
  induction is generalizing s with
  | nil => rfl
  | cons i is ih =>
    rw [List.foldl_cons, ih, unmapBat_slot]
    by_cases hi : e.1 = i <;> simp [hi]

/-- If every mapped byte is remembered, unmapping everything leaves nothing mapped. -/
theorem unmapAll_space (h : s.Remembered) : (unmapAll s).host.space = AddressMap.empty := by
  funext a
  cases hx : (unmapAll s).host.space a with
  | none => rfl
  | some x =>
    obtain ⟨hmapped,hno⟩ := unmapBats_space (batIndices_nodup s.maxBAT) hx
    obtain ⟨ram,e,he,hin⟩ := h a x hmapped
    exact absurd hin (hno ram e he)

theorem unmapAll_slot (he : s.HasBat e.1) : (unmapAll s).mem.slot ram e = mapFailed := by
  rw [unmapAll, unmapBats_slot]
  exact if_pos he

/-- Mapping a window writes its slot and no other. -/
theorem mapWindow_slot {k : Kernel} {v : Word} {fatal : Bool} (ram' : Ram) (e' : BatRef) :
    (mapWindow k ram e.1 v (!e.2) fatal s).s.mem.slot ram' e' =
      if ram' = ram ∧ e' = e then (s.host.mmap k ram v (s.mem.size ram) (!e.2)).1
      else s.mem.slot ram' e' := by
  obtain ⟨i,isData⟩ := e
  cases isData with
  | false =>
    simp only [mapWindow]
    split <;> exact MemState.slot_setMapI _ _ _ _ _ _
  | true =>
    simp only [mapWindow]
    split <;> exact MemState.slot_setMapD _ _ _ _ _ _

/-- Mapping a RAM at its physical address writes the two slots of the first BAT. -/
theorem mapPhys_slot {k : Kernel} (ram' : Ram) (e : BatRef) :
    (mapPhys k ram s).mem.slot ram' e =
      if ram' = ram ∧ e.1 = 0 then (s.host.mmap k ram (ramPaddr ram) (s.mem.size ram) true).1
      else s.mem.slot ram' e := by
  have hslot : (mapPhys k ram s).mem = (s.mem.setMapI ram 0
      (s.host.mmap k ram (ramPaddr ram) (s.mem.size ram) true).1).setMapD ram 0
        (s.host.mmap k ram (ramPaddr ram) (s.mem.size ram) true).1 := by
    simp only [mapPhys]
    split <;> rfl
  rw [hslot, MemState.slot_setMapD, MemState.slot_setMapI]
  obtain ⟨j,isData⟩ := e
  cases isData <;> simp

end

end DolTools
