import DolTools.Mem.InstrSlots

/-! Parts of a pass that map nothing anew. They make no call, keep the slots, and end the pass
at most where a BAT names no RAM. -/
namespace DolTools
open Runs

/-- None of the entries is mapped anew. -/
def Quiet (k : Kernel) (l : ReloadLoop) (es : List BatRef) : Prop :=
  LoopGuard (reloadEntry k) (fun l e => reloadTarget l e = none) l es

section

variable {k : Kernel} {l : ReloadLoop} {e : BatRef} {es : List BatRef} {ram : Ram} {s : EmuState}

lemma quiet_cons : Quiet k l (e::es) ↔ reloadTarget l e = none ∧ Quiet k (reloadEntry k l e) es :=
  loopGuard_cons

/-- An answer that the slot holds already leaves the slots as they are. -/
lemma mapWindow_mem_of_slot {v : Word} {fatal : Bool}
    (h : (s.host.mmap k ram v (s.mem.size ram) (!e.2)).1 = s.mem.slot ram e) :
    (mapWindow k ram e.1 v (!e.2) fatal s).s.mem = s.mem := by
  obtain ⟨i,isData⟩ := e
  have hslot : (if (!isData) = true then s.mem.setMapI ram i (s.mem.slot ram (i,isData))
      else s.mem.setMapD ram i (s.mem.slot ram (i,isData))) = s.mem := by
    cases isData <;> simp [MemState.setMapI, MemState.setMapD, MemState.slot]
  simp only [mapWindow, h]
  split <;> exact hslot

/-- A pass that has returned stays where it is. -/
lemma reloadEntries_of_returned (h : l.returned = true) (es : List BatRef) :
    es.foldl (reloadEntry k) l = l := by
  induction es with
  | nil => rfl
  | cons e es ih =>
    rw [List.foldl_cons, show reloadEntry k l e = l from if_pos h]
    exact ih

lemma reloadEntries_of_zero (h : ∀ e ∈ es, (l.s.batOf e).isZero = true) :
    es.foldl (reloadEntry k) l = l := by
  induction es with
  | nil => rfl
  | cons e es ih =>
    rw [List.foldl_cons, reloadEntry_of_zero (h e List.mem_cons_self)]
    exact ih (fun e' he' => h e' (List.mem_cons_of_mem e he'))

/-- The calls of a part of a pass come before the older ones. -/
lemma reloadEntries_calls (k : Kernel) (es : List BatRef) (l : ReloadLoop) :
    ∃ new, (es.foldl (reloadEntry k) l).s.host.calls = new ++ l.s.host.calls := by
  induction es generalizing l with
  | nil => exact ⟨[],rfl⟩
  | cons e es ih =>
    obtain ⟨new,hnew⟩ := ih (reloadEntry k l e)
    rw [reloadEntry_calls, ← List.append_assoc] at hnew
    exact ⟨_,hnew⟩

lemma reloadEntry_calls_of_no_target (htarget : reloadTarget l e = none) :
    (reloadEntry k l e).s.host.calls = l.s.host.calls := by
  rw [reloadEntry_calls, htarget]
  rfl

/-- Nothing is mapped anew just when no call is made. -/
theorem quiet_iff_calls : Quiet k l es ↔
    (es.foldl (reloadEntry k) l).s.host.calls = l.s.host.calls := by
  induction es generalizing l with
  | nil => exact ⟨fun _ => rfl,fun _ => loopGuard_nil _ _ _⟩
  | cons e es ih =>
    rw [quiet_cons, List.foldl_cons]
    cases htarget : reloadTarget l e with
    | none =>
      rw [ih, reloadEntry_calls_of_no_target htarget]
      exact and_iff_right rfl
    | some ram =>
      obtain ⟨new,hnew⟩ := reloadEntries_calls k es (reloadEntry k l e)
      rw [hnew, reloadEntry_calls, htarget]
      refine ⟨fun h => absurd h.1 (by simp),fun h => ?_⟩
      have hlen := congrArg List.length h
      simp only [Option.map_some, Option.toList_some, List.length_append, List.length_cons] at hlen
      omega

/-- If every BAT that is set names a RAM, nothing is changed. -/
lemma reloadEntries_of_quiet (h : Quiet k l es)
    (hram : ∀ e ∈ es, (l.s.batOf e).isZero = false → l.s.ramOf e ≠ none) :
    (es.foldl (reloadEntry k) l).s = l.s := by
  induction es generalizing l with
  | nil => rfl
  | cons e es ih =>
    obtain ⟨htarget,hquiet⟩ := quiet_cons.mp h
    rcases reloadEntry_cases k l e with ⟨ram,htarget',-⟩ | ⟨-,hs,-⟩ | ⟨-,-,hz,hnone⟩
    · rw [htarget] at htarget'
      contradiction
    · rw [List.foldl_cons, ih hquiet, hs]
      rw [hs]
      exact fun e' he' => hram e' (List.mem_cons_of_mem e he')
    · exact absurd hnone (hram e List.mem_cons_self hz)

/-- An entry writes no slot but its own. -/
lemma reloadEntry_slot_of_ne {e' : BatRef} (hne : e' ≠ e) :
    (reloadEntry k l e).s.mem.slot ram e' = l.s.mem.slot ram e' := by
  cases htarget : reloadTarget l e with
  | none => rw [reloadEntry_keeps_of_no_target htarget]
  | some ram' =>
    obtain ⟨v,hslot,-⟩ := reloadEntry_window (k := k) htarget
    rw [hslot, if_neg (fun heq => hne heq.2)]

lemma reloadEntries_slot_of_not_mem (h : e ∉ es) :
    (es.foldl (reloadEntry k) l).s.mem.slot ram e = l.s.mem.slot ram e := by
  induction es generalizing l with
  | nil => rfl
  | cons e' es ih =>
    obtain ⟨hne,hrest⟩ := List.ne_and_not_mem_of_not_mem_cons h
    rw [List.foldl_cons, ih hrest, reloadEntry_slot_of_ne hne]

end

end DolTools
