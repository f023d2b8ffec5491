import Mathlib

/-! Reading places one after the other where a place may have nothing to read: the values of all
of them, or nothing. -/
namespace PartialReads

variable {ι α : Type*} {read : ι → Option α} {xs : List ι} {bs : List α}

theorem mapM_eq_some_iff : xs.mapM read = some bs ↔ xs.map read = bs.map some := by
  induction xs generalizing bs with
  | nil => cases bs <;> simp
  | cons x xs ih =>
    rw [List.mapM_cons, List.map_cons]
    cases hx : read x with
    | none => cases bs <;> simp
    | some b =>
      cases hxs : xs.mapM read with
      | none =>
        have hno : ∀ cs : List α, xs.map read ≠ cs.map some := by
          intro cs hcs
          rw [← ih, hxs] at hcs
          contradiction
        cases bs <;> simp [hno]
      | some cs =>
        have hcs : xs.map read = cs.map some := ih.mp hxs
        rw [hcs, ← List.map_cons,
          (List.map_injective_iff.mpr (Option.some_injective α)).eq_iff]
        exact Option.some_inj

theorem mapM_congr {read' : ι → Option α} (h : ∀ x ∈ xs, read x = read' x) :
    xs.mapM read = xs.mapM read' := by
  apply Option.ext
  intro bs
  rw [mapM_eq_some_iff, mapM_eq_some_iff, List.map_congr_left h]

theorem mapM_isSome_iff : (xs.mapM read).isSome = true ↔ ∀ x ∈ xs, (read x).isSome = true := by
  rw [Option.isSome_iff_exists]
  constructor
  · rintro ⟨bs,hbs⟩ x hx
    have hmem : read x ∈ bs.map some := by
      rw [← mapM_eq_some_iff.mp hbs]
      exact List.mem_map_of_mem hx
    obtain ⟨b,-,hb⟩ := List.mem_map.mp hmem
    rw [← hb]
    rfl
  · intro hall
    induction xs with
    | nil => exact ⟨[],rfl⟩
    | cons x xs ih =>
      obtain ⟨b,hb⟩ := Option.isSome_iff_exists.mp (hall x List.mem_cons_self)
      obtain ⟨bs,hbs⟩ := ih (fun y hy => hall y (List.mem_cons_of_mem x hy))
      refine ⟨b::bs,?_⟩
      rw [mapM_eq_some_iff] at hbs ⊢
      rw [List.map_cons, List.map_cons, hb, hbs]

theorem mapM_eq_none_iff : xs.mapM read = none ↔ ∃ x ∈ xs, read x = none := by
  rw [← Option.not_isSome_iff_eq_none, mapM_isSome_iff]
  simp

/-- A range of places: as many values, each the one of its place. -/
theorem mapM_range_eq_some_iff {read : ℕ → Option α} {n : ℕ} :
    (List.range n).mapM read = some bs ↔ bs.length = n ∧ ∀ i < n, read i = bs[i]? := by
  rw [mapM_eq_some_iff]
  constructor
  · intro h
    have hlen : bs.length = n := by simpa using (congrArg List.length h).symm
    refine ⟨hlen,?_⟩
    intro i hi
    have hget := congrArg (fun l => l[i]?) h
    simp only [List.getElem?_map, List.getElem?_range hi, Option.map_some] at hget
    rw [List.getElem?_eq_getElem (hlen ▸ hi)] at hget ⊢
    exact Option.some.inj hget
  · rintro ⟨rfl,h⟩
    apply List.ext_getElem
    · simp
    · intro i hi _
      have hi' : i < bs.length := by simpa using hi
      rw [List.getElem_map, List.getElem_map, List.getElem_range, h i hi',
        List.getElem?_eq_getElem hi']

end PartialReads
