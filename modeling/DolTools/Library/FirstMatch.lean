import Mathlib

/-! Searching a strictly increasing list of indices from its front finds the lowest index
that meets the test. A search by a test that may fail is the plain one where it does not. -/
namespace FirstMatch

variable {ι : Type*} [LinearOrder ι]

/-- The lowest index in the domain that meets `p`. -/
structure IsLowest (dom p : ι → Prop) (i : ι) : Prop where
  mem : dom i
  holds : p i
  first : ∀ j, dom j → p j → i ≤ j

variable {dom p q : ι → Prop} {i j : ι}

theorem IsLowest.congr (h : IsLowest dom p i) (hpq : ∀ j, dom j → (p j ↔ q j)) :
    IsLowest dom q i where
  mem := h.mem
  holds := (hpq i h.mem).mp h.holds
  first j hj hq := h.first j hj ((hpq j hj).mpr hq)

theorem IsLowest.of_imp (h : IsLowest dom p i) (hq : q i) (hqp : ∀ j, dom j → q j → p j) :
    IsLowest dom q i where
  mem := h.mem
  holds := hq
  first j hj hqj := h.first j hj (hqp j hj hqj)

/-- A search from the front of a sorted list finds the lowest matching index. -/
theorem find?_eq_some_iff {l : List ι} (hl : l.Pairwise (· < ·)) (b : ι → Bool) :
    l.find? b = some i ↔ IsLowest (· ∈ l) (fun j => b j = true) i := by
  induction l with
  | nil => exact ⟨by simp,fun h => absurd h.mem (by simp)⟩
  | cons a l ih =>
    obtain ⟨ha,hs⟩ := List.pairwise_cons.mp hl
    by_cases hb : b a = true
    · rw [List.find?_cons_of_pos hb]
      constructor
      · rintro h
        obtain rfl := Option.some.inj h
        refine ⟨by simp,hb,?_⟩
        intro j hj _
        rcases List.mem_cons.mp hj with rfl | hj
        · exact le_rfl
        · exact (ha j hj).le
      · intro h
        have hle := h.first a (by simp) hb
        rcases List.mem_cons.mp h.mem with rfl | hm
        · rfl
        · exact absurd (ha i hm) (not_lt.mpr hle)
    · rw [List.find?_cons_of_neg hb, ih hs]
      constructor
      · intro h
        refine ⟨List.mem_cons_of_mem a h.mem,h.holds,?_⟩
        intro j hj hbj
        rcases List.mem_cons.mp hj with rfl | hj
        · contradiction
        · exact h.first j hj hbj
      · intro h
        have hm : i ∈ l := by
          rcases List.mem_cons.mp h.mem with rfl | hm
          · exact absurd h.holds hb
          · exact hm
        exact ⟨hm,h.holds,fun j hj hbj => h.first j (List.mem_cons_of_mem a hj) hbj⟩

theorem exists_isLowest {l : List ι} (hl : l.Pairwise (· < ·)) (b : ι → Bool)
    (h : ∃ i ∈ l, b i = true) : ∃ i, IsLowest (· ∈ l) (fun j => b j = true) i := by
  cases hf : l.find? b with
  | none =>
    obtain ⟨i,hi,hb⟩ := h
    exact absurd hb (List.find?_eq_none.mp hf i hi)
  | some i => exact ⟨i,(find?_eq_some_iff hl b).mp hf⟩

theorem anyM_eq_some {α : Type*} {l : List α} {test : α → Option Bool} {b : α → Bool}
    (h : ∀ x ∈ l, test x = some (b x)) : l.anyM test = some (l.any b) := by
  induction l with
  | nil => rfl
  | cons x l ih =>
    rw [List.anyM_cons, h x (by simp), List.any_cons]
    cases hb : b x with
    | true => rfl
    | false => exact ih (fun y hy => h y (List.mem_cons_of_mem x hy))

theorem anyM_congr {α : Type*} {l : List α} {test test' : α → Option Bool}
    (h : ∀ x ∈ l, test x = test' x) : l.anyM test = l.anyM test' := by
  induction l with
  | nil => rfl
  | cons x l ih =>
    rw [List.anyM_cons, List.anyM_cons, h x (by simp),
      ih (fun y hy => h y (List.mem_cons_of_mem x hy))]

/-- A search that comes to the end has tested everything. -/
theorem anyM_eq_false {α : Type*} {l : List α} {test : α → Option Bool}
    (h : l.anyM test = some false) : ∀ x ∈ l, test x = some false := by
  induction l with
  | nil => exact fun x hx => absurd hx List.not_mem_nil
  | cons x l ih =>
    rw [List.anyM_cons] at h
    cases htest : test x with
    | none => simp [htest] at h
    | some b =>
      cases b with
      | true => simp [htest] at h
      | false =>
        rw [htest] at h
        exact List.forall_mem_cons.mpr ⟨htest,ih h⟩

theorem anyM_append {α : Type*} (l l' : List α) (test : α → Option Bool) :
    (l ++ l').anyM test = (l.anyM test).bind (fun b => if b then some true else l'.anyM test) := by
  induction l with
  | nil => rfl
  | cons x l ih =>
    rw [List.cons_append, List.anyM_cons, List.anyM_cons]
    cases test x with
    | none => rfl
    | some b =>
      cases b with
      | true => rfl
      | false => exact ih

theorem anyM_map {α β : Type*} (l : List α) (f : α → β) (test : β → Option Bool) :
    (l.map f).anyM test = l.anyM (fun x => test (f x)) := by
  induction l with
  | nil => rfl
  | cons x l ih => rw [List.map_cons, List.anyM_cons, List.anyM_cons, ih]

/-- A loop inside a loop, both left at the first match. -/
theorem anyM_flatMap {α β : Type*} (l : List α) (f : α → List β) (test : β → Option Bool) :
    (l.flatMap f).anyM test = l.anyM (fun x => (f x).anyM test) := by
  induction l with
  | nil => rfl
  | cons x l ih =>
    rw [List.flatMap_cons, anyM_append, List.anyM_cons, ih]
    cases (f x).anyM test with
    | none => rfl
    | some b => cases b <;> rfl

end FirstMatch
