import Mathlib

/-! Partial maps from byte addresses to the things the bytes show, with the two operations
of an address space: mapping a range onto consecutive items, which replaces whatever the
range showed before, and unmapping a range. -/

/-- What each address shows, if anything. -/
def AddressMap (κ : Type*) := ℕ → Option κ

namespace AddressMap

variable {κ : Type*}

def empty : AddressMap κ := fun _ => none

/-- Map `len` bytes from `base` on, the byte at distance `o` showing `item o`. -/
def mapRange (m : AddressMap κ) (base len : ℕ) (item : ℕ → κ) : AddressMap κ :=
  fun a => if base ≤ a ∧ a < base + len then some (item (a - base)) else m a

def unmapRange (m : AddressMap κ) (base len : ℕ) : AddressMap κ :=
  fun a => if base ≤ a ∧ a < base + len then none else m a

/-- The whole window of `len` bytes from `base` on is mapped, and each byte shows something
that meets `P` at its distance from the base. -/
def Shows (m : AddressMap κ) (base len : ℕ) (P : ℕ → κ → Prop) : Prop :=
  ∀ o < len, ∃ x, m (base + o) = some x ∧ P o x

def Apart (base len base' len' : ℕ) : Prop := base + len ≤ base' ∨ base' + len' ≤ base

instance (base len base' len' : ℕ) : Decidable (Apart base len base' len') :=
  inferInstanceAs (Decidable (_ ∨ _))

theorem mapRange_of_mem (m : AddressMap κ) {base len a : ℕ} (item : ℕ → κ)
    (h : base ≤ a ∧ a < base + len) : mapRange m base len item a = some (item (a - base)) :=
  if_pos h

theorem mapRange_of_not_mem (m : AddressMap κ) {base len a : ℕ} (item : ℕ → κ)
    (h : ¬ (base ≤ a ∧ a < base + len)) : mapRange m base len item a = m a := if_neg h

theorem mapRange_eq_some {m : AddressMap κ} {base len a : ℕ} {item : ℕ → κ} {x : κ}
    (h : mapRange m base len item a = some x) :
    ((base ≤ a ∧ a < base + len) ∧ item (a - base) = x) ∨ m a = some x := by
  by_cases hin : base ≤ a ∧ a < base + len
  · rw [mapRange_of_mem m item hin] at h
    exact .inl ⟨hin,Option.some.inj h⟩
  · rw [mapRange_of_not_mem m item hin] at h
    exact .inr h

theorem unmapRange_eq_some {m : AddressMap κ} {base len a : ℕ} {x : κ} :
    unmapRange m base len a = some x ↔ m a = some x ∧ ¬ (base ≤ a ∧ a < base + len) := by
  unfold unmapRange
  split <;> simp_all

@[simp] theorem mapRange_add (m : AddressMap κ) (base len o : ℕ) (item : ℕ → κ) (h : o < len) :
    mapRange m base len item (base + o) = some (item o) := by
  rw [mapRange_of_mem m item ⟨by omega,by omega⟩, Nat.add_sub_cancel_left]

theorem shows_mapRange (m : AddressMap κ) (base len : ℕ) (item : ℕ → κ) {P : ℕ → κ → Prop}
    (hP : ∀ o < len, P o (item o)) : (mapRange m base len item).Shows base len P :=
  fun o ho => ⟨item o,mapRange_add m base len o item ho,hP o ho⟩

theorem Shows.mapRange_apart {m : AddressMap κ} {base len base' len' : ℕ} {item : ℕ → κ}
    {P : ℕ → κ → Prop} (h : m.Shows base len P) (hd : Apart base len base' len') :
    (mapRange m base' len' item).Shows base len P := by
  intro o ho
  obtain ⟨x,hx,hp⟩ := h o ho
  refine ⟨x,?_,hp⟩
  rw [mapRange_of_not_mem m item ?_, hx]
  rintro ⟨hl,hr⟩
  rcases hd with hd | hd <;> omega

end AddressMap
