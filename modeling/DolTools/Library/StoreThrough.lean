import DolTools.Library.AddressMap
import DolTools.Library.LastWrite

/-! Stores through an address map, which may show a cell at several addresses and nothing at
others. They succeed if every address is mapped, and every cell then holds what was stored last
to any of its addresses. -/
namespace StoreThrough
open LastWrite

variable {ι β : Type*} [DecidableEq ι] (cell : AddressMap ι)

/-- A store at an address; `none` is a fault. -/
def store (mem : ι → β) (w : ℕ × β) : Option (ι → β) :=
  (cell w.1).map (fun x => Function.update mem x w.2)

def stores (mem : ι → β) (ws : List (ℕ × β)) : Option (ι → β) := ws.foldlM (store cell) mem

/-- The store where the address is mapped, and nothing where it is not. -/
def put (mem : ι → β) (w : ℕ × β) : ι → β :=
  (cell w.1).elim mem (fun x => Function.update mem x w.2)

variable {cell} {mem mem' : ι → β} {ws ws' : List (ℕ × β)} {x : ι}

theorem stores_append : stores cell mem (ws ++ ws') =
    (stores cell mem ws).bind (fun mem => stores cell mem ws') := List.foldlM_append

lemma store_of_some {w : ℕ × β} (h : cell w.1 = some x) :
    store cell mem w = some (put cell mem w) := by
  rw [store, put, h]
  rfl

theorem stores_eq_some : stores cell mem ws = some mem' ↔
    (∀ w ∈ ws, ∃ x, cell w.1 = some x) ∧ mem' = ws.foldl (put cell) mem := by
  induction ws generalizing mem with
  | nil =>
    rw [stores, List.foldlM_nil]
    change some mem = some mem' ↔ _
    simp [eq_comm]
  | cons w ws ih =>
    rw [stores, List.foldlM_cons, List.forall_mem_cons, List.foldl_cons]
    cases hw : cell w.1 with
    | none =>
      refine iff_of_false ?_ (fun h => by simpa using h.1.1)
      simp [store, hw]
    | some x =>
      rw [store_of_some hw]
      change stores cell (put cell mem w) ws = some mem' ↔ _
      rw [ih]
      simp

lemma stores_isSome : (stores cell mem ws).isSome = true ↔ ∀ w ∈ ws, ∃ x, cell w.1 = some x := by
  rw [Option.isSome_iff_exists]
  simp only [stores_eq_some, exists_and_left, exists_eq, and_true]

lemma put_of_ne {w : ℕ × β} (h : cell w.1 ≠ some x) : put cell mem w x = mem x := by
  rw [put]
  cases hw : cell w.1 with
  | none => rfl
  | some y =>
    apply Function.update_of_ne
    rintro rfl
    exact h hw

lemma put_of_eq {w : ℕ × β} (h : cell w.1 = some x) : put cell mem w x = w.2 := by
  rw [put, h]
  exact Function.update_self ..

/-- A cell that no store goes to keeps its value. -/
theorem stores_frame (h : stores cell mem ws = some mem')
    (hws : ∀ w ∈ ws, cell w.1 ≠ some x) : mem' x = mem x := by
  obtain ⟨-,rfl⟩ := stores_eq_some.mp h
  exact foldl_frame (fun _ : ι → β => True) (fun mem : ι → β => mem x)
    (fun w : ℕ × β => cell w.1 = some x) (fun _ _ _ => trivial)
    (fun _ _ _ hne => put_of_ne hne) trivial hws

/-- Of the stores to a cell, at whatever addresses, the last counts. -/
theorem stores_last {pre post : List (ℕ × β)} {w : ℕ × β}
    (h : stores cell mem (pre ++ w::post) = some mem') (hw : cell w.1 = some x)
    (hpost : ∀ w ∈ post, cell w.1 ≠ some x) : mem' x = w.2 := by
  obtain ⟨-,rfl⟩ := stores_eq_some.mp h
  exact foldl_last (fun _ : ι → β => True) (fun mem : ι → β => mem x)
    (fun w : ℕ × β => cell w.1 = some x) (fun _ w => w.2) (fun _ _ _ => trivial)
    (fun _ _ _ hne => put_of_ne hne) (fun _ _ _ heq => put_of_eq heq) trivial hw hpost

end StoreThrough
