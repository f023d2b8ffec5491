import DolTools.Library.BigEndian

/-! Words in memory on machines of either byte order, the conversion between the order of the
machine and big-endian order, and texts of bytes that are overwritten in place. -/
namespace ByteOrder
open BigEndian

inductive Order
  | big
  | little
  deriving DecidableEq, Repr

/-- The word at an address, as the machine loads it. -/
def load (o : Order) (m : Memory) (a : ℕ) : BitVec 32 :=
  match o with
  | .big => word m a
  | .little => m (a+3) ++ m (a+2) ++ m (a+1) ++ m a

/-- The bytes of a word, as the machine stores them. -/
def bytes (o : Order) (v : BitVec 32) : List (BitVec 8) :=
  match o with
  | .big => [v.extractLsb' 24 8, v.extractLsb' 16 8, v.extractLsb' 8 8, v.extractLsb' 0 8]
  | .little => [v.extractLsb' 0 8, v.extractLsb' 8 8, v.extractLsb' 16 8, v.extractLsb' 24 8]

def byteSwap (v : BitVec 32) : BitVec 32 :=
  v.extractLsb' 0 8 ++ v.extractLsb' 8 8 ++ v.extractLsb' 16 8 ++ v.extractLsb' 24 8

/-- Between the order of the machine and big-endian order, in either direction. -/
def swapToBig (o : Order) (v : BitVec 32) : BitVec 32 :=
  match o with
  | .big => v
  | .little => byteSwap v

@[simp] theorem bytes_length (o : Order) (v : BitVec 32) : (bytes o v).length = 4 := by
  cases o <;> rfl

/-- A part above the last byte is a part of what stands before it. -/
lemma extract_before {w start : ℕ} (x : BitVec w) (d : BitVec 8) :
    (x ++ d).extractLsb' (start + 8) 8 = x.extractLsb' start 8 := by
  rw [BitVec.extractLsb'_append_eq_of_le (Nat.le_add_left 8 start), Nat.add_sub_cancel]

lemma extract_join (a b c d : BitVec 8) :
    (a ++ b ++ c ++ d).extractLsb' 24 8 = a ∧ (a ++ b ++ c ++ d).extractLsb' 16 8 = b ∧
      (a ++ b ++ c ++ d).extractLsb' 8 8 = c ∧ (a ++ b ++ c ++ d).extractLsb' 0 8 = d := by
  refine ⟨?_,?_,?_,BitVec.extractLsb'_append_eq_right⟩
  · calc (a ++ b ++ c ++ d).extractLsb' (16 + 8) 8
        = (a ++ b ++ c).extractLsb' (8 + 8) 8 := extract_before _ d
      _ = (a ++ b).extractLsb' 8 8 := extract_before _ c
      _ = a := BitVec.extractLsb'_append_eq_left
  · calc (a ++ b ++ c ++ d).extractLsb' (8 + 8) 8
        = (a ++ b ++ c).extractLsb' (0 + 8) 8 := extract_before _ d
      _ = (a ++ b).extractLsb' 0 8 := extract_before _ c
      _ = b := BitVec.extractLsb'_append_eq_right
  · calc (a ++ b ++ c ++ d).extractLsb' (0 + 8) 8
        = (a ++ b ++ c).extractLsb' 0 8 := extract_before _ d
      _ = c := BitVec.extractLsb'_append_eq_right

theorem byteSwap_join (a b c d : BitVec 8) : byteSwap (a ++ b ++ c ++ d) = d ++ c ++ b ++ a := by
  obtain ⟨ha,hb,hc,hd⟩ := extract_join a b c d
  rw [byteSwap, ha, hb, hc, hd]

theorem word_eq_join (m : Memory) (a : ℕ) :
    word m a = m a ++ m (a+1) ++ m (a+2) ++ m (a+3) := by
  rw [word, half, half]
  exact BitVec.append_assoc'.trans (BitVec.cast_eq _ _)

/-- A loaded word, converted, is the big-endian word whatever the machine. -/
theorem swapToBig_load (o : Order) (m : Memory) (a : ℕ) : swapToBig o (load o m a) = word m a := by
  cases o with
  | big => rfl
  | little => rw [swapToBig, load, byteSwap_join, word_eq_join]

/-- A word converted and then stored lies in memory in big-endian order. -/
theorem bytes_swapToBig (o : Order) (v : BitVec 32) : bytes o (swapToBig o v) = bytes .big v := by
  cases o with
  | big => rfl
  | little =>
    obtain ⟨ha,hb,hc,hd⟩ := extract_join (v.extractLsb' 0 8) (v.extractLsb' 8 8)
      (v.extractLsb' 16 8) (v.extractLsb' 24 8)
    simp only [swapToBig, byteSwap, bytes, ha, hb, hc, hd]

theorem word_of_bytes {m : Memory} {a : ℕ} {v : BitVec 32}
    (h : ∀ i < 4, m (a+i) = (bytes .big v).getD i 0) : word m a = v := by
  have h0 : m a = v.extractLsb' 24 8 := h 0 (by omega)
  have h1 : m (a+1) = v.extractLsb' 16 8 := h 1 (by omega)
  have h2 : m (a+2) = v.extractLsb' 8 8 := h 2 (by omega)
  have h3 : m (a+2+1) = v.extractLsb' 0 8 := h 3 (by omega)
  have hhigh : v.extractLsb' 24 8 ++ v.extractLsb' 16 8 = v.extractLsb' 16 16 :=
    BitVec.extractLsb'_append_extractLsb'_eq_extractLsb' rfl
  have hlow : v.extractLsb' 8 8 ++ v.extractLsb' 0 8 = v.extractLsb' 0 16 :=
    BitVec.extractLsb'_append_extractLsb'_eq_extractLsb' rfl
  rw [word, half, half, h0, h1, h2, h3, hhigh, hlow]
  exact BitVec.extractLsb'_append_extractLsb' (w := 16)

theorem word_congr {m m' : Memory} {a : ℕ} (h : ∀ i < 4, m' (a+i) = m (a+i)) :
    word m' a = word m a := by
  have h0 : m' a = m a := h 0 (by omega)
  have h1 : m' (a+1) = m (a+1) := h 1 (by omega)
  have h2 : m' (a+2) = m (a+2) := h 2 (by omega)
  have h3 : m' (a+2+1) = m (a+2+1) := h 3 (by omega)
  rw [word, half, half, h0, h1, h2, h3, word, half, half]

/-- A text of bytes as a memory from address zero on. -/
def ofList (l : List (BitVec 8)) : Memory := fun i => l.getD i 0

/-- A word is its four bytes. -/
theorem bytes_inj {v w : BitVec 32}
    (h : ∀ i < 4, (bytes .big v).getD i 0 = (bytes .big w).getD i 0) : v = w := by
  have hv : word (ofList (bytes .big v)) 0 = v := by
    apply word_of_bytes
    intro i _
    rw [Nat.zero_add, ofList]
  have hw : word (ofList (bytes .big v)) 0 = w := by
    apply word_of_bytes
    intro i hi
    rw [Nat.zero_add, ofList, h i hi]
  exact hv.symm.trans hw

lemma bytes_word (m : Memory) (a : ℕ) : ∀ i < 4, (bytes .big (word m a)).getD i 0 = m (a+i) := by
  obtain ⟨h0,h1,h2,h3⟩ := extract_join (m a) (m (a+1)) (m (a+2)) (m (a+3))
  rw [word_eq_join, bytes, h0, h1, h2, h3]
  intro i hi
  interval_cases i <;> rfl

lemma bytes_and (v w : BitVec 32) : ∀ i < 4, (bytes .big (v &&& w)).getD i 0 =
    (bytes .big v).getD i 0 &&& (bytes .big w).getD i 0 := by
  intro i hi
  interval_cases i <;> exact BitVec.extractLsb'_and

theorem word_and_eq_iff {m : Memory} {a : ℕ} {mask v : BitVec 32} : word m a &&& mask = v ↔
    ∀ i < 4, m (a+i) &&& (bytes .big mask).getD i 0 = (bytes .big v).getD i 0 := by
  constructor
  · rintro rfl i hi
    rw [bytes_and _ _ i hi, bytes_word m a i hi]
  · intro h
    apply bytes_inj
    intro i hi
    rw [bytes_and _ _ i hi, bytes_word m a i hi]
    exact h i hi

section

variable {α : Type*} {l bs : List α} {a i : ℕ}

/-- The items from position `a` on are replaced. -/
def overwrite (l : List α) (a : ℕ) (bs : List α) : List α :=
  l.take a ++ bs ++ l.drop (a + bs.length)

theorem overwrite_length (h : a + bs.length ≤ l.length) : (overwrite l a bs).length = l.length := by
  simp only [overwrite, List.length_append, List.length_take, List.length_drop]
  omega

theorem overwrite_of_mem (h : a + bs.length ≤ l.length) (hi : i < bs.length) :
    (overwrite l a bs)[a+i]? = bs[i]? := by
  have ha : (l.take a).length = a := by
    rw [List.length_take]
    omega
  rw [overwrite, List.append_assoc, List.getElem?_append_right (by omega), ha,
    Nat.add_sub_cancel_left, List.getElem?_append_left hi]

theorem overwrite_of_not_mem (h : a + bs.length ≤ l.length)
    (hi : ¬ (a ≤ i ∧ i < a + bs.length)) : (overwrite l a bs)[i]? = l[i]? := by
  have ha : (l.take a).length = a := by
    rw [List.length_take]
    omega
  rcases Nat.lt_or_ge i a with hlt | hge
  · rw [overwrite, List.append_assoc, List.getElem?_append_left (by omega),
      List.getElem?_take_of_lt hlt]
  · have hend : (l.take a ++ bs).length ≤ i := by
      rw [List.length_append, ha]
      omega
    rw [overwrite, List.getElem?_append_right hend, List.getElem?_drop, List.length_append, ha]
    congr 1
    omega

end

section

variable {l : List (BitVec 8)} {a b : ℕ} (v : BitVec 32)

/-- Overwriting four bytes stores a word, and leaves the words apart from it. -/
theorem word_overwrite (h : a + 4 ≤ l.length) :
    word (ofList (overwrite l a (bytes .big v))) a = v := by
  apply word_of_bytes
  intro i hi
  rw [ofList, List.getD_eq_getElem?_getD, overwrite_of_mem (by simpa using h) (by simpa using hi),
    List.getD_eq_getElem?_getD]

theorem word_overwrite_of_ne (h : a + 4 ≤ l.length) (hb : a + 4 ≤ b ∨ b + 4 ≤ a) :
    word (ofList (overwrite l a (bytes .big v))) b = word (ofList l) b := by
  apply word_congr
  intro i hi
  rw [ofList, List.getD_eq_getElem?_getD, overwrite_of_not_mem (by simpa using h), ofList,
    List.getD_eq_getElem?_getD]
  rw [bytes_length]
  omega

end

end ByteOrder
