import Mathlib

/-! The number parsers of the C library, on texts without a terminator: blanks, a sign, for base
16 a prefix, and the longest run of digits. Printing in base 16 goes the other way. -/
namespace CText

/-- `isspace` in the C locale -/
def isSpace (c : Char) : Bool := c ∈ [' ', '\t', '\n', '\x0b', '\x0c', '\r']

/-- What a character counts for in a number, in bases up to 36. -/
def digitVal (c : Char) : Option ℕ :=
  if '0' ≤ c ∧ c ≤ '9' then some (c.toNat - '0'.toNat)
  else if 'a' ≤ c ∧ c ≤ 'z' then some (c.toNat - 'a'.toNat + 10)
  else if 'A' ≤ c ∧ c ≤ 'Z' then some (c.toNat - 'A'.toNat + 10)
  else none

def isDigit (base : ℕ) (c : Char) : Bool := (digitVal c).any (fun d => d < base)

/-- The number that a run of digits denotes. -/
def ofDigits (base : ℕ) (ds : List Char) : ℕ :=
  ds.foldl (fun n c => base*n + (digitVal c).getD 0) 0

def splitSign : List Char → Bool × List Char
  | '-'::t => (true,t)
  | '+'::t => (false,t)
  | t => (false,t)

/-- In base 16 a prefix is skipped if a digit follows. -/
def dropPrefix (base : ℕ) : List Char → List Char
  | '0'::x::d::t =>
    if base = 16 ∧ (x = 'x' ∨ x = 'X') ∧ isDigit 16 d then d::t else '0'::x::d::t
  | t => t

structure Scan where
  negative : Bool
  magnitude : ℕ
  rest : List Char

/-- The number at the start of a text, and where it ends: at the start if there is none. -/
def scan (base : ℕ) (text : List Char) : Scan :=
  let r := splitSign (text.dropWhile isSpace)
  let t := dropPrefix base r.2
  let digits := t.takeWhile (isDigit base)
  if digits = [] then ⟨false,0,text⟩
  else ⟨r.1,ofDigits base digits,t.dropWhile (isDigit base)⟩

/-- What a parser returns: the value, the rest of the text, and whether `errno` is set. -/
structure Parsed (α : Type*) where
  value : α
  rest : List Char
  range : Bool

def strtol (longMax base : ℕ) (text : List Char) : Parsed ℤ :=
  let r := scan base text
  if r.negative then
    if r.magnitude ≤ longMax + 1 then ⟨-r.magnitude,r.rest,false⟩
    else ⟨-(longMax + 1),r.rest,true⟩
  else if r.magnitude ≤ longMax then ⟨r.magnitude,r.rest,false⟩
  else ⟨longMax,r.rest,true⟩

/-- A negative number is taken modulo `ulongMax + 1`. -/
def strtoul (ulongMax base : ℕ) (text : List Char) : Parsed ℕ :=
  let r := scan base text
  if ulongMax < r.magnitude then ⟨ulongMax,r.rest,true⟩
  else ⟨if r.negative then (ulongMax + 1 - r.magnitude) % (ulongMax + 1) else r.magnitude,r.rest,
    false⟩

def hexChar (upper : Bool) (d : ℕ) : Char :=
  if d < 10 then Char.ofNat ('0'.toNat + d)
  else Char.ofNat ((if upper then 'A' else 'a').toNat + (d - 10))

/-- `printf` of `%0*X` or `%0*x`: the digits of a number, at least one, padded to the width. -/
def printHex (upper : Bool) (width n : ℕ) : List Char :=
  ((Nat.digits 16 n).reverse.map (hexChar upper)).leftpad (max 1 width) '0'

section

variable {base : ℕ} {c : Char} {t : List Char}

lemma ne_of_isDigit {d : Char} (h : isDigit base c = true) (hd : digitVal d = none) : c ≠ d := by
  rintro rfl
  rw [isDigit, hd] at h
  contradiction

lemma isSpace_of_isDigit (h : isDigit base c = true) : isSpace c = false := by
  have hne : ∀ d ∈ [' ', '\t', '\n', '\x0b', '\x0c', '\r'], c ≠ d := by
    intro d hd
    apply ne_of_isDigit h
    fin_cases hd <;> rfl
  rw [isSpace, decide_eq_false_iff_not]
  exact fun hc => hne c hc rfl

lemma splitSign_of_isDigit (h : isDigit base c = true) : splitSign (c::t) = (false,c::t) := by
  have hminus : c ≠ '-' := ne_of_isDigit h rfl
  have hplus : c ≠ '+' := ne_of_isDigit h rfl
  unfold splitSign
  split <;> simp_all

lemma le_iff_toNat {c d : Char} : c ≤ d ↔ c.toNat ≤ d.toNat := by
  rw [Char.le_def, UInt32.le_iff_toNat_le]
  rfl

lemma isDigit_ten : isDigit 10 c = true ↔ '0' ≤ c ∧ c ≤ '9' := by
  unfold isDigit digitVal
  split_ifs with hd hl hu
  · simp only [le_iff_toNat] at hd ⊢
    simp only [Option.any_some, decide_eq_true_iff]
    change 48 ≤ c.toNat ∧ c.toNat ≤ 57 at hd
    change c.toNat - 48 < 10 ↔ 48 ≤ c.toNat ∧ c.toNat ≤ 57
    omega
  · simp [hd]
  · simp [hd]
  · simp [hd]

/-- On a text that starts with a digit, and with no prefix, the digits are the first run. -/
theorem scan_of_isDigit (h : isDigit base c = true) (ht : dropPrefix base (c::t) = c::t) :
    scan base (c::t) = ⟨false,ofDigits base ((c::t).takeWhile (isDigit base)),
      (c::t).dropWhile (isDigit base)⟩ := by
  have hspace : (c::t).dropWhile isSpace = c::t := by
    rw [List.dropWhile_cons_of_neg]
    rw [isSpace_of_isDigit h]
    exact Bool.false_ne_true
  have hne : (c::t).takeWhile (isDigit base) ≠ [] := by
    rw [List.takeWhile_cons_of_pos h]
    exact List.cons_ne_nil _ _
  simp only [scan, hspace, splitSign_of_isDigit h, ht, hne, if_false]

lemma dropPrefix_ten (t : List Char) : dropPrefix 10 t = t := by
  unfold dropPrefix
  split
  · exact if_neg (fun h => absurd h.1 (by decide))
  · rfl

theorem strtol_of_isDigit {longMax : ℕ} (h : isDigit 10 c = true) :
    strtol longMax 10 (c::t) =
      if ofDigits 10 ((c::t).takeWhile (isDigit 10)) ≤ longMax then
        ⟨ofDigits 10 ((c::t).takeWhile (isDigit 10)),(c::t).dropWhile (isDigit 10),false⟩
      else ⟨longMax,(c::t).dropWhile (isDigit 10),true⟩ := by
  rw [strtol, scan_of_isDigit h (dropPrefix_ten _)]
  rfl

lemma takeWhile_digits {ds rest : List Char} (hds : ∀ c ∈ ds, isDigit base c = true)
    (hrest : ∀ c ∈ rest.head?, isDigit base c = false) :
    (ds ++ rest).takeWhile (isDigit base) = ds ∧ (ds ++ rest).dropWhile (isDigit base) = rest := by
  rw [List.takeWhile_append_of_pos hds, List.dropWhile_append_of_pos hds]
  cases rest with
  | nil => exact ⟨List.append_nil ds,rfl⟩
  | cons c t =>
    have hc : ¬ isDigit base c = true := by
      rw [hrest c rfl]
      exact Bool.false_ne_true
    rw [List.takeWhile_cons_of_neg hc, List.dropWhile_cons_of_neg hc]
    exact ⟨List.append_nil ds,rfl⟩

/-- A run of digits with no digit behind it is read as the number it denotes, if that fits. -/
theorem strtol_digits {longMax : ℕ} {ds rest : List Char} (hne : ds ≠ [])
    (hds : ∀ c ∈ ds, isDigit 10 c = true) (hrest : ∀ c ∈ rest.head?, isDigit 10 c = false)
    (hfits : ofDigits 10 ds ≤ longMax) :
    strtol longMax 10 (ds ++ rest) = ⟨ofDigits 10 ds,rest,false⟩ := by
  obtain ⟨htake,hdrop⟩ := takeWhile_digits hds hrest
  cases ds with
  | nil => contradiction
  | cons c t =>
    rw [List.cons_append] at htake hdrop ⊢
    rw [strtol_of_isDigit (hds c List.mem_cons_self), htake, hdrop, if_pos hfits]

/-- A run of digits has no prefix of base 16 to skip. -/
lemma dropPrefix_digits {ds : List Char} (hds : ∀ c ∈ ds, isDigit 16 c = true) :
    dropPrefix 16 ds = ds := by
  unfold dropPrefix
  split
  · rename_i x d t
    have hx : ¬ (x = 'x' ∨ x = 'X') := by
      rintro (rfl | rfl)
      · exact absurd (hds 'x' (by simp)) (by decide)
      · exact absurd (hds 'X' (by simp)) (by decide)
    exact if_neg (fun h => hx h.2.1)
  · rfl

/-- A text of digits only is read as the number it denotes, if that fits. -/
theorem strtoul_digits {ulongMax : ℕ} {ds : List Char} (hne : ds ≠ [])
    (hds : ∀ c ∈ ds, isDigit 16 c = true) (hfits : ofDigits 16 ds ≤ ulongMax) :
    strtoul ulongMax 16 ds = ⟨ofDigits 16 ds,[],false⟩ := by
  have hall : ds.takeWhile (isDigit 16) = ds ∧ ds.dropWhile (isDigit 16) = [] :=
    ⟨List.takeWhile_eq_self_iff.mpr hds,List.dropWhile_eq_nil_iff.mpr hds⟩
  cases ds with
  | nil => contradiction
  | cons c t =>
    rw [strtoul, scan_of_isDigit (hds c List.mem_cons_self) (dropPrefix_digits hds), hall.1, hall.2]
    dsimp only
    rw [if_neg (not_lt.mpr hfits)]
    rfl

lemma ofDigits_eq (base : ℕ) (ds : List Char) : ofDigits base ds =
    Nat.ofDigits base (ds.reverse.map (fun c => (digitVal c).getD 0)) := by
  rw [Nat.ofDigits_eq_foldr, List.foldr_map, List.foldr_reverse]
  simp only [ofDigits, Nat.cast_id, Nat.add_comm]

lemma ofDigits_lt {ds : List Char} (hbase : 1 < base) (hds : ∀ c ∈ ds, isDigit base c = true) :
    ofDigits base ds < base^ds.length := by
  rw [ofDigits_eq, ← List.length_reverse, ← List.length_map (f := fun c => (digitVal c).getD 0)]
  apply Nat.ofDigits_lt_base_pow_length hbase
  intro d hd
  obtain ⟨c,hc,rfl⟩ := List.mem_map.mp hd
  have hdigit := hds c (List.mem_reverse.mp hc)
  rw [isDigit, Option.any_eq_true] at hdigit
  obtain ⟨n,hn,hlt⟩ := hdigit
  rw [hn]
  exact of_decide_eq_true hlt

lemma digitVal_hexChar {upper : Bool} {d : ℕ} (h : d < 16) :
    digitVal (hexChar upper d) = some d := by
  have hall : ∀ upper, ∀ d : Fin 16, digitVal (hexChar upper d) = some d.val := by decide
  exact hall upper ⟨d,h⟩

lemma printHex_eq (upper : Bool) (width n : ℕ) : ∃ zeros, printHex upper width n =
    List.replicate zeros '0' ++ (Nat.digits 16 n).reverse.map (hexChar upper) := ⟨_,rfl⟩

lemma isDigit_printHex {upper : Bool} {width n : ℕ} (h : c ∈ printHex upper width n) :
    isDigit 16 c = true := by
  obtain ⟨zeros,heq⟩ := printHex_eq upper width n
  rw [heq, List.mem_append] at h
  rcases h with h | h
  · rw [List.eq_of_mem_replicate h]
    decide
  · obtain ⟨d,hd,rfl⟩ := List.mem_map.mp h
    have hlt : d < 16 := Nat.digits_lt_base (by decide) (List.mem_reverse.mp hd)
    rw [isDigit, digitVal_hexChar hlt]
    exact decide_eq_true hlt

/-- What is printed denotes the number. -/
theorem ofDigits_printHex (upper : Bool) (width n : ℕ) :
    ofDigits 16 (printHex upper width n) = n := by
  obtain ⟨zeros,heq⟩ := printHex_eq upper width n
  have hzeros : ∀ k, Nat.ofDigits 16 (List.replicate k 0) = 0 := by
    intro k
    induction k with
    | zero => rfl
    | succ k ih => rw [List.replicate_succ, Nat.ofDigits_cons, ih]
  have hdigits : (Nat.digits 16 n).map (fun d => (digitVal (hexChar upper d)).getD 0) =
      Nat.digits 16 n := by
    conv_rhs => rw [← List.map_id (Nat.digits 16 n)]
    refine List.map_congr_left (fun d hd => ?_)
    rw [digitVal_hexChar (Nat.digits_lt_base (by decide) hd)]
    rfl
  rw [heq, ofDigits_eq, List.reverse_append, List.map_append, ← List.map_reverse,
    List.reverse_reverse, List.map_map, List.reverse_replicate, List.map_replicate,
    Nat.ofDigits_append]
  change Nat.ofDigits 16 ((Nat.digits 16 n).map (fun d => (digitVal (hexChar upper d)).getD 0)) +
    _ * Nat.ofDigits 16 (List.replicate zeros 0) = n
  rw [hdigits, hzeros, Nat.ofDigits_digits, Nat.mul_zero, Nat.add_zero]

lemma printHex_length {upper : Bool} {width n k : ℕ} (hn : n < 16^k) (hk : 1 ≤ k)
    (hwidth : width ≤ k) : 1 ≤ (printHex upper width n).length ∧
      (printHex upper width n).length ≤ k := by
  have hlen := (Nat.digits_length_le_iff (by decide : 1 < 16) n).mpr hn
  rw [printHex, List.length_leftpad, List.length_map, List.length_reverse]
  omega

end

end CText
