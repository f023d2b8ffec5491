import DolTools.Dol.Patch

/-! The two languages of the arguments of `dol-patch`: the names of the header fields, and the
values in base 16, which are read back as they are printed. -/
namespace DolTools
open CText

/-- One to eight hexadecimal digits that denote the number. -/
structure HexDigits (digits : List Char) (n : ℕ) : Prop where
  nonempty : 1 ≤ digits.length
  short : digits.length ≤ 8
  hex : ∀ c ∈ digits, isHexDigit c = true
  value : ofDigits 16 digits = n

/-- The same with an optional prefix. -/
inductive HexText : List Char → ℕ → Prop
  | plain {digits : List Char} {n : ℕ} (h : HexDigits digits n) : HexText digits n
  | lower {digits : List Char} {n : ℕ} (h : HexDigits digits n) :
    HexText ("0x".toList ++ digits) n
  | upper {digits : List Char} {n : ℕ} (h : HexDigits digits n) :
    HexText ("0X".toList ++ digits) n

section

variable {m : Machine} {field digits : List Char} {n count addrBase sizeBase offsetBase : ℕ}
  {f g : HdrField}

lemma suffix_head (attr : Attr) : ∀ c ∈ attr.suffix.head?, isDigit 10 c = false := by
  intro c hc
  rw [show attr.suffix.head? = some '_' by cases attr <;> rfl] at hc
  obtain rfl := Option.some.inj hc
  rfl

/-- A number below the bound and the end of a name make an index. -/
lemma parseIndex_of_denotes (attr : Attr) (h : Denotes digits n) (hn : n < count)
    (hcount : count ≤ 11) :
    parseIndex m count addrBase sizeBase offsetBase (digits ++ attr.suffix) =
      .found (attr.base addrBase sizeBase offsetBase + n*4) := by
  obtain ⟨hne,hdigits,hvalue⟩ := h
  have hmax := m.longMax_ge
  have hparsed : strtol m.longMax 10 (digits ++ attr.suffix) = ⟨n,attr.suffix,false⟩ := by
    rw [strtol_digits hne hdigits (suffix_head attr) (by omega), hvalue]
  cases digits with
  | nil => contradiction
  | cons c t =>
    obtain ⟨hlow,hhigh⟩ := isDigit_ten.mp (hdigits c List.mem_cons_self)
    have hc : ¬ (c < '0' ∨ '9' < c) := not_or.mpr ⟨not_lt.mpr hlow,not_lt.mpr hhigh⟩
    have hin : ¬ (false = true ∨ (n : ℤ) < 0 ∨ (count : ℤ) ≤ n) := by
      simp only [Bool.false_eq_true, false_or, not_or]
      omega
    rw [List.cons_append] at hparsed ⊢
    rw [parseIndex, if_neg hc, hparsed]
    dsimp only
    rw [if_neg hin]
    cases attr <;> rfl

lemma parseIndexedField_of_denotes {start : List Char} (attr : Attr) (h : Denotes digits n)
    (hn : n < count) (hcount : count ≤ 11) :
    parseIndexedField m (start ++ digits ++ attr.suffix) start count addrBase sizeBase offsetBase =
      .found (attr.base addrBase sizeBase offsetBase + n*4) := by
  have hprefix : start.isPrefixOf (start ++ (digits ++ attr.suffix)) = true :=
    List.isPrefixOf_iff_prefix.mpr (List.prefix_append _ _)
  rw [List.append_assoc, parseIndexedField, if_pos hprefix, List.drop_left]
  exact parseIndex_of_denotes attr h hn hcount

/-- Every name of a field is accepted, and gives its position. -/
theorem fieldOffset_of_names (m : Machine) (h : Names field f) :
    fieldOffset m field = some f.pos := by
  cases h with
  | @text digits i attr h =>
    rw [fieldOffset, parseIndexedField_of_denotes attr h i.isLt (by decide)]
    cases attr <;> simp [Attr.base, HdrField.pos, Nat.mul_comm]
  | @data digits i attr h =>
    have hother : parseIndexedField m ("data".toList ++ digits ++ attr.suffix) "text".toList 7
        textAddrAt textSizeAt textOffAt = .otherPrefix := rfl
    rw [fieldOffset, hother]
    dsimp only
    rw [parseIndexedField_of_denotes attr h i.isLt le_rfl]
    cases attr <;> simp [Attr.base, HdrField.pos, Nat.mul_comm]
  | bssAddr => rfl
  | bssSize => rfl
  | entry => rfl

lemma pos_injective (h : f.pos = g.pos) : f = g := by
  by_contra hne
  rcases HdrField.pos_apart hne with hapart | hapart <;> omega

lemma pos_aligned (f : HdrField) : f.pos % 4 = 0 := by
  have hlayout := layout
  cases f with
  | text attr i => cases attr <;> (simp only [HdrField.pos]; omega)
  | data attr i => cases attr <;> (simp only [HdrField.pos]; omega)
  | _ => simp only [HdrField.pos]; omega

end

/-- The accepted names are those of the grammar. The offset is the position of the field that the
name stands for, and no two fields share one. -/
theorem fieldOffset_grammar (m : Machine) :
    (∀ field, (fieldOffset m field).isSome = true ↔ ∃ f, Names field f) ∧
    (∀ field f, Names field f → fieldOffset m field = some f.pos ∧ f.pos % 4 = 0 ∧ f.pos ≤ 0xE0) ∧
    ∀ field field' f f', Names field f → Names field' f' →
      (fieldOffset m field = fieldOffset m field' ↔ f = f') := by
  refine ⟨?_,?_,?_⟩
  · intro field
    rw [Option.isSome_iff_exists]
    constructor
    · rintro ⟨offset,h⟩
      obtain ⟨f,hnames,-⟩ := fieldOffset_eq_some h
      exact ⟨f,hnames⟩
    · rintro ⟨f,hnames⟩
      exact ⟨f.pos,fieldOffset_of_names m hnames⟩
  · intro field f hnames
    have hlayout := layout
    have hlt := f.pos_lt
    exact ⟨fieldOffset_of_names m hnames,pos_aligned f,by omega⟩
  · intro field field' f f' hnames hnames'
    rw [fieldOffset_of_names m hnames, fieldOffset_of_names m hnames']
    exact ⟨fun h => pos_injective (Option.some.inj h),fun h => congrArg (some ·.pos) h⟩

section

variable {m : Machine} {digits text : List Char} {n : ℕ} {c : Char}

/-- The test of the source accepts the digits of base 16. -/
lemma isDigit_sixteen : isDigit 16 c = isHexDigit c := by
  have hle : ∀ d : Char, (d ≤ c ↔ d.toNat ≤ c.toNat) ∧ (c ≤ d ↔ c.toNat ≤ d.toNat) :=
    fun d => ⟨le_iff_toNat,le_iff_toNat⟩
  rw [Bool.eq_iff_iff]
  unfold isDigit digitVal isHexDigit
  simp only [Bool.or_eq_true, Bool.and_eq_true, decide_eq_true_iff, (hle _).1, (hle _).2]
  split_ifs <;> simp only [Option.any_some, Option.any_none, decide_eq_true_iff] <;> grind

lemma HexDigits.lt (h : HexDigits digits n) : n < 2^32 := by
  have hdigits : ∀ c ∈ digits, isDigit 16 c = true := by
    intro c hc
    rw [isDigit_sixteen]
    exact h.hex c hc
  rw [← h.value]
  calc ofDigits 16 digits < 16^digits.length := ofDigits_lt (by decide) hdigits
    _ ≤ 16^8 := Nat.pow_le_pow_right (by decide) h.short

/-- The text is its prefix, if it has one, and the rest. -/
lemma valueDigits_cases (text : List Char) : text = valueDigits text ∨
    text = "0x".toList ++ valueDigits text ∨ text = "0X".toList ++ valueDigits text := by
  unfold valueDigits
  split
  · split
    · rename_i hx
      rcases hx with rfl | rfl
      · exact .inr (.inl rfl)
      · exact .inr (.inr rfl)
    · exact .inl rfl
  · exact .inl rfl

/-- Digits alone have no prefix. -/
lemma valueDigits_of_hex (h : ∀ c ∈ digits, isHexDigit c = true) : valueDigits digits = digits := by
  unfold valueDigits
  split
  · rename_i x t
    apply if_neg
    rintro (rfl | rfl)
    · exact absurd (h 'x' (by simp)) (by decide)
    · exact absurd (h 'X' (by simp)) (by decide)
  · rfl

lemma valueDigits_of_hexText (h : HexText text n) : HexDigits (valueDigits text) n := by
  cases h with
  | plain h => rwa [valueDigits_of_hex h.hex]
  | lower h => exact h
  | upper h => exact h

lemma hexText_of_valueDigits (h : HexDigits (valueDigits text) n) : HexText text n := by
  rcases valueDigits_cases text with heq | heq | heq
  · rw [heq]
    exact .plain h
  · rw [heq]
    exact .lower h
  · rw [heq]
    exact .upper h

/-- The library parser takes the digits that passed the tests, all of them. -/
lemma parseValue_of_hexDigits (m : Machine) (h : HexDigits (valueDigits text) n) :
    parseValue m text = some (BitVec.ofNat 32 n) := by
  have hlen : ¬ ((valueDigits text).length = 0 ∨ 8 < (valueDigits text).length) := by
    have h1 := h.nonempty
    have h8 := h.short
    omega
  have hall : (!(valueDigits text).all isHexDigit) = false := by
    rw [Bool.not_eq_false', List.all_eq_true]
    exact h.hex
  have hmax : n ≤ m.ulongMax := by
    have hlt := h.lt
    have hlong := m.longMax_ge
    unfold Machine.ulongMax
    omega
  have hparsed : strtoul m.ulongMax 16 (valueDigits text) = ⟨n,[],false⟩ := by
    rw [strtoul_digits (List.ne_nil_of_length_pos h.nonempty)
      (fun c hc => isDigit_sixteen.trans (h.hex c hc)) (by rwa [h.value]), h.value]
  have hfits : ¬ (false = true ∨ ([] : List Char) ≠ [] ∨ 2^32 - 1 < n) := by
    have hlt := h.lt
    simp only [Bool.false_eq_true, ne_eq, not_true_eq_false, false_or]
    omega
  rw [parseValue]
  dsimp only
  rw [if_neg hlen, hall, hparsed, if_neg (by decide), if_neg hfits]

/-- What passes the tests is a run of one to eight digits. -/
lemma hexDigits_of_accepted (h : (parseValue m text).isSome = true) :
    ∃ n, HexDigits (valueDigits text) n := by
  rw [parseValue] at h
  dsimp only at h
  split at h
  · contradiction
  · rename_i hlen
    split at h
    · contradiction
    · rename_i hall
      rw [Bool.not_eq_true, Bool.not_eq_false', List.all_eq_true] at hall
      exact ⟨_,by omega,by omega,hall,rfl⟩

lemma hexDigits_printHex (upper : Bool) {width : ℕ} (hwidth : width ≤ 8) (v : Word) :
    HexDigits (printHex upper width v.toNat) v.toNat := by
  have hlt : v.toNat < 16^8 := v.isLt
  obtain ⟨hne,hshort⟩ : 1 ≤ (printHex upper width v.toNat).length ∧
      (printHex upper width v.toNat).length ≤ 8 := printHex_length hlt (by decide) hwidth
  exact ⟨hne,hshort,fun c hc => isDigit_sixteen.symm.trans (isDigit_printHex hc),
    ofDigits_printHex upper width v.toNat⟩

end

/-- The accepted values are those of the grammar, each is the number that its digits denote, and
what is printed is read back. -/
theorem parseValue_grammar (m : Machine) :
    (∀ text, (parseValue m text).isSome = true ↔ ∃ n, HexText text n) ∧
    (∀ text n, HexText text n → ∃ v, parseValue m text = some v ∧ v.toNat = n) ∧
    ∀ (v : Word) (upper : Bool) (width : ℕ), width ≤ 8 →
      ∀ pre ∈ ["".toList, "0x".toList, "0X".toList],
        parseValue m (pre ++ printHex upper width v.toNat) = some v := by
  have hvalue : ∀ {text n}, HexText text n → ∃ v, parseValue m text = some v ∧ v.toNat = n := by
    intro text n h
    have hdigits := valueDigits_of_hexText h
    refine ⟨_,parseValue_of_hexDigits m hdigits,?_⟩
    rw [BitVec.toNat_ofNat, Nat.mod_eq_of_lt hdigits.lt]
  refine ⟨?_,fun _ _ => hvalue,?_⟩
  · intro text
    constructor
    · intro h
      obtain ⟨n,hn⟩ := hexDigits_of_accepted h
      exact ⟨n,hexText_of_valueDigits hn⟩
    · rintro ⟨n,h⟩
      obtain ⟨v,hv,-⟩ := hvalue h
      rw [hv]
      rfl
  · intro v upper width hwidth pre hpre
    have hprinted := hexDigits_printHex upper hwidth v
    have htext : HexText (pre ++ printHex upper width v.toNat) v.toNat := by
      simp only [List.mem_cons, List.not_mem_nil, or_false] at hpre
      rcases hpre with rfl | rfl | rfl
      · exact .plain hprinted
      · exact .lower hprinted
      · exact .upper hprinted
    obtain ⟨v',hv,heq⟩ := hvalue htext
    rw [hv, BitVec.eq_of_toNat_eq heq]

/-- As `dol-info` prints the entry point. -/
example : printHex true 8 0x80003100 = "80003100".toList ∧ printHex false 0 0 = "0".toList := by
  decide

end DolTools
