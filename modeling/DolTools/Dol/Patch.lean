import DolTools.Dol.Header
import DolTools.Library.CText

/-! The tool that patches one header field of a DOL file, against the tool that shows the
header: the name and the value are parsed, and four bytes of the file are overwritten. -/
namespace DolTools
open BigEndian ByteOrder CText

/-- What C leaves to the machine: the byte order, and the largest `long`. -/
structure Machine where
  order : Order
  longMax : ℕ
  longMax_ge : 2^31 - 1 ≤ longMax

def Machine.ulongMax (m : Machine) : ℕ := 2*m.longMax + 1

/-- The results 0, -1 and 1 of `parseIndexedField`. -/
inductive Indexed
  | otherPrefix
  | invalid
  | found (offset : ℕ)
  deriving DecidableEq, Repr

/-- The part of `parseIndexedField` behind the prefix. -/
def parseIndex (m : Machine) (count addrBase sizeBase offsetBase : ℕ) (p : List Char) : Indexed :=
  match p with
  | [] => .invalid
  | c::_ =>
    if c < '0' ∨ '9' < c then .invalid
    else
      let r := strtol m.longMax 10 p
      if r.range ∨ r.value < 0 ∨ count ≤ r.value then .invalid
      else if r.rest = "_addr".toList then .found (addrBase + r.value.toNat*4)
      else if r.rest = "_size".toList then .found (sizeBase + r.value.toNat*4)
      else if r.rest = "_offset".toList then .found (offsetBase + r.value.toNat*4)
      else .invalid

def parseIndexedField (m : Machine) (field start : List Char)
    (count addrBase sizeBase offsetBase : ℕ) : Indexed :=
  if start.isPrefixOf field then
    parseIndex m count addrBase sizeBase offsetBase (field.drop start.length)
  else .otherPrefix

def fieldOffset (m : Machine) (field : List Char) : Option ℕ :=
  match parseIndexedField m field "text".toList 7 textAddrAt textSizeAt textOffAt with
  | .found offset => some offset
  | .invalid => none
  | .otherPrefix =>
    match parseIndexedField m field "data".toList 11 dataAddrAt dataSizeAt dataOffAt with
    | .found offset => some offset
    | .invalid => none
    | .otherPrefix =>
      if field = "bss_addr".toList then some bssAddrAt
      else if field = "bss_size".toList then some bssSizeAt
      else if field = "entry".toList then some entryAt
      else none

def isHexDigit (c : Char) : Bool :=
  ('0' ≤ c && c ≤ '9') || ('a' ≤ c && c ≤ 'f') || ('A' ≤ c && c ≤ 'F')

/-- The text of a value without its prefix. -/
def valueDigits : List Char → List Char
  | '0'::x::t => if x = 'x' ∨ x = 'X' then t else '0'::x::t
  | t => t

def parseValue (m : Machine) (text : List Char) : Option Word :=
  let digits := valueDigits text
  if digits.length = 0 ∨ 8 < digits.length then none
  else if !digits.all isHexDigit then none
  else
    let r := strtoul m.ulongMax 16 digits
    if r.range ∨ r.rest ≠ [] ∨ 2^32 - 1 < r.value then none
    else some (BitVec.ofNat 32 r.value)

/-- How the calls of `dol-patch` into the system end; `written` is what `pwrite` returns. -/
structure PatchEnv where
  opens : Bool
  stats : Bool
  written : ℤ
  closes : Bool

/-- Where `main` returns. -/
inductive PatchExit
  | usage
  | invalidField
  | invalidValue
  | openFailed
  | statFailed
  | tooSmall
  | patchFailed
  | closeFailed
  | patched
  deriving DecidableEq, Repr

def PatchExit.code : PatchExit → ℤ
  | .patched => 0
  | _ => 1

/-- `pwrite` inside the file; of the bytes it writes as many as it returns. -/
def pwrite (file : List Byte) (bs : List Byte) (offset : ℕ) (written : ℤ) : List Byte :=
  overwrite file offset (bs.take written.toNat)

/-- `main` of `dol-patch` behind the parsing of its arguments. -/
def patchFile (m : Machine) (env : PatchEnv) (offset : ℕ) (value : Word) (file : List Byte) :
    PatchExit × List Byte :=
  if !env.opens then (.openFailed,file)
  else if !env.stats then (.statFailed,file)
  else if file.length < hdrSize then (.tooSmall,file)
  else
    let diskValue := htonl m.order value
    let file := pwrite file (bytes m.order diskValue) offset env.written
    if env.written ≠ 4 then (.patchFailed,file)
    else if !env.closes then (.closeFailed,file)
    else (.patched,file)

/-- `main` of `dol-patch`: where it returns, and the file behind it. -/
def patchMain (m : Machine) (env : PatchEnv) (argv : List (List Char)) (file : List Byte) :
    PatchExit × List Byte :=
  match argv with
  | [_, name, field, text] =>
    if name = [] ∨ field = [] ∨ text = [] then (.usage,file)
    else match fieldOffset m field with
    | none => (.invalidField,file)
    | some offset =>
      match parseValue m text with
      | none => (.invalidValue,file)
      | some value => patchFile m env offset value file
  | _ => (.usage,file)

/-- The header that `dol-info` shows: 256 bytes are read, and converted. -/
def infoHdr (m : Machine) (file : List Byte) : Option DolHdr :=
  if file.length < 0x100 then none
  else some (dolHdrByteswap m.order (overlay m.order (ofList (file.take 0x100))))

/-! What the names mean. -/

/-- A run of decimal digits that denotes a number. -/
structure Denotes (digits : List Char) (n : ℕ) : Prop where
  nonempty : digits ≠ []
  decimal : ∀ c ∈ digits, isDigit 10 c = true
  value : ofDigits 10 digits = n

def Attr.suffix : Attr → List Char
  | .addr => "_addr".toList
  | .size => "_size".toList
  | .offset => "_offset".toList

/-- The field that a name stands for. -/
inductive Names : List Char → HdrField → Prop
  | text {digits : List Char} {i : Fin 7} (attr : Attr) (h : Denotes digits i) :
    Names ("text".toList ++ digits ++ attr.suffix) (.text attr i)
  | data {digits : List Char} {i : Fin 11} (attr : Attr) (h : Denotes digits i) :
    Names ("data".toList ++ digits ++ attr.suffix) (.data attr i)
  | bssAddr : Names "bss_addr".toList .bssAddr
  | bssSize : Names "bss_size".toList .bssSize
  | entry : Names "entry".toList .entry

section

variable {m : Machine} {field p : List Char} {count addrBase sizeBase offsetBase offset : ℕ}

/-- The first position of the array that an attribute stands for. -/
def Attr.base (addrBase sizeBase offsetBase : ℕ) : Attr → ℕ
  | .addr => addrBase
  | .size => sizeBase
  | .offset => offsetBase

lemma denotes_takeWhile {c : Char} {t : List Char} (h : isDigit 10 c = true) :
    Denotes ((c::t).takeWhile (isDigit 10)) (ofDigits 10 ((c::t).takeWhile (isDigit 10))) where
  nonempty := by
    rw [List.takeWhile_cons_of_pos h]
    exact List.cons_ne_nil _ _
  decimal d hd := List.mem_takeWhile_imp hd
  value := rfl

lemma suffix_found {rest : List Char} {n : ℕ} (h :
    (if rest = "_addr".toList then .found (addrBase + n*4)
      else if rest = "_size".toList then .found (sizeBase + n*4)
      else if rest = "_offset".toList then .found (offsetBase + n*4)
      else .invalid) = Indexed.found offset) :
    ∃ attr : Attr, rest = attr.suffix ∧
      offset = attr.base addrBase sizeBase offsetBase + 4*n := by
  rw [Nat.mul_comm] at h
  split at h
  · rename_i hrest
    exact ⟨.addr,hrest,(Indexed.found.inj h).symm⟩
  · split at h
    · rename_i hrest
      exact ⟨.size,hrest,(Indexed.found.inj h).symm⟩
    · split at h
      · rename_i hrest
        exact ⟨.offset,hrest,(Indexed.found.inj h).symm⟩
      · contradiction

/-- An accepted index is a number below the bound, and what follows it names the array. -/
theorem parseIndex_found (h : parseIndex m count addrBase sizeBase offsetBase p = .found offset) :
    ∃ digits n, ∃ attr : Attr, Denotes digits n ∧ n < count ∧ p = digits ++ attr.suffix ∧
      offset = attr.base addrBase sizeBase offsetBase + 4*n := by
  cases p with
  | nil => contradiction
  | cons c t =>
    rw [parseIndex] at h
    split at h
    · contradiction
    · rename_i hc
      have hdigit : isDigit 10 c = true := by
        rw [isDigit_ten]
        simpa [not_or] using hc
      have hdenotes := denotes_takeWhile (t := t) hdigit
      have hp : (c::t).takeWhile (isDigit 10) ++ (c::t).dropWhile (isDigit 10) = c::t :=
        List.takeWhile_append_dropWhile
      rw [strtol_of_isDigit hdigit] at h
      generalize ofDigits 10 ((c::t).takeWhile (isDigit 10)) = n at h hdenotes
      split at h
      · dsimp only at h
        split at h
        · contradiction
        · rename_i hbad
          have hn : n < count := by
            simp only [not_or, not_le, Nat.cast_lt] at hbad
            exact hbad.2.2
          obtain ⟨attr,hrest,hoffset⟩ := suffix_found h
          exact ⟨_,n,attr,hdenotes,hn,by rw [← hrest, hp],hoffset⟩
      · -- the number does not fit a `long`, and `errno` is set
        simp at h

lemma parseIndexedField_found {start : List Char}
    (h : parseIndexedField m field start count addrBase sizeBase offsetBase = .found offset) :
    ∃ digits n, ∃ attr : Attr, Denotes digits n ∧ n < count ∧
      field = start ++ digits ++ attr.suffix ∧
        offset = attr.base addrBase sizeBase offsetBase + 4*n := by
  unfold parseIndexedField at h
  split at h
  · rename_i hprefix
    obtain ⟨rest,rfl⟩ := List.isPrefixOf_iff_prefix.mp hprefix
    rw [List.drop_left] at h
    obtain ⟨digits,n,attr,hdenotes,hn,rfl,hoffset⟩ := parseIndex_found h
    exact ⟨digits,n,attr,hdenotes,hn,(List.append_assoc _ _ _).symm,hoffset⟩
  · contradiction

/-- An accepted name stands for a field, and the offset is the position of the field. -/
theorem fieldOffset_eq_some (h : fieldOffset m field = some offset) :
    ∃ f, Names field f ∧ offset = f.pos := by
  unfold fieldOffset at h
  split at h
  · rename_i htext
    obtain rfl := Option.some.inj h
    obtain ⟨digits,n,attr,hdenotes,hn,rfl,rfl⟩ := parseIndexedField_found htext
    refine ⟨.text attr ⟨n,hn⟩,.text attr hdenotes,?_⟩
    cases attr <;> rfl
  · contradiction
  · split at h
    · rename_i hdata
      obtain rfl := Option.some.inj h
      obtain ⟨digits,n,attr,hdenotes,hn,rfl,rfl⟩ := parseIndexedField_found hdata
      refine ⟨.data attr ⟨n,hn⟩,.data attr hdenotes,?_⟩
      cases attr <;> rfl
    · contradiction
    · split_ifs at h with haddr hsize hentry
      · exact ⟨.bssAddr,haddr ▸ .bssAddr,(Option.some.inj h).symm⟩
      · exact ⟨.bssSize,hsize ▸ .bssSize,(Option.some.inj h).symm⟩
      · exact ⟨.entry,hentry ▸ .entry,(Option.some.inj h).symm⟩

end

section

variable {m : Machine} {env : PatchEnv} {offset : ℕ} {value : Word} {file : List Byte}

lemma pwrite_htonl (m : Machine) (value : Word) (file : List Byte) (offset : ℕ) :
    pwrite file (bytes m.order (htonl m.order value)) offset 4 =
      overwrite file offset (bytes .big value) := by
  rw [pwrite, htonl, bytes_swapToBig]
  rfl

/-- A file is patched if it holds a header and every call succeeds, and then the big-endian bytes
of the value stand at the offset. -/
theorem patchFile_patched : (patchFile m env offset value file).1 = .patched ↔
    hdrSize ≤ file.length ∧ env.opens = true ∧ env.stats = true ∧ env.written = 4 ∧
      env.closes = true := by
  unfold patchFile
  dsimp only
  split_ifs <;> simp_all

theorem patchFile_snd (h : (patchFile m env offset value file).1 = .patched) :
    (patchFile m env offset value file).2 = overwrite file offset (bytes .big value) := by
  obtain ⟨hlen,hopens,hstats,hwritten,hcloses⟩ := patchFile_patched.mp h
  simp only [patchFile, hopens, hstats, hwritten, hcloses, Nat.not_lt.mpr hlen, Bool.not_true,
    Bool.false_eq_true, if_false, ne_eq, not_true_eq_false, pwrite_htonl]

lemma patchFile_tooSmall (h : file.length < hdrSize) :
    (patchFile m env offset value file).2 = file := by
  unfold patchFile
  split_ifs <;> rfl

end

section

variable {m m' : Machine} {env : PatchEnv} {prog name field text : List Char} {file : List Byte}

lemma patchMain_eq (m : Machine) (env : PatchEnv) (prog name field text : List Char)
    (file : List Byte) : patchMain m env [prog, name, field, text] file =
      if name = [] ∨ field = [] ∨ text = [] then (.usage,file)
      else match fieldOffset m field with
      | none => (.invalidField,file)
      | some offset =>
        match parseValue m text with
        | none => (.invalidValue,file)
        | some value => patchFile m env offset value file := rfl

/-- A run that succeeds has an accepted field and an accepted value. -/
lemma patchMain_patched (h : (patchMain m env [prog, name, field, text] file).1 = .patched) :
    ∃ offset value, fieldOffset m field = some offset ∧ parseValue m text = some value ∧
      patchMain m env [prog, name, field, text] file = patchFile m env offset value file := by
  rw [patchMain_eq] at h ⊢
  split_ifs at h ⊢
  cases hfield : fieldOffset m field with
  | none => simp [hfield] at h
  | some offset =>
    cases hvalue : parseValue m text with
    | none => simp [hfield, hvalue] at h
    | some value => exact ⟨offset,value,rfl,rfl,rfl⟩

/-- Without an accepted field, an accepted value and a header the file stays as it is. -/
lemma patchMain_rejected (h : fieldOffset m field = none ∨ parseValue m text = none ∨
    file.length < hdrSize) : (patchMain m env [prog, name, field, text] file).2 = file := by
  rw [patchMain_eq]
  split_ifs
  · rfl
  · cases hfield : fieldOffset m field with
    | none => rfl
    | some offset =>
      cases hvalue : parseValue m text with
      | none => rfl
      | some value =>
        have hlen : file.length < hdrSize := by simpa [hfield, hvalue] using h
        exact patchFile_tooSmall hlen

/-- Such a run does not succeed either. -/
lemma patchMain_not_patched (h : fieldOffset m field = none ∨ parseValue m text = none ∨
    file.length < hdrSize) :
    (patchMain m env [prog, name, field, text] file).1 ≠ .patched := by
  intro hpatched
  obtain ⟨offset,value,hfield,hvalue,hr⟩ := patchMain_patched hpatched
  rw [hr, patchFile_patched] at hpatched
  rcases h with h | h | h
  · rw [hfield] at h
    contradiction
  · rw [hvalue] at h
    contradiction
  · exact absurd hpatched.1 (Nat.not_le.mpr h)

lemma PatchExit.code_of_ne {e : PatchExit} (h : e ≠ .patched) : e.code = 1 := by
  cases e with
  | patched => contradiction
  | _ => rfl

/-- What `dol-info` shows of a file: its big-endian words, and the padding. -/
theorem infoHdr_eq_some (h : hdrSize ≤ file.length) : ∃ hdr, infoHdr m file = some hdr ∧
    (∀ f, hdr.get f = word (ofList file) f.pos) ∧
      ∀ i, hdr.padding i = ofList file (paddingAt + i.val) := by
  have htake : ∀ a < hdrSize, ofList (file.take 0x100) a = ofList file a := by
    intro a ha
    have ha' : a < 0x100 := ha
    rw [ofList, ofList, List.getD_eq_getElem?_getD, List.getElem?_take_of_lt ha',
      List.getD_eq_getElem?_getD]
  obtain ⟨-,-,-,-,-,-,-,-,-,hpadding,hsize⟩ := layout
  refine ⟨_,if_neg (Nat.not_lt.mpr h),?_,?_⟩
  · intro f
    rw [byteswap_overlay_get]
    apply word_congr
    intro i hi
    have hf := f.pos_lt
    exact htake _ (by omega)
  · intro i
    exact htake _ (by omega)

end

section

variable {m : Machine} {env : PatchEnv} {f : HdrField} {value : Word} {file : List Byte}

/-- Behind the overwriting of one field `dol-info` shows the value there, and all else as it was. -/
theorem infoHdr_overwrite (m : Machine) (f : HdrField) (value : Word)
    (h : hdrSize ≤ file.length) : ∃ hdr hdr', infoHdr m file = some hdr ∧
      infoHdr m (overwrite file f.pos (bytes .big value)) = some hdr' ∧ hdr'.get f = value ∧
      (∀ g, g ≠ f → hdr'.get g = hdr.get g) ∧ hdr'.padding = hdr.padding := by
  have hlayout := layout
  have hpos := f.pos_lt
  have hfits : f.pos + (bytes .big value).length ≤ file.length := by
    rw [bytes_length]
    omega
  have hlen' : hdrSize ≤ (overwrite file f.pos (bytes .big value)).length := by
    rwa [overwrite_length hfits]
  obtain ⟨hdr,hinfo,hget,hpad⟩ := infoHdr_eq_some (m := m) h
  obtain ⟨hdr',hinfo',hget',hpad'⟩ := infoHdr_eq_some (m := m) hlen'
  rw [bytes_length] at hfits
  refine ⟨hdr,hdr',hinfo,hinfo',?_,?_,?_⟩
  · rw [hget', word_overwrite value hfits]
  · intro g hg
    rw [hget', hget, word_overwrite_of_ne value hfits (HdrField.pos_apart hg.symm)]
  · funext i
    rw [hpad', hpad, ofList, ofList, List.getD_eq_getElem?_getD, List.getD_eq_getElem?_getD,
      overwrite_of_not_mem (by rwa [bytes_length])]
    rw [bytes_length]
    omega

end

/-- `dol-patch` and `dol-info` agree, also between machines of different byte orders. A successful
run changes the named field to the value and nothing else; a rejected one changes nothing. -/
theorem patch_info (m m' : Machine) (env : PatchEnv) (prog name field text : List Char)
    (file : List Byte) :
    let r := patchMain m env [prog, name, field, text] file
    (∀ offset value, fieldOffset m field = some offset → parseValue m text = some value →
      hdrSize ≤ file.length → r.1 = .patched →
      r.2.length = file.length ∧
      (∀ i, ¬ (offset ≤ i ∧ i < offset + 4) → r.2[i]? = file[i]?) ∧
      ∃ f hdr hdr', Names field f ∧ offset = f.pos ∧ infoHdr m' file = some hdr ∧
        infoHdr m' r.2 = some hdr' ∧ hdr'.get f = value ∧
        (∀ g, g ≠ f → hdr'.get g = hdr.get g) ∧ hdr'.padding = hdr.padding) ∧
    (fieldOffset m field = none ∨ parseValue m text = none ∨ file.length < hdrSize →
      r.1.code = 1 ∧ r.2 = file) := by
  intro r
  constructor
  · intro offset value hfield hvalue hlen hpatched
    obtain ⟨offset',value',hfield',hvalue',hr⟩ := patchMain_patched hpatched
    obtain rfl := Option.some.inj (hfield.symm.trans hfield')
    obtain rfl := Option.some.inj (hvalue.symm.trans hvalue')
    have hrun : r = patchFile m env offset value file := hr
    have hfile : r.2 = overwrite file offset (bytes .big value) := by
      rw [hrun] at hpatched ⊢
      exact patchFile_snd hpatched
    obtain ⟨f,hnames,rfl⟩ := fieldOffset_eq_some hfield
    have hfits : f.pos + (bytes .big value).length ≤ file.length := by
      have hlayout := layout
      have hpos := f.pos_lt
      rw [bytes_length]
      omega
    obtain ⟨hdr,hdr',hinfo,hinfo',hrest⟩ := infoHdr_overwrite m' f value hlen
    rw [hfile]
    refine ⟨overwrite_length hfits,?_,f,hdr,hdr',hnames,rfl,hinfo,hinfo',hrest⟩
    intro i hi
    apply overwrite_of_not_mem hfits
    rwa [bytes_length]
  · intro h
    exact ⟨PatchExit.code_of_ne (patchMain_not_patched h),patchMain_rejected h⟩

def bigMachine : Machine := ⟨.big,2^31 - 1,le_rfl⟩
def littleMachine : Machine := ⟨.little,2^63 - 1,by decide⟩

/-- A little-endian machine patches the entry point of an empty header, a big-endian one shows it. -/
theorem patch_info_entry : ∃ f hdr', Names "entry".toList f ∧ f.pos = entryAt ∧
    infoHdr bigMachine (patchMain littleMachine ⟨true,true,4,true⟩
      ["dol-patch".toList, "a.dol".toList, "entry".toList, "0x80003100".toList]
      (List.replicate 256 0)).2 = some hdr' ∧ hdr'.get f = 0x80003100#32 := by
  have hlen : hdrSize ≤ (List.replicate 256 (0 : Byte)).length := by
    rw [List.length_replicate]
    decide
  have hfield : fieldOffset littleMachine "entry".toList = some entryAt := by decide
  have hvalue : parseValue littleMachine "0x80003100".toList = some 0x80003100#32 := by decide
  have hpatched : (patchMain littleMachine ⟨true,true,4,true⟩ ["dol-patch".toList,
      "a.dol".toList, "entry".toList, "0x80003100".toList] (List.replicate 256 0)).1 =
      .patched := by
    rw [patchMain_eq, if_neg (by decide), hfield, hvalue]
    exact patchFile_patched.mpr ⟨hlen,rfl,rfl,rfl,rfl⟩
  obtain ⟨-,-,f,-,hdr',hnames,hpos,-,hinfo',hget,-⟩ := (patch_info littleMachine bigMachine
    ⟨true,true,4,true⟩ "dol-patch".toList "a.dol".toList "entry".toList "0x80003100".toList
    (List.replicate 256 0)).1 entryAt 0x80003100#32 hfield hvalue hlen hpatched
  exact ⟨f,hdr',hnames,hpos.symm,hinfo',hget⟩

end DolTools
