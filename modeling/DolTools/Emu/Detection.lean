import DolTools.Emu.Loader
import DolTools.Library.FirstMatch

/-! The search for the console type: the loop of `main` over the words of the sections, what it
finds, and whether the bytes of the data sections can move the result. -/
namespace DolTools
open BigEndian ByteOrder PartialReads

/-- The header fields as the loop indexes them: one past the end of an array of the packed struct
lies the first element of the next one. -/
def textSizeIn (file : List Byte) (i : ℕ) : Word := load .big (ofList file) (textSizeAt + 4*i)
def textOffIn (file : List Byte) (i : ℕ) : Word := load .big (ofList file) (textOffAt + 4*i)

def wiiMask : Word := 0xfc1fffff#32
def wiiMagic : Word := 0x7c13fba6#32
def isWiiInstr (instr : Word) : Bool := instr &&& wiiMask == wiiMagic

/-- The load of one instruction of the mapped file; `none` is a fault. -/
def readInstr (behind : ℕ → Option Byte) (file : List Byte) (a : ℕ) : Option Word :=
  ((List.range 4).mapM (fun i => mappedByte behind file (a+i))).map
    (fun bs => load .big (ofList bs) 0)

/-- The inner loop, left at the first match. -/
def scanSection (behind : ℕ → Option Byte) (file : List Byte) (i : ℕ) : Option Bool :=
  (List.range ((textSizeIn file i).toNat / 4)).anyM
    (fun j => (readInstr behind file ((textOffIn file i).toNat + 4*j)).map isWiiInstr)

/-- The two loops of `main`. -/
def detectConsole (behind : ℕ → Option Byte) (file : List Byte) : Option ConsoleType :=
  ((List.range 8).anyM (scanSection behind file)).map (fun wii => if wii then .wii else .gamecube)

/-- `main` from the search on. -/
def detectMain (k : Kernel) (env : BootEnv) (file : List Byte) (ram : RamBytes) : Option Loaded :=
  (detectConsole env.behind file).bind
    (fun c => loadMain k { env with consoleType := c } file ram)

/-- The section holds a word that the search takes for the magic value. -/
def Section.HasMagic (file : List Byte) (sec : Section) : Prop :=
  ∃ j < sec.size.toNat / 4, isWiiInstr (word (ofList file) (sec.off.toNat + 4*j)) = true

def TextMagic (file : List Byte) : Prop := ∃ i, ((fileHdr file).textSection i).HasMagic file

/-- The first data section, whose size and offset lie behind those of the text sections. -/
def dataZero (file : List Byte) : Section := (fileHdr file).dataSection 0

instance (file : List Byte) (sec : Section) : Decidable (sec.HasMagic file) :=
  inferInstanceAs (Decidable (∃ j < sec.size.toNat / 4, _))

instance (file : List Byte) : Decidable (TextMagic file) :=
  inferInstanceAs (Decidable (∃ i, ((fileHdr file).textSection i).HasMagic file))

/-- What the words of these sections decide. -/
def sectionsConsole (file : List Byte) : ConsoleType :=
  if TextMagic file ∨ (dataZero file).HasMagic file then .wii else .gamecube

/-- The file has a header, and all its sections lie inside it. -/
structure SectionsInside (file : List Byte) : Prop where
  header : hdrSize ≤ file.length
  inFile : ∀ sec ∈ (fileHdr file).sections, sec.size ≠ 0 →
    sec.off.toNat + sec.size.toNat ≤ file.length

def Section.HoldsByte (sec : Section) (a : ℕ) : Prop :=
  sec.off.toNat ≤ a ∧ a < sec.off.toNat + sec.size.toNat

instance (sec : Section) (a : ℕ) : Decidable (sec.HoldsByte a) :=
  inferInstanceAs (Decidable (_ ∧ _))

/-- A byte of the header or of a text section. -/
def Fixed (file : List Byte) (a : ℕ) : Prop :=
  a < hdrSize ∨ ∃ i, ((fileHdr file).textSection i).HoldsByte a

instance (file : List Byte) (a : ℕ) : Decidable (Fixed file a) :=
  inferInstanceAs (Decidable (_ ∨ _))

/-- The files differ in bytes of data sections at most, and there not in the header or in a text
section. -/
structure SameButData (file file' : List Byte) : Prop where
  length : file'.length = file.length
  fixed : ∀ a, Fixed file a → ofList file' a = ofList file a
  outside : ∀ a, (∀ i, ¬ ((fileHdr file).dataSection i).HoldsByte a) →
    ofList file' a = ofList file a

/-- The search looks at the text sections only. -/
structure TextOnly (behind : ℕ → Option Byte) (file : List Byte) : Prop where
  wii : detectConsole behind file = some .wii ↔ TextMagic file
  data : ∀ file', SameButData file file' → detectConsole behind file' = detectConsole behind file

/-- The bytes of a word that the data sections do not own agree with the magic value. -/
def CouldBeMagic (file : List Byte) (a : ℕ) : Prop :=
  ∀ i < 4, Fixed file (a+i) →
    ofList file (a+i) &&& (bytes .big wiiMask).getD i 0 = (bytes .big wiiMagic).getD i 0

instance (file : List Byte) (a : ℕ) : Decidable (CouldBeMagic file a) :=
  inferInstanceAs (Decidable (∀ i < 4, _ → _))

section

variable {behind : ℕ → Option Byte} {file file' : List Byte} {sec : Section} {a : ℕ}

lemma isWiiInstr_iff {m : Memory} : isWiiInstr (word m a) = true ↔
    ∀ i < 4, m (a+i) &&& (bytes .big wiiMask).getD i 0 = (bytes .big wiiMagic).getD i 0 := by
  rw [isWiiInstr, beq_iff_eq, word_and_eq_iff]

/-- One past the text sections stands the first data section. -/
lemma seven_eq_dataZero : textSizeIn file 7 = (dataZero file).size ∧
    textOffIn file 7 = (dataZero file).off := ⟨rfl,rfl⟩

lemma textSection_mem (i : Fin 7) : (fileHdr file).textSection i ∈ (fileHdr file).sections :=
  List.mem_append_left _ (List.mem_map.mpr ⟨i,List.mem_finRange i,rfl⟩)

lemma dataZero_mem : dataZero file ∈ (fileHdr file).sections :=
  List.mem_append_right _ (List.mem_map.mpr ⟨0,List.mem_finRange 0,rfl⟩)

/-- A word of a section that lies in the file is not behind its end. -/
lemma SectionsInside.word_le (h : SectionsInside file) (hsec : sec ∈ (fileHdr file).sections)
    {j : ℕ} (hj : j < sec.size.toNat / 4) : sec.off.toNat + 4*j + 4 ≤ file.length := by
  have hsize : sec.size ≠ 0 := by
    intro h0
    rw [h0] at hj
    exact Nat.not_lt_zero j hj
  have hin := h.inFile sec hsec hsize
  omega

lemma readInstr_eq (ha : a + 4 ≤ file.length) :
    readInstr behind file a = some (word (ofList file) a) := by
  have hread : (List.range 4).mapM (fun i => mappedByte behind file (a+i)) =
      some ((List.range 4).map (fun i => ofList file (a+i))) := by
    rw [mapM_eq_some_iff, List.map_map]
    apply List.map_congr_left
    intro i hi
    exact mappedByte_eq (by have hi' := List.mem_range.mp hi; omega)
  rw [readInstr, hread]
  rfl

lemma scanSection_eq (h : SectionsInside file) (hsec : sec ∈ (fileHdr file).sections) {i : ℕ}
    (hsize : textSizeIn file i = sec.size) (hoff : textOffIn file i = sec.off) :
    scanSection behind file i = some (decide (sec.HasMagic file)) := by
  unfold scanSection
  rw [hsize, hoff]
  have hread : ∀ j ∈ List.range (sec.size.toNat / 4),
      (readInstr behind file (sec.off.toNat + 4*j)).map isWiiInstr =
        some (isWiiInstr (word (ofList file) (sec.off.toNat + 4*j))) := by
    intro j hj
    rw [readInstr_eq (h.word_le hsec (List.mem_range.mp hj)), Option.map_some]
  rw [FirstMatch.anyM_eq_some hread, Option.some.injEq, Bool.eq_iff_iff, List.any_eq_true,
    decide_eq_true_iff]
  simp only [List.mem_range, Section.HasMagic]

/-- The sections that the outer loop comes to. -/
def scanned (file : List Byte) (i : ℕ) : Section :=
  if h : i < 7 then (fileHdr file).textSection ⟨i,h⟩ else dataZero file

lemma scanned_spec {i : ℕ} (hi : i < 8) : scanned file i ∈ (fileHdr file).sections ∧
    textSizeIn file i = (scanned file i).size ∧ textOffIn file i = (scanned file i).off := by
  unfold scanned
  split
  · rename_i h
    exact ⟨textSection_mem ⟨i,h⟩,rfl,rfl⟩
  · obtain rfl : i = 7 := by omega
    exact ⟨dataZero_mem,seven_eq_dataZero⟩

lemma exists_scanned {P : Section → Prop} : (∃ i < 8, P (scanned file i)) ↔
    (∃ i, P ((fileHdr file).textSection i)) ∨ P (dataZero file) := by
  constructor
  · rintro ⟨i,hi,hp⟩
    unfold scanned at hp
    split at hp
    · exact .inl ⟨_,hp⟩
    · exact .inr hp
  · rintro (⟨i,hp⟩ | hp)
    · refine ⟨i.val,by omega,?_⟩
      rw [scanned, dif_pos i.isLt]
      exact hp
    · refine ⟨7,by omega,?_⟩
      rw [scanned, dif_neg (by omega)]
      exact hp

/-- The search ends without a fault, at the magic value in a text section or in the first data
section. -/
theorem detectConsole_eq (h : SectionsInside file) :
    detectConsole behind file = some (sectionsConsole file) := by
  have hscan : ∀ i ∈ List.range 8,
      scanSection behind file i = some (decide ((scanned file i).HasMagic file)) := by
    intro i hi
    obtain ⟨hsec,hsize,hoff⟩ := @scanned_spec file i (List.mem_range.mp hi)
    exact scanSection_eq h hsec hsize hoff
  have hany : (List.range 8).any (fun i => decide ((scanned file i).HasMagic file)) =
      decide (TextMagic file ∨ (dataZero file).HasMagic file) := by
    rw [Bool.eq_iff_iff, List.any_eq_true, decide_eq_true_iff]
    simp only [List.mem_range, decide_eq_true_iff]
    exact exists_scanned
  rw [detectConsole, FirstMatch.anyM_eq_some hscan, hany, Option.map_some, sectionsConsole]
  by_cases hm : TextMagic file ∨ (dataZero file).HasMagic file
  · rw [if_pos hm, decide_eq_true hm]
    rfl
  · rw [if_neg hm, decide_eq_false hm]
    rfl

lemma detectConsole_wii (h : SectionsInside file) :
    detectConsole behind file = some .wii ↔ TextMagic file ∨ (dataZero file).HasMagic file := by
  rw [detectConsole_eq h, Option.some.injEq, sectionsConsole]
  split <;> simp_all

lemma SameButData.fileHdr_eq (h : SameButData file file') : fileHdr file' = fileHdr file := by
  rw [fileHdr, fileHdr, overlay_congr (fun a ha => h.fixed a (.inl ha))]

lemma SameButData.dataZero_eq (h : SameButData file file') : dataZero file' = dataZero file := by
  rw [dataZero, h.fileHdr_eq, dataZero]

lemma SameButData.inside (h : SameButData file file') (hin : SectionsInside file) :
    SectionsInside file' where
  header := hin.header.trans h.length.ge
  inFile := by
    rw [h.fileHdr_eq, h.length]
    exact hin.inFile

lemma fixed_word {i : Fin 7} {j : ℕ} (hj : j < ((fileHdr file).textSection i).size.toNat / 4) :
    ∀ b < 4, Fixed file (((fileHdr file).textSection i).off.toNat + 4*j + b) := by
  intro b hb
  exact .inr ⟨i,by omega,by omega⟩

/-- Both files hold the same text. -/
lemma SameButData.textMagic (h : SameButData file file') : TextMagic file' ↔ TextMagic file := by
  have hword : ∀ i, ∀ j < ((fileHdr file).textSection i).size.toNat / 4,
      word (ofList file') (((fileHdr file).textSection i).off.toNat + 4*j) =
        word (ofList file) (((fileHdr file).textSection i).off.toNat + 4*j) := by
    intro i j hj
    exact word_congr (fun b hb => h.fixed _ (fixed_word hj b hb))
  unfold TextMagic Section.HasMagic
  rw [h.fileHdr_eq]
  constructor
  · rintro ⟨i,j,hj,hm⟩
    exact ⟨i,j,hj,by rw [← hword i j hj]; exact hm⟩
  · rintro ⟨i,j,hj,hm⟩
    exact ⟨i,j,hj,by rw [hword i j hj]; exact hm⟩

lemma SameButData.refl (file : List Byte) : SameButData file file :=
  ⟨rfl,fun _ _ => rfl,fun _ _ => rfl⟩

/-- A word that one such file holds for the magic value could be it. -/
lemma SameButData.couldBeMagic (h : SameButData file file')
    (hm : isWiiInstr (word (ofList file') a) = true) : CouldBeMagic file a := by
  intro i hi hfix
  rw [← h.fixed _ hfix]
  exact isWiiInstr_iff.mp hm i hi

/-- The bytes of the word at `a` that the data sections own are overwritten. -/
def withMagic (file : List Byte) (a : ℕ) : List Byte :=
  (List.range file.length).map (fun b =>
    if a ≤ b ∧ b < a + 4 ∧ ¬ Fixed file b then (bytes .big wiiMagic).getD (b - a) 0
    else ofList file b)

lemma ofList_withMagic {b : ℕ} (hb : b < file.length) : ofList (withMagic file a) b =
    if a ≤ b ∧ b < a + 4 ∧ ¬ Fixed file b then (bytes .big wiiMagic).getD (b - a) 0
    else ofList file b := by
  rw [ofList, withMagic, List.getD_eq_getElem?_getD, List.getElem?_map, List.getElem?_range hb]
  rfl

lemma ofList_of_length_le {l : List Byte} {b : ℕ} (hb : l.length ≤ b) : ofList l b = 0 := by
  rw [ofList, List.getD_eq_default _ _ hb]

lemma withMagic_length : (withMagic file a).length = file.length := by
  rw [withMagic, List.length_map, List.length_range]

/-- Where the word lies in a data section, only bytes of that section change. -/
lemma sameButData_withMagic {i : Fin 11}
    (ha : ∀ b < 4, ((fileHdr file).dataSection i).HoldsByte (a+b)) :
    SameButData file (withMagic file a) := by
  have hsame : ∀ b, ¬ (a ≤ b ∧ b < a + 4 ∧ ¬ Fixed file b) →
      ofList (withMagic file a) b = ofList file b := by
    intro b hb
    rcases Nat.lt_or_ge b file.length with hlt | hge
    · rw [ofList_withMagic hlt, if_neg hb]
    · rw [ofList_of_length_le hge, ofList_of_length_le (withMagic_length.trans_le hge)]
  refine ⟨withMagic_length,?_,?_⟩
  · intro b hfix
    exact hsame b (fun h => h.2.2 hfix)
  · intro b hout
    apply hsame b
    rintro ⟨hl,hr,-⟩
    obtain ⟨d,rfl⟩ := Nat.exists_eq_add_of_le hl
    exact hout i (ha d (by omega))

lemma withMagic_hasMagic (hend : a + 4 ≤ file.length) (hcould : CouldBeMagic file a) :
    isWiiInstr (word (ofList (withMagic file a)) a) = true := by
  rw [isWiiInstr_iff]
  intro i hi
  rw [ofList_withMagic (by omega)]
  split
  · rw [Nat.add_sub_cancel_left]
    exact (by decide : ∀ i < 4, (bytes .big wiiMagic).getD i 0 &&& (bytes .big wiiMask).getD i 0 =
      (bytes .big wiiMagic).getD i 0) i hi
  · rename_i hout
    apply hcould i hi
    by_contra hfix
    exact hout ⟨by omega,by omega,hfix⟩

lemma dataZero_holdsByte {j b : ℕ} (hj : j < (dataZero file).size.toNat / 4) (hb : b < 4) :
    ((fileHdr file).dataSection 0).HoldsByte ((dataZero file).off.toNat + 4*j + b) := by
  change (dataZero file).off.toNat ≤ _ ∧ _ < (dataZero file).off.toNat + (dataZero file).size.toNat
  omega

/-- Where a word could be the magic value, some data makes it so, and the file is taken for one
of a Wii. -/
lemma exists_wii_data (behind : ℕ → Option Byte) (hin : SectionsInside file) {j : ℕ}
    (hj : j < (dataZero file).size.toNat / 4)
    (hcould : CouldBeMagic file ((dataZero file).off.toNat + 4*j)) :
    ∃ file', SameButData file file' ∧ detectConsole behind file' = some .wii := by
  have hsame : SameButData file (withMagic file ((dataZero file).off.toNat + 4*j)) :=
    sameButData_withMagic (i := 0) (fun b hb => dataZero_holdsByte hj hb)
  refine ⟨_,hsame,?_⟩
  rw [detectConsole_wii (hsame.inside hin), hsame.dataZero_eq]
  exact .inr ⟨j,hj,withMagic_hasMagic (hin.word_le dataZero_mem hj) hcould⟩

/-- Where no word could be, every such file is decided by its text. -/
lemma detectConsole_wii_of_text (behind : ℕ → Option Byte) (hin : SectionsInside file)
    (hcond : TextMagic file ∨ ∀ j < (dataZero file).size.toNat / 4,
      ¬ CouldBeMagic file ((dataZero file).off.toNat + 4*j)) (hsame : SameButData file file') :
    detectConsole behind file' = some .wii ↔ TextMagic file := by
  rw [detectConsole_wii (hsame.inside hin), hsame.textMagic]
  rcases hcond with htext | hno
  · exact iff_of_true (.inl htext) htext
  · rw [or_iff_left]
    rw [hsame.dataZero_eq]
    rintro ⟨j,hj,hm⟩
    exact hno j hj (hsame.couldBeMagic hm)

end

/-- The search is one of the text sections alone just when it succeeds there, or no word of the
first data section could be the magic value. -/
theorem textOnly_iff {behind : ℕ → Option Byte} {file : List Byte} (hin : SectionsInside file) :
    TextOnly behind file ↔ TextMagic file ∨ ∀ j < (dataZero file).size.toNat / 4,
      ¬ CouldBeMagic file ((dataZero file).off.toNat + 4*j) := by
  constructor
  · intro h
    by_contra hno
    push Not at hno
    obtain ⟨htext,j,hj,hcould⟩ := hno
    obtain ⟨file',hsame,hwii⟩ := exists_wii_data behind hin hj hcould
    rw [h.data _ hsame, h.wii] at hwii
    contradiction
  · intro hcond
    have hself := detectConsole_wii_of_text behind hin hcond (.refl file)
    refine ⟨hself,?_⟩
    intro file' hsame
    have hiff := (detectConsole_wii_of_text behind hin hcond hsame).trans hself.symm
    rw [detectConsole_eq hin, detectConsole_eq (hsame.inside hin), sectionsConsole,
      sectionsConsole] at hiff ⊢
    split_ifs at hiff ⊢ <;> simp_all

/-- Four bytes behind a header that gives them as the section whose offset and size lie there. -/
def magicFile (offAt sizeAt : ℕ) : List Byte :=
  overwrite (overwrite (List.replicate hdrSize 0) offAt (bytes .big 0x100#32)) sizeAt
    (bytes .big 4#32) ++ bytes .big wiiMagic

theorem textOnly_magicText : TextOnly (fun _ => none) (magicFile textOffAt textSizeAt) :=
  (textOnly_iff ⟨by decide +kernel,by decide +kernel⟩).mpr (.inl (by decide +kernel))

/-- A game whose first data section holds the magic value is taken for a Wii one. -/
theorem magicData_found : ¬ ∀ behind file, SectionsInside file → TextOnly behind file := by
  intro h
  have hin : SectionsInside (magicFile dataOffAt dataSizeAt) :=
    ⟨by decide +kernel,by decide +kernel⟩
  have hwii : detectConsole (fun _ => none) (magicFile dataOffAt dataSizeAt) = some .wii := by
    decide +kernel
  have htext : ¬ TextMagic (magicFile dataOffAt dataSizeAt) := by decide +kernel
  exact htext ((h _ _ hin).wii.mp hwii)

end DolTools
