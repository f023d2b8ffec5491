import DolTools.Emu.Detection

/-! Which bytes of the mapped file `main` reads: the header, the words that the search for the
console type comes to, and the sections that are copied. Nothing compares them with the size of
the file. -/
namespace DolTools
open BigEndian ByteOrder FirstMatch

/-- The words of the sections, in the order of the search. -/
def searchAddrs (file : List Byte) : List ℕ :=
  (List.range 8).flatMap (fun i => (List.range ((textSizeIn file i).toNat / 4)).map
    (fun j => (textOffIn file i).toNat + 4*j))

/-- The words that the search reads, up to the magic value or a fault, and how it ends. -/
def searchTrace (behind : ℕ → Option Byte) (file : List Byte) : List ℕ → List ℕ × Option Bool
  | [] => ([],some false)
  | a::as =>
    match (readInstr behind file a).map isWiiInstr with
    | some false => (a::(searchTrace behind file as).1,(searchTrace behind file as).2)
    | r => ([a],r)

/-- The sections that `memcpy` is called for, up to a fault, and what the RAMs hold then. -/
def copyTrace (behind : ℕ → Option Byte) (file : List Byte) (space : AddressMap Backing) :
    RamBytes → List Section → List Section × Option RamBytes
  | ram, [] => ([],some ram)
  | ram, sec::secs =>
    let called := if sec.skipped then [] else [sec]
    match copySection behind file space ram sec with
    | none => (called,none)
    | some ram => (called ++ (copyTrace behind file space ram secs).1,
        (copyTrace behind file space ram secs).2)

/-- A read of `len` bytes at a distance from the start of the file. The sections are copied if the
search ends and the set-up behind it gives an address space to copy into. -/
inductive Reads (behind : ℕ → Option Byte) (file : List Byte)
    (start : Option (AddressMap Backing)) (ram : RamBytes) : ℕ → ℕ → Prop
  | header (f : HdrField) : Reads behind file start ram f.pos 4
  | search {a : ℕ} (h : a ∈ (searchTrace behind file (searchAddrs file)).1) :
    Reads behind file start ram a 4
  | copy {space : AddressMap Backing} {sec : Section}
      (ends : (detectConsole behind file).isSome = true) (copies : start = some space)
      (h : sec ∈ (copyTrace behind file space ram (fileHdr file).sections).1) :
    Reads behind file start ram sec.off.toNat sec.size.toNat

/-- Every read lies inside the file. -/
def ReadsInside (behind : ℕ → Option Byte) (file : List Byte)
    (start : Option (AddressMap Backing)) (ram : RamBytes) : Prop :=
  ∀ a len, Reads behind file start ram a len → a + len ≤ file.length

/-- All bytes that the section is loaded to can be written. -/
def Writable (space : AddressMap Backing) (sec : Section) : Prop :=
  ∀ i < sec.size.toNat, (space (sec.addr + BitVec.ofNat 32 i).toNat).isSome = true

/-- The words up to the first magic value lie inside the file. -/
def WordsInside (file : List Byte) (as : List ℕ) : Prop :=
  ∀ pre a post, as = pre ++ a::post →
    (∀ b ∈ pre, isWiiInstr (word (ofList file) b) = false) → a + 4 ≤ file.length

/-- The sections up to the first that cannot be loaded lie inside the file, but for those that are
skipped. -/
def CopiesInside (file : List Byte) (space : AddressMap Backing) (secs : List Section) : Prop :=
  ∀ pre sec post, secs = pre ++ sec::post → sec.skipped = false →
    (∀ sec' ∈ pre, sec'.skipped = false → Writable space sec') →
      sec.off.toNat + sec.size.toNat ≤ file.length

/-- The file holds its header, the words that are searched, and the sections that are copied. -/
structure FileHolds (file : List Byte) (start : Option (AddressMap Backing)) : Prop where
  header : paddingAt ≤ file.length
  words : WordsInside file (searchAddrs file)
  sections : ∀ space, start = some space → CopiesInside file space (fileHdr file).sections

section

variable {behind : ℕ → Option Byte} {file : List Byte} {space : AddressMap Backing}
  {ram : RamBytes} {sec : Section} {secs : List Section} {as : List ℕ} {a : ℕ}
  {start : Option (AddressMap Backing)}

lemma searchTrace_snd (as : List ℕ) : (searchTrace behind file as).2 =
    as.anyM (fun a => (readInstr behind file a).map isWiiInstr) := by
  induction as with
  | nil => rfl
  | cons a as ih =>
    rw [searchTrace, List.anyM_cons]
    cases (readInstr behind file a).map isWiiInstr with
    | none => rfl
    | some b =>
      cases b with
      | true => rfl
      | false => exact ih

/-- The trace belongs to the search of `main`. -/
theorem detectConsole_eq_trace (behind : ℕ → Option Byte) (file : List Byte) :
    detectConsole behind file = (searchTrace behind file (searchAddrs file)).2.map
      (fun wii => if wii then .wii else .gamecube) := by
  rw [searchTrace_snd, searchAddrs, anyM_flatMap, detectConsole]
  congr 2
  funext i
  rw [anyM_map, scanSection]

lemma copyTrace_snd (ram : RamBytes) (secs : List Section) :
    (copyTrace behind file space ram secs).2 =
      secs.foldlM (copySection behind file space) ram := by
  induction secs generalizing ram with
  | nil => rfl
  | cons sec secs ih =>
    rw [copyTrace, List.foldlM_cons]
    cases copySection behind file space ram sec with
    | none => rfl
    | some ram => exact ih ram

/-- The trace belongs to the copy loops of `main`. -/
theorem copySections_eq_trace (behind : ℕ → Option Byte) (file : List Byte)
    (space : AddressMap Backing) (hdr : DolHdr) (ram : RamBytes) :
    copySections behind file space hdr ram = (copyTrace behind file space ram hdr.sections).2 := by
  rw [copyTrace_snd, DolHdr.sections, List.foldlM_append]
  rfl

lemma wordsInside_cons : WordsInside file (a::as) ↔ a + 4 ≤ file.length ∧
    (isWiiInstr (word (ofList file) a) = false → WordsInside file as) := by
  constructor
  · intro h
    refine ⟨h [] a as rfl (fun b hb => absurd hb List.not_mem_nil),?_⟩
    intro hno pre b post heq hpre
    apply h (a::pre) b post (by rw [heq, List.cons_append])
    intro c hc
    rcases List.mem_cons.mp hc with rfl | hc
    · exact hno
    · exact hpre c hc
  · rintro ⟨ha,hrest⟩ pre b post heq hpre
    cases pre with
    | nil =>
      obtain ⟨rfl,-⟩ := List.cons.inj heq
      exact ha
    | cons c pre =>
      obtain ⟨rfl,htail⟩ := List.cons.inj heq
      exact hrest (hpre a List.mem_cons_self) pre b post htail
        (fun d hd => hpre d (List.mem_cons_of_mem a hd))

/-- The search reads inside the file just when the words up to the first magic value lie there. -/
lemma searchTrace_inside : (∀ a ∈ (searchTrace behind file as).1, a + 4 ≤ file.length) ↔
    WordsInside file as := by
  induction as with
  | nil => exact iff_of_true (fun a ha => absurd ha List.not_mem_nil) (by
      intro pre a post heq
      simp at heq)
  | cons a as ih =>
    rw [wordsInside_cons, ← ih]
    by_cases ha : a + 4 ≤ file.length
    · rw [searchTrace, readInstr_eq ha, Option.map_some]
      cases isWiiInstr (word (ofList file) a) <;> simp [ha]
    · refine iff_of_false (fun h => ha (h a ?_)) (fun h => ha h.1)
      rw [searchTrace]
      split <;> exact List.mem_cons_self

/-- A search inside the file does not fault. -/
lemma searchTrace_isSome (h : WordsInside file as) : (searchTrace behind file as).2.isSome = true := by
  induction as with
  | nil => rfl
  | cons a as ih =>
    obtain ⟨ha,hrest⟩ := wordsInside_cons.mp h
    rw [searchTrace, readInstr_eq ha, Option.map_some]
    cases hw : isWiiInstr (word (ofList file) a) with
    | true => rfl
    | false => exact ih (hrest hw)

lemma memcpy_isSome {src : List Byte} {dest : Word} : (memcpy space dest src ram).isSome = true ↔
    ∀ i < src.length, (space (dest + BitVec.ofNat 32 i).toNat).isSome = true := by
  induction src generalizing dest ram with
  | nil => exact iff_of_true rfl (fun i hi => absurd hi (Nat.not_lt_zero i))
  | cons b src ih =>
    have hnext : ∀ i, dest + BitVec.ofNat 32 (i+1) = dest + 1#32 + BitVec.ofNat 32 i := by
      intro i
      rw [BitVec.add_assoc, Nat.add_comm, BitVec.ofNat_add]
    have hzero : dest + BitVec.ofNat 32 0 = dest := BitVec.add_zero dest
    rw [memcpy, storeByte]
    cases hx : space dest.toNat with
    | none =>
      refine iff_of_false Bool.false_ne_true (fun h => ?_)
      have h0 := h 0 (Nat.succ_pos _)
      rw [hzero, hx] at h0
      contradiction
    | some x =>
      rw [Option.map_some, Option.bind_some, ih]
      constructor
      · intro h i hi
        cases i with
        | zero => rw [hzero, hx]; rfl
        | succ i =>
          rw [hnext]
          exact h i (Nat.lt_of_succ_lt_succ hi)
      · intro h i hi
        rw [← hnext]
        exact h (i+1) (Nat.succ_lt_succ hi)

/-- A section inside the file is copied if its place can be written. -/
lemma copySection_isSome (hskip : sec.skipped = false)
    (hin : sec.off.toNat + sec.size.toNat ≤ file.length) :
    (copySection behind file space ram sec).isSome = true ↔ Writable space sec := by
  obtain ⟨src,hsrc,hlen,-⟩ := exists_sectionBytes behind hin
  rw [copySection, hskip, if_neg Bool.false_ne_true, hsrc, Option.bind_some, memcpy_isSome, hlen,
    Writable]

lemma copiesInside_cons : CopiesInside file space (sec::secs) ↔
    (sec.skipped = false → sec.off.toNat + sec.size.toNat ≤ file.length) ∧
      ((sec.skipped = false → Writable space sec) → CopiesInside file space secs) := by
  constructor
  · intro h
    refine ⟨fun hskip => h [] sec secs rfl hskip (fun _ hmem => absurd hmem List.not_mem_nil),?_⟩
    intro hsec pre sec' post heq hskip hpre
    apply h (sec::pre) sec' post (by rw [heq, List.cons_append]) hskip
    intro sec'' hmem
    rcases List.mem_cons.mp hmem with rfl | hmem
    · exact hsec
    · exact hpre sec'' hmem
  · rintro ⟨hsec,hrest⟩ pre sec' post heq hskip hpre
    cases pre with
    | nil =>
      obtain ⟨rfl,-⟩ := List.cons.inj heq
      exact hsec hskip
    | cons sec'' pre =>
      obtain ⟨rfl,htail⟩ := List.cons.inj heq
      exact hrest (hpre sec List.mem_cons_self) pre sec' post htail hskip
        (fun s hs => hpre s (List.mem_cons_of_mem sec hs))

/-- The sections are read inside the file just when those up to the first that cannot be loaded
lie there. -/
lemma copyTrace_inside : (∀ sec ∈ (copyTrace behind file space ram secs).1,
    sec.off.toNat + sec.size.toNat ≤ file.length) ↔ CopiesInside file space secs := by
  induction secs generalizing ram with
  | nil => exact iff_of_true (fun sec hsec => absurd hsec List.not_mem_nil) (by
      intro pre sec post heq
      simp at heq)
  | cons sec secs ih =>
    rw [copiesInside_cons, copyTrace]
    cases hskip : sec.skipped with
    | true =>
      have hcopy : copySection behind file space ram sec = some ram := if_pos hskip
      rw [hcopy]
      dsimp only
      rw [if_pos rfl, List.nil_append, ih]
      simp
    | false =>
      by_cases hin : sec.off.toNat + sec.size.toNat ≤ file.length
      · have hsome : (copySection behind file space ram sec).isSome = true ↔ Writable space sec :=
          copySection_isSome hskip hin
        cases hcopy : copySection behind file space ram sec with
        | none =>
          rw [hcopy] at hsome
          have hno : ¬ Writable space sec := fun h => Bool.false_ne_true (hsome.mpr h)
          simp [hin, hno]
        | some ram' =>
          rw [hcopy] at hsome
          have hyes : Writable space sec := hsome.mp rfl
          dsimp only
          rw [if_neg Bool.false_ne_true, List.singleton_append, List.forall_mem_cons, ih]
          simp [hin, hyes]
      · refine iff_of_false (fun h => hin (h sec ?_)) (fun h => hin (h.1 rfl))
        cases copySection behind file space ram sec <;> simp

lemma pos_entry : (HdrField.entry).pos + 4 = paddingAt := rfl

end

/-- The reads lie inside the file just when it holds its header, the words up to the first magic
value, and the sections that are copied. -/
theorem readsInside_iff (behind : ℕ → Option Byte) (file : List Byte)
    (start : Option (AddressMap Backing)) (ram : RamBytes) :
    ReadsInside behind file start ram ↔ FileHolds file start := by
  constructor
  · intro h
    have hwords : WordsInside file (searchAddrs file) :=
      searchTrace_inside.mp (fun a ha => h a 4 (.search ha))
    refine ⟨pos_entry ▸ h _ 4 (.header .entry),hwords,?_⟩
    intro space hstart
    have hends : (detectConsole behind file).isSome = true := by
      rw [detectConsole_eq_trace, Option.isSome_map]
      exact searchTrace_isSome hwords
    exact copyTrace_inside.mp (fun sec hsec => h _ _ (.copy hends hstart hsec))
  · rintro ⟨hheader,hwords,hsections⟩ a len hread
    cases hread with
    | header f => exact f.pos_lt.trans hheader
    | search ha => exact searchTrace_inside.mpr hwords a ha
    | copy ends copies hsec => exact copyTrace_inside.mpr (hsections _ copies) _ hsec

/-- A file of one byte is mapped, and its header read. -/
theorem short_file_read :
    ¬ ∀ behind file start ram, file ≠ [] → ReadsInside behind file start ram := by
  intro h
  have hin := h (fun _ => none) [0] none (fun _ _ => 0) (by decide) _ 4 (.header .entry)
  exact absurd hin (by decide)

end DolTools
