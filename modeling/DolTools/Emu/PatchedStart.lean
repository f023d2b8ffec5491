import DolTools.Dol.PatchRuns
import DolTools.Emu.LoadOrder
import DolTools.Emu.Program

/-! What the start of a guest takes from the file: its length, the words about the sections, and
the bytes of the sections. The word of the entry point is passed on, and the words of the BSS are
not looked at, so that a patch of these does not change what is loaded. -/
namespace DolTools
open BigEndian ByteOrder

/-- The word is about a section. -/
def HdrField.ofSection : HdrField → Bool
  | .text _ _ => true
  | .data _ _ => true
  | _ => false

/-- The two files have the same sections. -/
structure SameSections (a b : List Byte) : Prop where
  length : b.length = a.length
  words : ∀ f : HdrField, f.ofSection = true → word (ofList b) f.pos = word (ofList a) f.pos
  bytes : ∀ sec ∈ (fileHdr a).sections, ∀ p, sec.HoldsByte p → ofList b p = ofList a p

def RunExit.withEntry (entry : Word) : RunExit → RunExit
  | .entered l => .entered { l with entry := entry }
  | r => r

section

variable {a b : List Byte} {k : Kernel} {env : BootEnv} {ram : RamBytes} {sec : Section}
  {behind : ℕ → Option Byte}

lemma fileHdr_get (f : HdrField) : (fileHdr a).get f = word (ofList a) f.pos :=
  byteswap_overlay_get .big (ofList a) f

lemma fileHdr_entry : (fileHdr a).entry = word (ofList a) HdrField.entry.pos := fileHdr_get .entry

lemma SameSections.get (h : SameSections a b) {f : HdrField} (hf : f.ofSection = true) :
    (fileHdr b).get f = (fileHdr a).get f := by
  rw [fileHdr_get, fileHdr_get, h.words f hf]

lemma SameSections.textSection (h : SameSections a b) (i : Fin 7) :
    (fileHdr b).textSection i = (fileHdr a).textSection i := by
  rw [DolHdr.textSection, DolHdr.textSection, Section.mk.injEq]
  exact ⟨h.get (f := .text .addr i) rfl,h.get (f := .text .size i) rfl,
    h.get (f := .text .offset i) rfl⟩

lemma SameSections.dataSection (h : SameSections a b) (i : Fin 11) :
    (fileHdr b).dataSection i = (fileHdr a).dataSection i := by
  rw [DolHdr.dataSection, DolHdr.dataSection, Section.mk.injEq]
  exact ⟨h.get (f := .data .addr i) rfl,h.get (f := .data .size i) rfl,
    h.get (f := .data .offset i) rfl⟩

lemma SameSections.sections (h : SameSections a b) :
    (fileHdr b).sections = (fileHdr a).sections := by
  simp only [DolHdr.sections, DolHdr.textSections, DolHdr.dataSections, funext h.textSection,
    funext h.dataSection]

/-- A byte of a section is mapped from both files in the same way. -/
lemma SameSections.mappedByte (h : SameSections a b) (hsec : sec ∈ (fileHdr a).sections) {p : ℕ}
    (hp : sec.HoldsByte p) : mappedByte behind b p = mappedByte behind a p := by
  have hbyte : b.getD p 0 = a.getD p 0 := h.bytes sec hsec p hp
  rw [DolTools.mappedByte, DolTools.mappedByte, fileEnd, fileEnd, h.length, hbyte]

/-! The search. -/

lemma SameSections.scanned (h : SameSections a b) (i : ℕ) : scanned b i = scanned a i := by
  unfold DolTools.scanned
  split
  · exact h.textSection _
  · exact h.dataSection 0

lemma SameSections.readInstr (h : SameSections a b) (hsec : sec ∈ (fileHdr a).sections) {j : ℕ}
    (hj : j < sec.size.toNat / 4) :
    readInstr behind b (sec.off.toNat + 4*j) = readInstr behind a (sec.off.toNat + 4*j) := by
  have hread : ∀ i ∈ List.range 4, DolTools.mappedByte behind b (sec.off.toNat + 4*j + i) =
      DolTools.mappedByte behind a (sec.off.toNat + 4*j + i) := by
    intro i hi
    have hi' := List.mem_range.mp hi
    exact h.mappedByte hsec ⟨by omega,by omega⟩
  rw [DolTools.readInstr, DolTools.readInstr, PartialReads.mapM_congr hread]

lemma SameSections.scanSection (h : SameSections a b) {i : ℕ} (hi : i < 8) :
    scanSection behind b i = scanSection behind a i := by
  obtain ⟨hsec,hsize,hoff⟩ := @scanned_spec a i hi
  obtain ⟨-,hsize',hoff'⟩ := @scanned_spec b i hi
  unfold DolTools.scanSection
  rw [hsize', hoff', h.scanned, hsize, hoff]
  apply FirstMatch.anyM_congr
  intro j hj
  rw [h.readInstr hsec (List.mem_range.mp hj)]

lemma SameSections.detectConsole (h : SameSections a b) :
    detectConsole behind b = detectConsole behind a := by
  rw [DolTools.detectConsole, DolTools.detectConsole,
    FirstMatch.anyM_congr (fun i hi => h.scanSection (List.mem_range.mp hi))]

/-! The loading. -/

lemma SameSections.loadStores (h : SameSections a b) :
    loadStores behind b = loadStores behind a := by
  rw [DolTools.loadStores, DolTools.loadStores, h.sections]
  apply List.flatMap_congr
  intro sec hsec
  have hread : ∀ i ∈ List.range sec.size.toNat,
      DolTools.mappedByte behind b (sec.off.toNat + i) =
        DolTools.mappedByte behind a (sec.off.toNat + i) := by
    intro i hi
    have hi' := List.mem_range.mp hi
    exact h.mappedByte hsec ⟨by omega,by omega⟩
  rw [sectionStores, sectionStores, List.map_congr_left (fun i hi => by rw [hread i hi])]

lemma SameSections.readable (h : SameSections a b) (hsec : sec ∈ (fileHdr a).sections) :
    sec.Readable behind b ↔ sec.Readable behind a := by
  exact forall₂_congr (fun i hi => by rw [h.mappedByte hsec ⟨by omega,by omega⟩])

/-- Both files are copied in the same way. -/
lemma SameSections.copySections (h : SameSections a b) (space : AddressMap Backing) :
    copySections behind b space (fileHdr b) ram = copySections behind a space (fileHdr a) ram := by
  apply Option.ext
  intro ram'
  rw [copySections_stores, copySections_stores, h.sections, h.loadStores]
  apply and_congr_left'
  exact forall₂_congr (fun sec hsec => imp_congr_right (fun _ => h.readable hsec))

lemma SameSections.isBs1 (h : SameSections a b) : isBs1 (fileHdr b) = isBs1 (fileHdr a) := by
  rw [DolTools.isBs1, DolTools.isBs1, show (fileHdr b).textAddr 0 = (fileHdr a).textAddr 0 from
    h.get (f := .text .addr 0) rfl]

lemma SameSections.isEmpty (h : SameSections a b) : b.isEmpty = a.isEmpty := by
  rw [Bool.eq_iff_iff, List.isEmpty_iff_length_eq_zero, List.isEmpty_iff_length_eq_zero, h.length]

lemma SameSections.loadMain (h : SameSections a b) : loadMain k env b ram =
    (loadMain k env a ram).map (fun l => { l with entry := entryPoint (fileHdr b) }) := by
  have henv : loadEnv env (fileHdr b) = loadEnv env (fileHdr a) := by
    rw [loadEnv, loadEnv, h.isBs1]
  unfold DolTools.loadMain
  dsimp only
  rw [h.isEmpty, henv]
  split_ifs
  · rfl
  · cases loadStart k (loadEnv env (fileHdr a)) with
    | none => rfl
    | some s =>
      rw [Option.bind_some, Option.bind_some, h.copySections]
      cases DolTools.copySections (loadEnv env (fileHdr a)).behind a s.host.space (fileHdr a)
        ram with
      | none => rfl
      | some ram' =>
        rw [Option.bind_some, Option.bind_some, Option.map_map]
        rfl

lemma SameSections.detectMain (h : SameSections a b) : detectMain k env b ram =
    (detectMain k env a ram).map (fun l => { l with entry := entryPoint (fileHdr b) }) := by
  rw [DolTools.detectMain, DolTools.detectMain, h.detectConsole]
  cases DolTools.detectConsole env.behind a with
  | none => rfl
  | some c => exact h.loadMain

lemma withEntry_fileError {entry : Word} {text : String} {path : List Char} {exit : RunExit}
    (h : exit.withEntry entry = exit) :
    (fileError text path exit).withEntry entry = fileError text path exit := by
  unfold fileError
  split
  · exact h
  · rfl

lemma SameSections.runOn {env : MainEnv} {hostType : ConsoleType} {path : List Char}
    (h : SameSections a b) : runOn k env hostType path b ram =
      (runOn k env hostType path a ram).withEntry (entryPoint (fileHdr b)) := by
  unfold DolTools.runOn
  rw [h.isEmpty, h.detectMain]
  split_ifs
  · rfl
  · exact (withEntry_fileError rfl).symm
  · exact (withEntry_fileError rfl).symm
  · exact (withEntry_fileError rfl).symm
  · cases DolTools.detectMain k { env.boot with hostType := hostType } a ram <;> rfl

end

/-- What `main` does is decided by the sections of the file, but for the entry point. -/
theorem runMain_sections {a b : List Byte} (h : SameSections a b) (k : Kernel) (env : MainEnv)
    (argv : List (List Char)) (ram : RamBytes) : runMain k env argv b ram =
      (runMain k env argv a ram).withEntry (entryPoint (fileHdr b)) := by
  unfold runMain
  split
  · cases env.model with
    | none => split_ifs <;> rfl
    | some model =>
      dsimp only
      split_ifs
      · rfl
      · rfl
      · exact h.runOn
  · rfl

section

variable {a b : List Byte} {calls : List PatchCall} {k : Kernel} {env : MainEnv}
  {argv : List (List Char)} {ram : RamBytes} {i : ℕ}

lemma SameSections.refl (a : List Byte) : SameSections a a :=
  ⟨rfl,fun _ _ => rfl,fun _ _ _ _ => rfl⟩

lemma ofList_patchRun (h : ∀ c ∈ calls, ∀ b, ¬ c.Hits i b) :
    ofList (patchRun a calls).2 i = ofList a i := by
  rw [ofList, ofList, List.getD_eq_getElem?_getD, List.getD_eq_getElem?_getD, patchRun_snd,
    patchRun_frame h]

/-- Behind calls that return 0 a field has the value that they leave. -/
lemma word_patchRun {f : HdrField} {v : Word} (hlen : hdrSize ≤ a.length)
    (hok : ∀ e ∈ (patchRun a calls).1, e.code = 0) :
    word (ofList (patchRun a calls).2) f.pos = v ↔ Leaves calls f (word (ofList a) f.pos) v := by
  rw [patchRun_snd]
  exact word_eq_iff (fun c hc => (patchRun_code hok hc).2) hlen

/-- The words that are about no section lie together, before the padding. -/
lemma pos_of_not_section {f : HdrField} (hf : f.ofSection = false) : bssAddrAt ≤ f.pos := by
  have hlayout := layout
  cases f with
  | text attr i => contradiction
  | data attr i => contradiction
  | _ => simp only [HdrField.pos]; omega

/-- Calls that are about no section leave the sections, unless one of these goes over the words
that are patched. -/
lemma sameSections_patchRun (hno : ∀ c ∈ calls, ∀ f v, c.Asks f v → f.ofSection = false)
    (hapart : ∀ sec ∈ (fileHdr a).sections, ∀ p, sec.HoldsByte p → p < bssAddrAt ∨ paddingAt ≤ p) :
    SameSections a (patchRun a calls).2 where
  length := by rw [patchRun_snd, patchRun_length]
  words f hf := by
    rw [patchRun_snd]
    apply word_of_frame
    intro c hc v hasks
    rw [hno c hc f v hasks] at hf
    contradiction
  bytes sec hsec p hp := by
    apply ofList_patchRun
    intro c hc b hhits
    have hlt := hhits.lt
    obtain ⟨f,v,j,hj,hasks,-,rfl,-⟩ := hhits
    have hpos := pos_of_not_section (hno c hc f v hasks)
    have hout := hapart sec hsec _ hp
    omega

/-- A file with the words that the calls leave, and the same bytes behind the header, has the
sections of the patched file. -/
lemma sameSections_of_leaves (hlen : hdrSize ≤ a.length)
    (hok : ∀ e ∈ (patchRun a calls).1, e.code = 0) (hlenb : b.length = a.length)
    (hleaves : ∀ f : HdrField, f.ofSection = true →
      Leaves calls f (word (ofList a) f.pos) (word (ofList b) f.pos))
    (hbehind : b.drop hdrSize = a.drop hdrSize)
    (hoff : ∀ sec ∈ (fileHdr b).sections, sec.size ≠ 0 → hdrSize ≤ sec.off.toNat) :
    SameSections b (patchRun a calls).2 where
  length := by rw [patchRun_snd, patchRun_length, hlenb]
  words f hf := (word_patchRun hlen hok).mpr (hleaves f hf)
  bytes sec hsec p hp := by
    have hlayout := layout
    have hp' : sec.off.toNat ≤ p ∧ p < sec.off.toNat + sec.size.toNat := hp
    have hsize : sec.size ≠ 0 := by
      intro h0
      rw [h0] at hp'
      exact absurd hp'.2 (Nat.not_lt.mpr hp'.1)
    have hlow := (hoff sec hsec hsize).trans hp'.1
    rw [ofList_patchRun (fun c _ b hb => absurd hb.lt (by omega))]
    obtain ⟨d,rfl⟩ := Nat.exists_eq_add_of_le hlow
    have hbyte := congrArg (fun l : List Byte => l[d]?) hbehind
    simp only [List.getElem?_drop] at hbyte
    rw [ofList, ofList, List.getD_eq_getElem?_getD, List.getD_eq_getElem?_getD, hbyte]

end

/-- Calls of `dol-patch` about the BSS and the entry point, however they end, change nothing of
what `dol-run` loads and where it stops. The guest is entered at the word that they leave in the
header, which is the value of the last one about it if all succeed; with BS1 they do not even
change that. -/
theorem entry_of_patches {a : List Byte} {calls : List PatchCall}
    (hno : ∀ c ∈ calls, ∀ f v, c.Asks f v → f.ofSection = false)
    (hapart : ∀ sec ∈ (fileHdr a).sections, ∀ p, sec.HoldsByte p → p < bssAddrAt ∨ paddingAt ≤ p) :
    (∀ k env argv ram, runMain k env argv (patchRun a calls).2 ram =
      (runMain k env argv a ram).withEntry (entryPoint (fileHdr (patchRun a calls).2))) ∧
    (isBs1 (fileHdr a) = true → entryPoint (fileHdr (patchRun a calls).2) = 0x00003400#32) ∧
    (isBs1 (fileHdr a) = false → entryPoint (fileHdr (patchRun a calls).2) =
      word (ofList (patchRun a calls).2) entryAt) ∧
    (isBs1 (fileHdr a) = false → hdrSize ≤ a.length →
      (∀ e ∈ (patchRun a calls).1, e.code = 0) →
        Leaves calls .entry (fileHdr a).entry (entryPoint (fileHdr (patchRun a calls).2))) := by
  have hsame := sameSections_patchRun hno hapart
  have hentry : isBs1 (fileHdr a) = false → entryPoint (fileHdr (patchRun a calls).2) =
      word (ofList (patchRun a calls).2) HdrField.entry.pos := by
    intro hbs1
    rw [entryPoint, hsame.isBs1, if_neg (by simp [hbs1]), fileHdr_entry]
  refine ⟨fun k env argv ram => runMain_sections hsame k env argv ram,?_,hentry,?_⟩
  · intro hbs1
    rw [entryPoint, hsame.isBs1, if_pos hbs1]
  · intro hbs1 hlen hok
    rw [hentry hbs1, fileHdr_entry]
    exact (word_patchRun hlen hok).mp rfl

lemma dolFile_apart : ∀ sec ∈ (fileHdr (dolFile 0x80003100#32)).sections, sec.size ≠ 0 →
    hdrSize ≤ sec.off.toNat := by
  have hsecs : (fileHdr (dolFile 0x80003100#32)).sections =
      ⟨0x80003100#32,4,0x100⟩::List.replicate 17 ⟨0,0,0⟩ := by decide +kernel
  intro sec hsec hsize
  rw [hsecs] at hsec
  rcases List.mem_cons.mp hsec with rfl | hsec
  · decide
  · rw [List.eq_of_mem_replicate hsec] at hsize
    contradiction

/-- A call about the entry point that fails behind two bytes: the guest is entered at its upper
half. -/
theorem entry_of_patches_half : ∃ l, runMain consoleKernel gcnHost
    ["dol-run".toList, "a".toList] (patchRun (dolFile 0x80003100#32) [entryCall 2]).2
      (fun _ _ => 0) = .entered l ∧ l.entry = 0x80000000#32 := by
  have hno : ∀ c ∈ [entryCall 2], ∀ f v, c.Asks f v → f.ofSection = false := by
    intro c hc f v hasks
    obtain rfl := List.mem_singleton.mp hc
    rw [(hasks.unique (entryCall_asks 2)).1]
    rfl
  obtain ⟨hrun,-,hentry,-⟩ := entry_of_patches (a := dolFile 0x80003100#32) hno (by
    intro sec hsec p hp
    have hsize : sec.size ≠ 0 := by
      intro h0
      rw [Section.HoldsByte, h0] at hp
      exact absurd hp.2 (Nat.not_lt.mpr hp.1)
    have hlayout := layout
    have hlow := (dolFile_apart sec hsec hsize).trans hp.1
    omega)
  have hword : word (ofList (patchRun (dolFile 0x80003100#32) [entryCall 2]).2) entryAt =
      0x80000000#32 := by decide +kernel
  obtain ⟨l,hl⟩ := RunExit.exists_entered (r := runMain consoleKernel gcnHost
    ["dol-run".toList, "a".toList] (dolFile 0x80003100#32) (fun _ _ => 0)) (by decide +kernel)
  rw [hrun, hl, hentry (by decide +kernel), hword]
  exact ⟨_,rfl,rfl⟩

/-- If every call returns 0, `dol-run` does with the patched file what it does with each file
that has the words which the calls leave, but for those of the BSS, and the same sections behind
the header. -/
theorem start_of_patches {a b : List Byte} {calls : List PatchCall} (hlen : hdrSize ≤ a.length)
    (hok : ∀ e ∈ (patchRun a calls).1, e.code = 0) (hlenb : b.length = a.length)
    (hleaves : ∀ f : HdrField, f ≠ .bssAddr → f ≠ .bssSize →
      Leaves calls f (word (ofList a) f.pos) (word (ofList b) f.pos))
    (hbehind : b.drop hdrSize = a.drop hdrSize)
    (hoff : ∀ sec ∈ (fileHdr b).sections, sec.size ≠ 0 → hdrSize ≤ sec.off.toNat) (k : Kernel)
    (env : MainEnv) (argv : List (List Char)) (ram : RamBytes) :
    runMain k env argv (patchRun a calls).2 ram = runMain k env argv b ram := by
  have hsame : SameSections b (patchRun a calls).2 := by
    refine sameSections_of_leaves hlen hok hlenb (fun f hf => hleaves f ?_ ?_) hbehind hoff
    · rintro rfl
      contradiction
    · rintro rfl
      contradiction
  have hentry : (fileHdr (patchRun a calls).2).entry = (fileHdr b).entry := by
    rw [fileHdr_entry, fileHdr_entry]
    exact (word_patchRun hlen hok).mpr (hleaves .entry HdrField.noConfusion HdrField.noConfusion)
  rw [runMain_sections hsame, entryPoint, hsame.isBs1, hentry, ← entryPoint]
  exact (runMain_sections (.refl b) k env argv ram).symm

/-- The file with another entry point, and with a byte in the padding. -/
def paddedFile : List Byte :=
  overwrite (patchRun (dolFile 0x80003100#32) [entryCall 4]).2 paddingAt [1]

/-- The padding of the patched file can be anything. -/
theorem start_of_patches_padding : paddedFile ≠ (patchRun (dolFile 0x80003100#32) [entryCall 4]).2 ∧
    runMain consoleKernel gcnHost ["dol-run".toList, "a".toList]
      (patchRun (dolFile 0x80003100#32) [entryCall 4]).2 (fun _ _ => 0) =
    runMain consoleKernel gcnHost ["dol-run".toList, "a".toList] paddedFile (fun _ _ => 0) := by
  refine ⟨by decide +kernel,?_⟩
  have hlen : hdrSize ≤ (dolFile 0x80003100#32).length := by decide +kernel
  have hok : ∀ e ∈ (patchRun (dolFile 0x80003100#32) [entryCall 4]).1, e.code = 0 := by
    decide +kernel
  have hwords : ∀ f : HdrField,
      word (ofList (patchRun (dolFile 0x80003100#32) [entryCall 4]).2) f.pos =
        word (ofList paddedFile) f.pos :=
    (words_eq_iff (by decide +kernel) (by decide +kernel)).mpr (by decide +kernel)
  have hsecs : (fileHdr paddedFile).sections = (fileHdr (dolFile 0x80003100#32)).sections := by
    decide +kernel
  refine start_of_patches hlen hok (by decide +kernel)
    (fun f _ _ => (word_patchRun hlen hok).mp (hwords f)) (by decide +kernel) ?_ _ _ _ _
  rw [hsecs]
  exact dolFile_apart

end DolTools
