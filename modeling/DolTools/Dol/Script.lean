import DolTools.Dol.PatchRuns

/-! From one tool to the other: the names and the texts that `dol-info` shows are arguments that
`dol-patch` takes, so the output for one file gives another file the same header. -/
namespace DolTools
open BigEndian ByteOrder CText CFormat LastWrite

/-- The name of a field for `dol-patch`. -/
def fieldName : HdrField → List Char
  | .text attr i => "text".toList ++ decimal i.val ++ attr.suffix
  | .data attr i => "data".toList ++ decimal i.val ++ attr.suffix
  | .bssAddr => "bss_addr".toList
  | .bssSize => "bss_size".toList
  | .entry => "entry".toList

/-- The fields in the order of `dol-info`. -/
def infoFields : List HdrField := infoLayout.flatMap (·.2)

/-- The texts of the values that an output of `dol-info` shows, each with its field. -/
def shownValues (out : List Char) : List (HdrField × List Char) := infoFields.zip (hexNumbers out)

/-- A call that gives the field the value that is shown for it, as the output has it; every system
call succeeds. -/
structure PatchCall.Enters (c : PatchCall) (out : List Char) (f : HdrField) : Prop where
  args : ∃ prog name text, c.argv = [prog, name, fieldName f, text] ∧ name ≠ [] ∧
    (f,text) ∈ shownValues out
  opens : c.env.opens = true
  stats : c.env.stats = true
  written : c.env.written = 4
  closes : c.env.closes = true

section

variable {c : PatchCall} {f g : HdrField} {hdr : DolHdr} {text out : List Char}
  {calls : List PatchCall} {file : List Byte}

lemma denotes_decimal (n : ℕ) : Denotes (decimal n) n :=
  ⟨Nat.toDigits_ne_nil,fun _ hc => isDigit_decimal hc,ofDigits_decimal n⟩

lemma names_fieldName (f : HdrField) : Names (fieldName f) f := by
  cases f with
  | text attr i => exact .text attr (denotes_decimal i.val)
  | data attr i => exact .data attr (denotes_decimal i.val)
  | bssAddr => exact .bssAddr
  | bssSize => exact .bssSize
  | entry => exact .entry

lemma infoLayout_marked : ∀ l ∈ infoLayout, marked l.1 = true := by decide

lemma infoLayout_width : ∀ l ∈ infoLayout, ∀ d ∈ l.1, d.width ≤ 8 := by decide

lemma shownValues_infoText (hdr : DolHdr) : shownValues (infoText hdr) =
    infoLayout.flatMap (fun l => l.2.zip (printed l.1 (l.2.map fun f => (hdr.get f).toNat))) :=
  zip_hexNumbers infoLayout_fits infoLayout_marked

/-- A text that is shown for a field is its value, as `dol-patch` takes it. -/
lemma hexText_of_shown (h : (f,text) ∈ shownValues (infoText hdr)) :
    HexText text (hdr.get f).toNat := by
  rw [shownValues_infoText] at h
  obtain ⟨l,hl,hmem⟩ := List.mem_flatMap.mp h
  obtain ⟨upper,width,hd,rfl⟩ := mem_zip_printed hmem
  exact .lower (hexDigits_printHex upper (infoLayout_width l hl _ hd) _)

lemma exists_shown (hdr : DolHdr) (f : HdrField) : ∃ text, (f,text) ∈ shownValues (infoText hdr) := by
  have hfields : (shownValues (infoText hdr)).map Prod.fst = infoFields := by
    apply List.map_fst_zip
    rw [infoText, hexNumbers_printFields infoLayout_fits infoLayout_marked, infoFields,
      List.length_flatMap, List.length_flatMap]
    refine (congrArg List.sum (List.map_congr_left ?_)).le
    intro l hl
    obtain ⟨-,hlen⟩ := infoLayout_fits l hl
    rw [printed_length ((List.length_map _).trans hlen), hlen]
  obtain ⟨l,hl,hf⟩ := infoLayout_complete f
  have hmem : f ∈ (shownValues (infoText hdr)).map Prod.fst := by
    rw [hfields]
    exact List.mem_flatMap.mpr ⟨l,hl,hf⟩
  obtain ⟨p,hp,rfl⟩ := List.mem_map.mp hmem
  exact ⟨p.2,hp⟩

lemma PatchCall.Enters.asks (h : c.Enters (infoText hdr) f) : c.Asks f (hdr.get f) := by
  obtain ⟨prog,name,text,hargv,hname,htext⟩ := h.args
  exact ⟨⟨prog,name,_,text,hargv,hname,names_fieldName f,hexText_of_shown htext⟩,h.opens,h.stats⟩

/-- Such calls succeed on every file that holds a header. -/
lemma patchRun_enters (hcalls : ∀ c ∈ calls, ∃ f, c.Enters (infoText hdr) f)
    (hlen : hdrSize ≤ file.length) : ∀ e ∈ (patchRun file calls).1, e = .patched := by
  induction calls generalizing file with
  | nil => exact fun e he => absurd he List.not_mem_nil
  | cons c calls ih =>
    rw [List.forall_mem_cons] at hcalls
    obtain ⟨⟨f,hf⟩,hcalls⟩ := hcalls
    rw [patchRun, List.forall_mem_cons]
    constructor
    · rw [patchMain_of_asks hf.asks, patchFile_patched]
      exact ⟨hlen,hf.opens,hf.stats,hf.written,hf.closes⟩
    · exact ih hcalls (hlen.trans_eq (patchStep_length file c).symm)

lemma PatchCall.Enters.asks_iff (h : c.Enters (infoText hdr) g) {v : Word} :
    c.Asks f v ↔ f = g ∧ v = hdr.get g := by
  constructor
  · exact fun hf => hf.unique h.asks
  · rintro ⟨rfl,rfl⟩
    exact h.asks

/-- A field that one of the calls is about gets the value that is shown. -/
lemma word_of_enters (hcalls : ∀ c ∈ calls, ∃ f, c.Enters (infoText hdr) f)
    (hlen : hdrSize ≤ file.length) (hf : ∃ c ∈ calls, c.Enters (infoText hdr) f) :
    word (ofList (calls.foldl patchStep file)) f.pos = hdr.get f := by
  obtain ⟨c,hc,hf⟩ := hf
  obtain ⟨pre,d,post,rfl,⟨v,hv⟩,hpost⟩ := exists_last (fun c : PatchCall => ∃ v, c.Asks f v)
    ⟨c,hc,hdr.get f,hf.asks⟩
  obtain ⟨g,hg⟩ := hcalls d (by simp)
  obtain ⟨rfl,rfl⟩ := hg.asks_iff.mp hv
  exact word_of_last hv hg.written (fun d hd w hw => hpost d hd ⟨w,hw⟩) hlen

/-- The other fields stay. -/
lemma word_of_not_enters (hcalls : ∀ c ∈ calls, ∃ f, c.Enters (infoText hdr) f)
    (hf : ∀ c ∈ calls, ¬ c.Enters (infoText hdr) f) :
    word (ofList (calls.foldl patchStep file)) f.pos = word (ofList file) f.pos := by
  apply word_of_frame
  intro c hc w hw
  obtain ⟨g,hg⟩ := hcalls c hc
  obtain ⟨rfl,-⟩ := hg.asks_iff.mp hw
  exact hf c hc hg

end

/-- The output of `dol-info` for one file is all that `dol-patch` needs for another. Calls with the
names and the values as they are shown, in any order and on machines of any byte order, succeed
and give their fields these values, while the other fields stay; if they are about every field,
the other file has the header of the first, up to the padding. -/
theorem script_of_info (m : Machine) (env : InfoEnv) (argv : List (List Char))
    (calls : List PatchCall) (a b : List Byte) (ha : (infoMain m env argv a).1 = .shown)
    (hb : hdrSize ≤ b.length)
    (hcalls : ∀ c ∈ calls, ∃ f, c.Enters (infoMain m env argv a).2 f) :
    (∀ e ∈ (patchRun b calls).1, e = .patched) ∧
    (∀ f : HdrField, (∃ c ∈ calls, c.Enters (infoMain m env argv a).2 f) →
      word (ofList (patchRun b calls).2) f.pos = word (ofList a) f.pos) ∧
    (∀ f : HdrField, (∀ c ∈ calls, ¬ c.Enters (infoMain m env argv a).2 f) →
      word (ofList (patchRun b calls).2) f.pos = word (ofList b) f.pos) ∧
    ((∀ f, ∃ c ∈ calls, c.Enters (infoMain m env argv a).2 f) →
      (patchRun b calls).2 = a.take paddingAt ++ b.drop paddingAt) := by
  obtain ⟨hdr,hinfo,hlen,heq⟩ := infoMain_shown ha
  obtain ⟨_,h,hget,-⟩ := infoHdr_eq_some (m := m) hlen
  obtain rfl := Option.some.inj (hinfo.symm.trans h)
  rw [heq] at hcalls ⊢
  dsimp only at hcalls ⊢
  refine ⟨patchRun_enters hcalls hb,?_,?_,?_⟩
  · intro f hf
    rw [patchRun_snd, ← hget]
    exact word_of_enters hcalls hb hf
  · intro f hno
    rw [patchRun_snd]
    exact word_of_not_enters hcalls hno
  · intro hall
    have hwords : (calls.foldl patchStep b).take paddingAt = a.take paddingAt := by
      rw [← words_eq_iff (by rwa [patchRun_length]) hlen]
      exact fun f => (word_of_enters hcalls hb (hall f)).trans (hget f)
    rw [patchRun_snd, ← hwords, ← patchRun_drop b calls, List.take_append_drop]

/-- The calls for all values that are shown, in their order. -/
def script (m : Machine) (path out : List Char) : List PatchCall :=
  (shownValues out).map (fun p =>
    ⟨m,⟨true,true,4,true⟩,["dol-patch".toList, path, fieldName p.1, p.2]⟩)

lemma script_enters {m : Machine} {path out : List Char} {c : PatchCall} (hpath : path ≠ [])
    (h : c ∈ script m path out) : ∃ f, c.Enters out f := by
  obtain ⟨p,hp,rfl⟩ := List.mem_map.mp h
  exact ⟨p.1,⟨_,_,_,rfl,hpath,hp⟩,rfl,rfl,rfl,rfl⟩

def entryHdr : List Byte := overwrite emptyHdr entryAt (bytes .big 0x80003100#32)

def entryShown : List Char :=
  (infoMain bigMachine ⟨true,true⟩ ["dol-info".toList, "a.dol".toList] entryHdr).2

/-- An empty header gets the entry point of another one. -/
theorem script_of_info_entry :
    (patchRun emptyHdr (script littleMachine "b.dol".toList entryShown)).2 =
      entryHdr.take paddingAt ++ emptyHdr.drop paddingAt := by
  have hshown : (infoMain bigMachine ⟨true,true⟩ ["dol-info".toList, "a.dol".toList]
      entryHdr).1 = .shown := by decide +kernel
  have hlen : hdrSize ≤ emptyHdr.length := by decide +kernel
  obtain ⟨hdr,-,-,heq⟩ := infoMain_shown hshown
  obtain ⟨-,-,-,hcopy⟩ := script_of_info bigMachine ⟨true,true⟩
    ["dol-info".toList, "a.dol".toList] (script littleMachine "b.dol".toList entryShown) entryHdr
    emptyHdr hshown hlen (fun c hc => script_enters (by decide) hc)
  apply hcopy
  intro f
  have hout : entryShown = infoText hdr := congrArg Prod.snd heq
  obtain ⟨text,htext⟩ := exists_shown hdr f
  rw [← hout] at htext
  exact ⟨_,List.mem_map_of_mem htext,⟨_,_,_,rfl,by decide,htext⟩,rfl,rfl,rfl,rfl⟩

end DolTools
