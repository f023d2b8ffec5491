import DolTools.Dol.Grammar
import DolTools.Library.CFormat

/-! The tool that shows the header of a DOL file, up to the text that it prints. The text stands
for the bytes before the padding. -/
namespace DolTools
open BigEndian ByteOrder CText CFormat

/-- Whether the calls of `dol-info` into the system succeed; `read` returns 256 bytes, or what
the file has. -/
structure InfoEnv where
  opens : Bool
  reads : Bool

/-- Where `main` of `dol-info` ends. It writes behind `errBuf` if the name in an error does not
fit. -/
inductive InfoExit
  | usage
  | openFailed
  | overrun
  | readFailed
  | shown
  deriving DecidableEq, Repr

/-- What `perror` is called with fits 256 bytes, with its terminator. -/
def errBufFits (path : List Char) : Bool := ("Failed to open ".toList ++ path).length < 256

def sectionFormat (i : ℕ) : List Directive :=
  [.text "    ".toList, .text (decimal i), .text ": Address: 0x".toList, .hex true 8,
    .text ", Size: 0x".toList, .hex true 0, .text ", File Offset: 0x".toList, .hex true 0,
    .text "\n".toList]

def lineFormat (title : String) : List Directive :=
  [.text title.toList, .hex true 8, .text "\n".toList]

/-- The output of `dol-info`, call by call: the format, and the fields that it shows. -/
def infoLayout : List (List Directive × List HdrField) :=
  [([.text "=== DOL Info ===\n\n".toList],[]), ([.text "  Text sections:\n".toList],[])] ++
  (List.finRange 7).map (fun i =>
    (sectionFormat i.val,[.text .addr i, .text .size i, .text .offset i])) ++
  [([.text "  Data sections:\n".toList],[])] ++
  (List.finRange 11).map (fun i =>
    (sectionFormat i.val,[.data .addr i, .data .size i, .data .offset i])) ++
  [(lineFormat "BSS Address: 0x",[.bssAddr]), (lineFormat "BSS Size: 0x",[.bssSize]),
    (lineFormat "Entry point: 0x",[.entry])]

def infoText (hdr : DolHdr) : List Char := printFields infoLayout (fun f => (hdr.get f).toNat)

def infoUsage (name : List Char) : List Char :=
  "Usage: ".toList ++ name ++ " <file>\n".toList

/-- `main` of `dol-info`: where it ends, and what it has printed. -/
def infoMain (m : Machine) (env : InfoEnv) (argv : List (List Char)) (file : List Byte) :
    InfoExit × List Char :=
  match argv with
  | [name, path] =>
    if path = [] then (.usage,infoUsage name)
    else if !env.opens then (if errBufFits path then .openFailed else .overrun,[])
    else if !env.reads then (.readFailed,[])
    else
      match infoHdr m file with
      | none => (.readFailed,[])
      | some hdr => (.shown,infoText hdr)
  | argv => (.usage,infoUsage (argv.headD "(null)".toList))

section

variable {m m' : Machine} {env env' : InfoEnv} {argv argv' : List (List Char)}
  {file a b : List Byte} {hdr hdr' : DolHdr} {i : ℕ}

lemma infoLayout_fits : ∀ l ∈ infoLayout, Fits l := by decide

/-- Every field is shown. -/
lemma infoLayout_complete (f : HdrField) : ∃ l ∈ infoLayout, f ∈ l.2 := by
  have hsections : ∀ (n : ℕ) (g : Attr → Fin n → HdrField) (attr : Attr) (i : Fin n),
      ∃ l ∈ (List.finRange n).map (fun i => (sectionFormat i.val,[g .addr i, g .size i,
        g .offset i])), g attr i ∈ l.2 := by
    intro n g attr i
    refine ⟨_,List.mem_map_of_mem (List.mem_finRange i),?_⟩
    cases attr <;> simp
  simp only [infoLayout, List.mem_append, or_and_right, exists_or]
  cases f with
  | text attr i => exact .inl (.inl (.inl (.inr (hsections 7 .text attr i))))
  | data attr i => exact .inl (.inr (hsections 11 .data attr i))
  | _ => exact .inr (by simp)

/-- Two headers look the same if their words are the same. -/
theorem infoText_inj : infoText hdr = infoText hdr' ↔ ∀ f, hdr.get f = hdr'.get f := by
  rw [infoText, infoText, printFields_eq_iff infoLayout_fits]
  constructor
  · intro h f
    obtain ⟨l,hl,hf⟩ := infoLayout_complete f
    exact BitVec.eq_of_toNat_eq (h l hl f hf)
  · intro h l _ f _
    rw [h f]

/-- The fields fill the header up to the padding. -/
lemma exists_field (h : i < paddingAt) : ∃ f : HdrField, ∃ j < 4, i = f.pos + j := by
  have hlayout := layout
  -- the bytes of an array belong to its elements
  have hin : ∀ n base, base ≤ i → i < base + 4*n →
      ∃ k : Fin n, ∃ j < 4, i = base + 4*k.val + j := by
    intro n base hlow hhigh
    exact ⟨⟨(i - base)/4,by omega⟩,(i - base)%4,by omega,by dsimp only; omega⟩
  rcases Nat.lt_or_ge i dataOffAt with h1 | h1
  · obtain ⟨k,hk⟩ := hin 7 textOffAt (by omega) (by omega)
    exact ⟨.text .offset k,hk⟩
  rcases Nat.lt_or_ge i textAddrAt with h2 | h2
  · obtain ⟨k,hk⟩ := hin 11 _ h1 (by omega)
    exact ⟨.data .offset k,hk⟩
  rcases Nat.lt_or_ge i dataAddrAt with h3 | h3
  · obtain ⟨k,hk⟩ := hin 7 _ h2 (by omega)
    exact ⟨.text .addr k,hk⟩
  rcases Nat.lt_or_ge i textSizeAt with h4 | h4
  · obtain ⟨k,hk⟩ := hin 11 _ h3 (by omega)
    exact ⟨.data .addr k,hk⟩
  rcases Nat.lt_or_ge i dataSizeAt with h5 | h5
  · obtain ⟨k,hk⟩ := hin 7 _ h4 (by omega)
    exact ⟨.text .size k,hk⟩
  rcases Nat.lt_or_ge i bssAddrAt with h6 | h6
  · obtain ⟨k,hk⟩ := hin 11 _ h5 (by omega)
    exact ⟨.data .size k,hk⟩
  rcases Nat.lt_or_ge i bssSizeAt with h7 | h7
  · exact ⟨.bssAddr,i - bssAddrAt,by omega,by simp only [HdrField.pos]; omega⟩
  rcases Nat.lt_or_ge i entryAt with h8 | h8
  · exact ⟨.bssSize,i - bssSizeAt,by omega,by simp only [HdrField.pos]; omega⟩
  · exact ⟨.entry,i - entryAt,by omega,by simp only [HdrField.pos]; omega⟩

/-- Equal words are equal bytes before the padding. -/
lemma words_eq_iff (ha : hdrSize ≤ a.length) (hb : hdrSize ≤ b.length) :
    (∀ f : HdrField, word (ofList a) f.pos = word (ofList b) f.pos) ↔
      a.take paddingAt = b.take paddingAt := by
  have hlayout := layout
  have hbyte : ∀ {l : List Byte}, hdrSize ≤ l.length → ∀ i < paddingAt,
      (l.take paddingAt)[i]? = some (ofList l i) := by
    intro l hl i hi
    rw [List.getElem?_take_of_lt hi, ofList, List.getD_eq_getElem?_getD,
      List.getElem?_eq_getElem (by omega)]
    rfl
  constructor
  · intro h
    apply List.ext_getElem?
    intro i
    rcases Nat.lt_or_ge i paddingAt with hi | hi
    · obtain ⟨f,j,hj,heq⟩ := exists_field hi
      rw [hbyte ha i hi, hbyte hb i hi, heq, ← bytes_word (ofList a) _ j hj, h f,
        bytes_word (ofList b) _ j hj]
    · rw [List.getElem?_eq_none, List.getElem?_eq_none] <;> rw [List.length_take] <;> omega
  · intro h f
    apply word_congr
    intro j hj
    have hpos := f.pos_lt
    have hi : f.pos + j < paddingAt := by omega
    exact Option.some.inj ((hbyte ha _ hi).symm.trans ((congrArg (·[f.pos+j]?) h).trans
      (hbyte hb _ hi)))

/-- A file is shown if it is found and holds a header. -/
lemma infoMain_shown (h : (infoMain m env argv file).1 = .shown) : ∃ hdr,
    infoHdr m file = some hdr ∧ hdrSize ≤ file.length ∧
      infoMain m env argv file = (.shown,infoText hdr) := by
  unfold infoMain at h ⊢
  split at h
  · split_ifs at h
    cases hhdr : infoHdr m file with
    | none => simp [hhdr] at h
    | some hdr =>
      refine ⟨hdr,rfl,?_,?_⟩
      · by_contra hlen
        rw [infoHdr, if_pos (show file.length < 0x100 from Nat.not_le.mp hlen)] at hhdr
        contradiction
      · simp_all
  · contradiction

/-- The printed texts stand for the words. -/
lemma infoMain_words (ha : (infoMain m env argv a).1 = .shown)
    (hb : (infoMain m' env' argv' b).1 = .shown) :
    (infoMain m env argv a).2 = (infoMain m' env' argv' b).2 ↔
      ∀ f : HdrField, word (ofList a) f.pos = word (ofList b) f.pos := by
  obtain ⟨hdr,hinfo,hlen,heq⟩ := infoMain_shown ha
  obtain ⟨hdr',hinfo',hlen',heq'⟩ := infoMain_shown hb
  obtain ⟨_,h,hget,-⟩ := infoHdr_eq_some (m := m) hlen
  obtain rfl := Option.some.inj (hinfo.symm.trans h)
  obtain ⟨_,h,hget',-⟩ := infoHdr_eq_some (m := m') hlen'
  obtain rfl := Option.some.inj (hinfo'.symm.trans h)
  rw [heq, heq', infoText_inj]
  simp only [hget, hget']

end

/-- What `dol-info` prints of two files, on machines of any byte order, is the same just when the
files agree before the padding. -/
theorem infoMain_eq_iff (m m' : Machine) (env env' : InfoEnv) (argv argv' : List (List Char))
    (a b : List Byte) (ha : (infoMain m env argv a).1 = .shown)
    (hb : (infoMain m' env' argv' b).1 = .shown) :
    (infoMain m env argv a).2 = (infoMain m' env' argv' b).2 ↔
      a.take paddingAt = b.take paddingAt := by
  obtain ⟨-,-,hlen,-⟩ := infoMain_shown ha
  obtain ⟨-,-,hlen',-⟩ := infoMain_shown hb
  rw [infoMain_words ha hb, words_eq_iff hlen hlen']

/-- The padding is not shown. -/
theorem infoMain_eq_iff_padding : ∃ a b : List Byte, a ≠ b ∧
    (infoMain littleMachine ⟨true,true⟩ ["dol-info".toList, "a.dol".toList] a).2 =
      (infoMain bigMachine ⟨true,true⟩ ["dol-info".toList, "b.dol".toList] b).2 := by
  refine ⟨List.replicate 256 0,List.replicate 255 0 ++ [1],by decide +kernel,?_⟩
  exact (infoMain_eq_iff littleMachine bigMachine ⟨true,true⟩ ⟨true,true⟩ _ _ _ _
    (by decide +kernel) (by decide +kernel)).mpr (by decide +kernel)

/-- The line of a section. -/
example : print (sectionFormat 3) [0x80003100, 0x20, 0x100] =
    "    3: Address: 0x80003100, Size: 0x20, File Offset: 0x100\n".toList := by
  decide

end DolTools
