import DolTools.Dol.Info
import DolTools.Library.LastWrite

/-! Runs of `dol-patch` on one file, each call on a machine of its own and with its own outcome of
the system calls. Of every byte the last write counts, also where calls fail half way. -/
namespace DolTools
open BigEndian ByteOrder LastWrite

structure PatchCall where
  machine : Machine
  env : PatchEnv
  argv : List (List Char)

def patchStep (file : List Byte) (c : PatchCall) : List Byte :=
  (patchMain c.machine c.env c.argv file).2

/-- Where the calls return, and the file behind them. -/
def patchRun : List Byte → List PatchCall → List PatchExit × List Byte
  | file, [] => ([],file)
  | file, c::calls =>
    let r := patchMain c.machine c.env c.argv file
    let rest := patchRun r.2 calls
    (r.1::rest.1,rest.2)

/-- By the grammar of its arguments the call is about the field and the value, and it finds the
file. -/
structure PatchCall.Asks (c : PatchCall) (f : HdrField) (v : Word) : Prop where
  args : ∃ prog name field text, c.argv = [prog, name, field, text] ∧ name ≠ [] ∧
    Names field f ∧ HexText text v.toNat
  opens : c.env.opens = true
  stats : c.env.stats = true

/-- The call writes the byte to the position: it is one of those that `pwrite` gets to. -/
def PatchCall.Hits (c : PatchCall) (i : ℕ) (b : Byte) : Prop :=
  ∃ f v, ∃ j < 4, c.Asks f v ∧ j < c.env.written.toNat ∧ i = f.pos + j ∧
    b = (bytes .big v).getD j 0

/-- What the calls leave in a field: the value of the last call about it, if there is one. -/
def Leaves (calls : List PatchCall) (f : HdrField) (old new : Word) : Prop :=
  (∃ pre c post, calls = pre ++ c::post ∧ c.Asks f new ∧ ∀ d ∈ post, ∀ w, ¬ d.Asks f w) ∨
    ((∀ c ∈ calls, ∀ w, ¬ c.Asks f w) ∧ new = old)

section

variable {c d : PatchCall} {f g : HdrField} {v w : Word} {file : List Byte} {i : ℕ} {b : Byte}
  {calls : List PatchCall}

lemma patchRun_snd (file : List Byte) (calls : List PatchCall) :
    (patchRun file calls).2 = calls.foldl patchStep file := by
  induction calls generalizing file with
  | nil => rfl
  | cons c calls ih => exact ih (patchStep file c)

lemma Names.ne_nil {field : List Char} (h : Names field f) : field ≠ [] := by
  cases h <;> simp

lemma HexText.ne_nil {text : List Char} {n : ℕ} (h : HexText text n) : text ≠ [] := by
  cases h with
  | plain h => exact List.ne_nil_of_length_pos h.nonempty
  | _ => simp

/-- A call is about one field, and one value. -/
lemma PatchCall.Asks.unique (h : c.Asks f v) (h' : c.Asks g w) : f = g ∧ v = w := by
  obtain ⟨prog,name,field,text,hargv,-,hfield,htext⟩ := h.args
  obtain ⟨prog',name',field',text',hargv',-,hfield',htext'⟩ := h'.args
  rw [hargv] at hargv'
  simp only [List.cons.injEq] at hargv'
  obtain ⟨-,-,rfl,rfl,-⟩ := hargv'
  have hpos := (fieldOffset_of_names c.machine hfield).symm.trans
    (fieldOffset_of_names c.machine hfield')
  have hvalue := (valueDigits_of_hexText htext).value.symm.trans
    (valueDigits_of_hexText htext').value
  exact ⟨pos_injective (Option.some.inj hpos),BitVec.eq_of_toNat_eq hvalue⟩

/-- Such a call comes to its `pwrite`. -/
lemma patchMain_of_asks (h : c.Asks f v) : patchMain c.machine c.env c.argv file =
    patchFile c.machine c.env f.pos v file := by
  obtain ⟨prog,name,field,text,hargv,hname,hfield,htext⟩ := h.args
  have hargs : ¬ (name = [] ∨ field = [] ∨ text = []) := by
    rintro (rfl | rfl | rfl)
    · exact hname rfl
    · exact hfield.ne_nil rfl
    · exact htext.ne_nil rfl
  have hvalue : parseValue c.machine text = some v := by
    rw [parseValue_of_hexDigits c.machine (valueDigits_of_hexText htext), BitVec.ofNat_toNat,
      BitVec.setWidth_eq]
  rw [hargv, patchMain_eq, if_neg hargs, fieldOffset_of_names c.machine hfield]
  dsimp only
  rw [hvalue]

lemma patchStep_of_asks (h : c.Asks f v) (hlen : hdrSize ≤ file.length) :
    patchStep file c = overwrite file f.pos ((bytes .big v).take c.env.written.toNat) := by
  have hpwrite : pwrite file (bytes c.machine.order (htonl c.machine.order v)) f.pos
      c.env.written = overwrite file f.pos ((bytes .big v).take c.env.written.toNat) := by
    rw [pwrite, htonl, bytes_swapToBig]
  rw [patchStep, patchMain_of_asks h, patchFile, if_neg (by simp [h.opens]),
    if_neg (by simp [h.stats]), if_neg (Nat.not_lt.mpr hlen)]
  dsimp only
  rw [hpwrite]
  split_ifs <;> rfl

/-- What the two parsers accept is in their grammars. -/
lemma names_of_accepted {field text : List Char} {offset : ℕ} {value : Word}
    (hfield : fieldOffset c.machine field = some offset)
    (hvalue : parseValue c.machine text = some value) :
    ∃ f v, Names field f ∧ HexText text (BitVec.toNat (w := 32) v) := by
  obtain ⟨f,hnames,-⟩ := fieldOffset_eq_some hfield
  obtain ⟨n,hdigits⟩ := hexDigits_of_accepted (by rw [hvalue]; rfl)
  refine ⟨f,BitVec.ofNat 32 n,hnames,?_⟩
  rw [BitVec.toNat_ofNat, Nat.mod_eq_of_lt hdigits.lt]
  exact hexText_of_valueDigits hdigits

/-- A call that is about no field, or does not find the file, leaves it alone. -/
lemma patchStep_of_not_asks (h : ∀ f v, ¬ c.Asks f v) : patchStep file c = file := by
  unfold patchStep patchMain
  split
  · rename_i prog name field text hargv
    split_ifs with hargs
    · rfl
    · cases hfield : fieldOffset c.machine field with
      | none => rfl
      | some offset =>
        dsimp only
        cases hvalue : parseValue c.machine text with
        | none => rfl
        | some value =>
          dsimp only
          obtain ⟨f,v,hnames,htext⟩ := names_of_accepted hfield hvalue
          have hargv' : ∃ prog name field text, c.argv = [prog, name, field, text] ∧ name ≠ [] ∧
              Names field f ∧ HexText text v.toNat :=
            ⟨prog,name,field,text,hargv,fun hname => hargs (.inl hname),hnames,htext⟩
          cases hopens : c.env.opens with
          | false => simp [patchFile, hopens]
          | true =>
            cases hstats : c.env.stats with
            | false => simp [patchFile, hopens, hstats]
            | true => exact absurd ⟨hargv',hopens,hstats⟩ (h f v)
  · rfl

/-- A call that returns 0 has written a whole word. -/
lemma asks_of_code (h : (patchMain c.machine c.env c.argv file).1.code = 0) :
    (∃ f v, c.Asks f v) ∧ c.env.written = 4 := by
  have hpatched : (patchMain c.machine c.env c.argv file).1 = .patched := by
    by_contra hne
    rw [PatchExit.code_of_ne hne] at h
    contradiction
  obtain ⟨machine,env,argv⟩ := c
  dsimp only at hpatched
  match argv with
  | [prog, name, field, text] =>
    obtain ⟨offset,value,hfield,hvalue,heq⟩ := patchMain_patched hpatched
    have hname : name ≠ [] := by
      rintro rfl
      rw [patchMain_eq, if_pos (.inl rfl)] at hpatched
      contradiction
    rw [heq] at hpatched
    obtain ⟨-,hopens,hstats,hwritten,-⟩ := patchFile_patched.mp hpatched
    obtain ⟨f,v,hnames,htext⟩ := names_of_accepted (c := ⟨machine,env,[]⟩) hfield hvalue
    exact ⟨⟨f,v,⟨prog,name,field,text,rfl,hname,hnames,htext⟩,hopens,hstats⟩,hwritten⟩
  | [] | [_] | [_, _] | [_, _, _] | _::_::_::_::_::_ => contradiction

lemma patchStep_of_short (h : file.length < hdrSize) : patchStep file c = file := by
  by_cases hasks : ∃ f v, c.Asks f v
  · obtain ⟨f,v,hasks⟩ := hasks
    rw [patchStep, patchMain_of_asks hasks]
    exact patchFile_tooSmall h
  · apply patchStep_of_not_asks
    intro f v hfv
    exact hasks ⟨f,v,hfv⟩

/-- What is written fits before the padding. -/
lemma write_fits (f : HdrField) (v : Word) (n : ℕ) (hlen : hdrSize ≤ file.length) :
    f.pos + ((bytes .big v).take n).length ≤ file.length := by
  have hlayout := layout
  have hpos := f.pos_lt
  rw [List.length_take, bytes_length]
  omega

lemma patchStep_length (file : List Byte) (c : PatchCall) :
    (patchStep file c).length = file.length := by
  rcases Nat.lt_or_ge file.length hdrSize with hshort | hlen
  · rw [patchStep_of_short hshort]
  · by_cases hasks : ∃ f v, c.Asks f v
    · obtain ⟨f,v,hasks⟩ := hasks
      rw [patchStep_of_asks hasks hlen]
      exact overwrite_length (write_fits f v _ hlen)
    · rw [patchStep_of_not_asks (fun f v h => hasks ⟨f,v,h⟩)]

lemma patchRun_length (file : List Byte) (calls : List PatchCall) :
    (calls.foldl patchStep file).length = file.length := by
  induction calls generalizing file with
  | nil => rfl
  | cons c calls ih => exact (ih _).trans (patchStep_length file c)

/-- One call: the bytes that it does not hit stay. -/
lemma patchStep_frame (h : ∀ b, ¬ c.Hits i b) : (patchStep file c)[i]? = file[i]? := by
  rcases Nat.lt_or_ge file.length hdrSize with hshort | hlen
  · rw [patchStep_of_short hshort]
  · by_cases hasks : ∃ f v, c.Asks f v
    · obtain ⟨f,v,hasks⟩ := hasks
      rw [patchStep_of_asks hasks hlen]
      apply overwrite_of_not_mem (write_fits f v _ hlen)
      rintro ⟨hlow,hhigh⟩
      rw [List.length_take, bytes_length] at hhigh
      exact h _ ⟨f,v,i - f.pos,by omega,hasks,by omega,by omega,rfl⟩
    · rw [patchStep_of_not_asks (fun f v h => hasks ⟨f,v,h⟩)]

lemma patchStep_hit (h : c.Hits i b) (hlen : hdrSize ≤ file.length) :
    (patchStep file c)[i]? = some b := by
  obtain ⟨f,v,j,hj,hasks,hwritten,rfl,rfl⟩ := h
  have hin : j < ((bytes .big v).take c.env.written.toNat).length := by
    rw [List.length_take, bytes_length]
    omega
  have hbyte : j < (bytes .big v).length := by rwa [bytes_length]
  rw [patchStep_of_asks hasks hlen, overwrite_of_mem (write_fits f v _ hlen) hin,
    List.getElem?_take_of_lt hwritten, List.getD_eq_getElem?_getD,
    List.getElem?_eq_getElem hbyte]
  rfl

lemma PatchCall.Hits.lt (h : c.Hits i b) : i < paddingAt := by
  obtain ⟨f,v,j,hj,-,-,rfl,-⟩ := h
  have hpos := f.pos_lt
  omega

/-- A byte of a field is hit by a call about that field. -/
lemma PatchCall.Hits.asks {j : ℕ} (h : c.Hits (f.pos+j) b) (hj : j < 4) : ∃ v, c.Asks f v := by
  obtain ⟨g,v,k,hk,hasks,-,heq,-⟩ := h
  by_cases hfg : f = g
  · subst hfg
    exact ⟨v,hasks⟩
  · rcases HdrField.pos_apart hfg with hd | hd <;> omega

lemma patchRun_frame (h : ∀ c ∈ calls, ∀ b, ¬ c.Hits i b) :
    (calls.foldl patchStep file)[i]? = file[i]? := by
  refine foldl_frame (fun _ : List Byte => True) (fun file : List Byte => file[i]?)
    (fun c : PatchCall => ∃ b, c.Hits i b) (fun _ _ _ => trivial) ?_ trivial ?_
  · intro file c _ hno
    exact patchStep_frame (fun b hb => hno ⟨b,hb⟩)
  · rintro c hc ⟨b,hb⟩
    exact h c hc b hb

lemma patchRun_last {pre post : List PatchCall} (hc : c.Hits i b)
    (hpost : ∀ d ∈ post, ∀ b, ¬ d.Hits i b) (hlen : hdrSize ≤ file.length) :
    ((pre ++ c::post).foldl patchStep file)[i]? = some b := by
  rw [List.foldl_append, List.foldl_cons, patchRun_frame hpost]
  apply patchStep_hit hc
  rwa [patchRun_length]

end

/-- Whatever the calls are, on whatever machines, and however their system calls end: the file
keeps its length, and of every byte the last write counts, if it holds a header. Behind the words
of the header there is none. -/
theorem bytes_of_patches (calls : List PatchCall) (file : List Byte) :
    (patchRun file calls).2.length = file.length ∧
    (∀ i, (∀ c ∈ calls, ∀ b, ¬ c.Hits i b) → (patchRun file calls).2[i]? = file[i]?) ∧
    (hdrSize ≤ file.length → ∀ pre c post i b, calls = pre ++ c::post → c.Hits i b →
      (∀ d ∈ post, ∀ b, ¬ d.Hits i b) → (patchRun file calls).2[i]? = some b) ∧
    ∀ i, paddingAt ≤ i → (patchRun file calls).2[i]? = file[i]? := by
  rw [patchRun_snd]
  refine ⟨patchRun_length file calls,fun i h => patchRun_frame h,?_,?_⟩
  · rintro hlen pre c post i b rfl hc hpost
    exact patchRun_last hc hpost hlen
  · intro i hi
    apply patchRun_frame
    intro c _ b hb
    exact absurd hb.lt (Nat.not_lt.mpr hi)

def emptyHdr : List Byte := List.replicate 256 0

/-- A call about the entry point, of which so many bytes are written. -/
def entryCall (written : ℤ) : PatchCall :=
  ⟨littleMachine,⟨true,true,written,true⟩,["dol-patch".toList, "b.dol".toList, "entry".toList,
    "0x80003100".toList]⟩

lemma entryCall_asks (written : ℤ) : (entryCall written).Asks .entry 0x80003100#32 := by
  have hdigits := hexDigits_printHex true (show 8 ≤ 8 from le_rfl) 0x80003100#32
  rw [show CText.printHex true 8 (0x80003100#32).toNat = "80003100".toList by decide] at hdigits
  exact ⟨⟨_,_,_,_,rfl,by decide,.entry,.lower hdigits⟩,rfl,rfl⟩

/-- A call that fails behind two bytes leaves two bytes. -/
theorem bytes_of_patches_half : (patchRun emptyHdr [entryCall 4, entryCall 2]).2.length = 256 ∧
    (patchRun emptyHdr [entryCall 4, entryCall 2]).2[entryAt]? = some 0x80#8 := by
  have hempty : emptyHdr.length = 256 := by rw [emptyHdr, List.length_replicate]
  have hlen : hdrSize ≤ emptyHdr.length := by rw [hempty]; decide
  obtain ⟨hlength,-,hlast,-⟩ := bytes_of_patches [entryCall 4, entryCall 2] emptyHdr
  refine ⟨hlength.trans hempty,?_⟩
  exact hlast hlen [entryCall 4] (entryCall 2) [] entryAt 0x80#8 rfl
    ⟨.entry,_,0,by decide,entryCall_asks 2,by decide,rfl,by decide⟩
    (fun d hd => absurd hd List.not_mem_nil)

section

variable {c : PatchCall} {f : HdrField} {v : Word} {file : List Byte} {calls : List PatchCall}

lemma patchRun_code (h : ∀ e ∈ (patchRun file calls).1, e.code = 0) (hc : c ∈ calls) :
    (∃ f v, c.Asks f v) ∧ c.env.written = 4 := by
  induction calls generalizing file with
  | nil => contradiction
  | cons d calls ih =>
    rw [patchRun, List.forall_mem_cons] at h
    rcases List.mem_cons.mp hc with rfl | hc
    · exact asks_of_code h.1
    · exact ih h.2 hc

/-- The word of a field that no later call is about. -/
lemma word_of_last {pre post : List PatchCall} (hc : c.Asks f v) (hwritten : c.env.written = 4)
    (hpost : ∀ d ∈ post, ∀ w, ¬ d.Asks f w) (hlen : hdrSize ≤ file.length) :
    word (ofList ((pre ++ c::post).foldl patchStep file)) f.pos = v := by
  apply word_of_bytes
  intro j hj
  have hhit : c.Hits (f.pos + j) ((bytes .big v).getD j 0) :=
    ⟨f,v,j,hj,hc,by rw [hwritten]; exact hj,rfl,rfl⟩
  rw [ofList, List.getD_eq_getElem?_getD, patchRun_last hhit ?_ hlen]
  · rfl
  · intro d hd b hb
    obtain ⟨w,hw⟩ := hb.asks hj
    exact hpost d hd w hw

lemma word_of_frame (h : ∀ d ∈ calls, ∀ w, ¬ d.Asks f w) :
    word (ofList (calls.foldl patchStep file)) f.pos = word (ofList file) f.pos := by
  apply word_congr
  intro j hj
  rw [ofList, List.getD_eq_getElem?_getD, patchRun_frame, ofList, List.getD_eq_getElem?_getD]
  intro d hd b hb
  obtain ⟨w,hw⟩ := hb.asks hj
  exact h d hd w hw

/-- Behind calls that all write their word, the field has the value that they leave. -/
lemma word_eq_iff (hwritten : ∀ c ∈ calls, c.env.written = 4) (hlen : hdrSize ≤ file.length) :
    word (ofList (calls.foldl patchStep file)) f.pos = v ↔
      Leaves calls f (word (ofList file) f.pos) v := by
  constructor
  · rintro rfl
    by_cases hasks : ∃ c ∈ calls, ∃ w, c.Asks f w
    · obtain ⟨pre,c,post,rfl,⟨w,hw⟩,hpost⟩ := exists_last
        (fun c : PatchCall => ∃ w, c.Asks f w) hasks
      have hpost' : ∀ d ∈ post, ∀ w, ¬ d.Asks f w := fun d hd w hw => hpost d hd ⟨w,hw⟩
      rw [word_of_last hw (hwritten c (by simp)) hpost' hlen]
      exact .inl ⟨pre,c,post,rfl,hw,hpost'⟩
    · have hnone : ∀ c ∈ calls, ∀ w, ¬ c.Asks f w := fun c hc w hw => hasks ⟨c,hc,w,hw⟩
      exact .inr ⟨hnone,word_of_frame hnone⟩
  · rintro (⟨pre,c,post,rfl,hc,hpost⟩ | ⟨hnone,rfl⟩)
    · exact word_of_last hc (hwritten c (by simp)) hpost hlen
    · exact word_of_frame hnone

lemma patchRun_drop (file : List Byte) (calls : List PatchCall) :
    (calls.foldl patchStep file).drop paddingAt = file.drop paddingAt := by
  apply List.ext_getElem?
  intro i
  rw [List.getElem?_drop, List.getElem?_drop]
  apply patchRun_frame
  intro c _ b hb
  have hlt := hb.lt
  omega

end

/-- If every call returns 0, each is about one field, and `dol-info` shows for a field what the
calls leave there. -/
theorem info_of_patches (m : Machine) (calls : List PatchCall) (file : List Byte)
    (hlen : hdrSize ≤ file.length) (hok : ∀ e ∈ (patchRun file calls).1, e.code = 0) :
    (∀ c ∈ calls, ∃ f v, c.Asks f v) ∧
    ∃ hdr hdr', infoHdr m file = some hdr ∧ infoHdr m (patchRun file calls).2 = some hdr' ∧
      (∀ f v, hdr'.get f = v ↔ Leaves calls f (hdr.get f) v) ∧ hdr'.padding = hdr.padding := by
  have hlen' : hdrSize ≤ (patchRun file calls).2.length := by
    rwa [patchRun_snd, patchRun_length]
  obtain ⟨hdr,hinfo,hget,hpad⟩ := infoHdr_eq_some (m := m) hlen
  obtain ⟨hdr',hinfo',hget',hpad'⟩ := infoHdr_eq_some (m := m) hlen'
  refine ⟨fun c hc => (patchRun_code hok hc).1,hdr,hdr',hinfo,hinfo',?_,?_⟩
  · intro f v
    rw [hget', hget, patchRun_snd]
    exact word_eq_iff (fun c hc => (patchRun_code hok hc).2) hlen
  · funext i
    rw [hpad', hpad, patchRun_snd, ofList, ofList, List.getD_eq_getElem?_getD,
      List.getD_eq_getElem?_getD, patchRun_frame]
    intro c _ b hb
    have hlt := hb.lt
    omega

/-- The value of a call that succeeds is shown. -/
theorem info_of_patches_entry : ∃ hdr',
    infoHdr bigMachine (patchRun emptyHdr [entryCall 4]).2 = some hdr' ∧
      hdr'.get .entry = 0x80003100#32 := by
  have hlen : hdrSize ≤ emptyHdr.length := by decide +kernel
  obtain ⟨-,_,hdr',-,hinfo,hleaves,-⟩ := info_of_patches bigMachine [entryCall 4] emptyHdr hlen
    (by decide +kernel)
  refine ⟨hdr',hinfo,(hleaves .entry _).mpr (.inl ⟨[],entryCall 4,[],rfl,entryCall_asks 4,?_⟩)⟩
  exact fun d hd => absurd hd List.not_mem_nil

/-- Of a patched file `dol-info` prints what it prints of another one just when the calls leave
the words of the other in every field, and then its header is the one of the other. -/
theorem copy_of_patches (m m' : Machine) (env env' : InfoEnv) (argv argv' : List (List Char))
    (calls : List PatchCall) (a b : List Byte)
    (hok : ∀ e ∈ (patchRun b calls).1, e.code = 0)
    (ha : (infoMain m env argv a).1 = .shown)
    (hb : (infoMain m' env' argv' (patchRun b calls).2).1 = .shown) :
    ((infoMain m env argv a).2 = (infoMain m' env' argv' (patchRun b calls).2).2 ↔
      ∀ f, Leaves calls f (word (ofList b) f.pos) (word (ofList a) f.pos)) ∧
    ((infoMain m env argv a).2 = (infoMain m' env' argv' (patchRun b calls).2).2 ↔
      (patchRun b calls).2 = a.take paddingAt ++ b.drop paddingAt) := by
  obtain ⟨-,-,hlena,-⟩ := infoMain_shown ha
  obtain ⟨-,-,hlen',-⟩ := infoMain_shown hb
  have hlenb : hdrSize ≤ b.length := by rwa [patchRun_snd, patchRun_length] at hlen'
  rw [infoMain_words ha hb]
  constructor
  · apply forall_congr'
    intro f
    rw [patchRun_snd, eq_comm]
    exact word_eq_iff (fun c hc => (patchRun_code hok hc).2) hlenb
  · rw [words_eq_iff hlena hlen']
    have hfull : (a.take paddingAt).length = paddingAt := by
      have hlayout := layout
      rw [List.length_take]
      omega
    constructor
    · intro h
      rw [h, ← patchRun_drop b calls, ← patchRun_snd, List.take_append_drop]
    · intro h
      rw [h, List.take_left' hfull]

/-- An empty header becomes one with an entry point, and is shown as such. -/
theorem copy_of_patches_entry :
    (infoMain bigMachine ⟨true,true⟩ ["dol-info".toList, "a.dol".toList]
      (overwrite emptyHdr entryAt (bytes .big 0x80003100#32))).2 =
    (infoMain littleMachine ⟨true,true⟩ ["dol-info".toList, "b.dol".toList]
      (patchRun emptyHdr [entryCall 4]).2).2 :=
  (copy_of_patches bigMachine littleMachine ⟨true,true⟩ ⟨true,true⟩ _ _ [entryCall 4] _ emptyHdr
    (by decide +kernel) (by decide +kernel) (by decide +kernel)).2.mpr (by decide +kernel)

end DolTools
