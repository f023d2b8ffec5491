import DolTools.Emu.ChipsetCalls
import DolTools.Emu.Decode
import DolTools.Library.BigEndian

/-! The emulated halfword loads and the stores on the guest's side: which register takes the
value of the device, which value the device gets, and that nothing else of the guest's
registers changes. -/
namespace DolTools
open BigEndian

/-- The register of bits 16 to 20: the base register rA. -/
def archBase (w : Word) : Fin 32 := Fin.ofNat 32 ((w >>> 16) &&& 31#32).toNat

/-- The sign-extended displacement. -/
def displacement (w : Word) : Word := (w.setWidth 16).signExtend 32

section

variable {w val : Word} {c : Context}

lemma setReg_of_lt (c : Context) {r : Word} (h : r.toNat < 32) (val : Word) :
    c.setReg r val = c.setGpr (Fin.ofNat 32 r.toNat) val := by
  have hr : (⟨r.toNat,h⟩ : Fin 32) = Fin.ofNat 32 r.toNat := Fin.ext (Nat.mod_eq_of_lt h).symm
  rw [Context.setReg, dif_pos h, hr]

lemma getReg_of_lt (c : Context) {r : Word} (h : r.toNat < 32) :
    c.getReg r = c.gpr (Fin.ofNat 32 r.toNat) := by
  have hr : (⟨r.toNat,h⟩ : Fin 32) = Fin.ofNat 32 r.toNat := Fin.ext (Nat.mod_eq_of_lt h).symm
  rw [Context.getReg, dif_pos h, hr]

lemma toNat_and_31_lt (w : Word) : (w &&& 31#32).toNat < 32 :=
  Nat.lt_succ_of_le (AlignedBlock.toNat_and_le w 31#32)

lemma lowField_eq (w : Word) : (w &&& 0x001F0000#32) >>> 16 = (w >>> 16) &&& 31#32 := by
  rw [BitVec.ushiftRight_and_distrib]
  rfl

lemma setReg_high (c : Context) (w val : Word) :
    c.setReg ((w &&& 0x03E00000#32) >>> 21) val = c.setGpr (archReg w) val := by
  rw [highField_eq]
  exact setReg_of_lt c (toNat_and_31_lt _) val

lemma setReg_low (c : Context) (w val : Word) :
    c.setReg ((w &&& 0x001F0000#32) >>> 16) val = c.setGpr (archBase w) val := by
  rw [lowField_eq]
  exact setReg_of_lt c (toNat_and_31_lt _) val

lemma getReg_high (c : Context) (w : Word) :
    c.getReg ((w &&& 0x03E00000#32) >>> 21) = c.gpr (archReg w) := by
  rw [highField_eq]
  exact getReg_of_lt c (toNat_and_31_lt _)

lemma getReg_low (c : Context) (w : Word) :
    c.getReg ((w &&& 0x001F0000#32) >>> 16) = c.gpr (archBase w) := by
  rw [lowField_eq]
  exact getReg_of_lt c (toNat_and_31_lt _)

lemma and_lowHalf (val : Word) : val &&& 0x0000FFFF#32 = (val.setWidth 16).setWidth 32 := by
  rw [and_lowMask, BitVec.setWidth_eq_extractLsb' (x := val) (w := 16) (by decide)]

lemma displacement_eq (w : Word) :
    ((w &&& 0x0000FFFF#32).setWidth 16).signExtend 32 = displacement w := by
  rw [and_lowHalf, displacement]
  congr 1
  exact BitVec.setWidth_setWidth_of_le _ (by decide)

/-- The two assignments of the `lha` write-back are a sign extension. -/
lemma lha_value (val : Word) :
    (if val &&& 0x00008000#32 ≠ 0 then 0xFFFF0000#32 else 0) ||| (val &&& 0x0000FFFF#32) =
      (val.setWidth 16).signExtend 32 := by
  have hbit : ∀ i : ℕ, (0x00008000#32).getLsbD i = decide (i = 15) := by
    intro i
    rw [show (0x00008000#32) = BitVec.twoPow 32 15 from rfl, BitVec.getLsbD_twoPow]
    simp [eq_comm]
  have hsign : (val.setWidth 16).msb = val.getLsbD 15 := by simp [BitVec.msb_setWidth]
  cases hm : val.getLsbD 15 with
  | false =>
    have hclear : val &&& 0x00008000#32 = 0 := by
      apply BitVec.eq_of_getLsbD_eq
      intro i hi
      rw [BitVec.getLsbD_and, hbit]
      by_cases h15 : i = 15
      · rw [h15, hm]
        rfl
      · simp [h15]
    rw [hclear, if_neg (not_not.mpr rfl), and_lowHalf,
      BitVec.signExtend_eq_setWidth_of_msb_false (hsign.trans hm)]
    exact BitVec.zero_or
  | true =>
    have hset : val &&& 0x00008000#32 ≠ 0 := by
      intro hzero
      have h15 := congrArg (fun x => BitVec.getLsbD x 15) hzero
      rw [BitVec.getLsbD_and, hbit, hm] at h15
      contradiction
    rw [if_pos hset]
    apply BitVec.eq_of_getLsbD_eq
    intro i hi
    rw [BitVec.getLsbD_or, BitVec.getLsbD_and, getLsbD_lowMask, getLsbD_highMask,
      BitVec.getLsbD_signExtend, hsign, hm]
    by_cases h16 : i < 16
    · simp [h16, hi]
    · simp [h16, hi]
      omega

end

/-- A load as the guest sees it: one read of the chipset, whose value goes into the register
after `extend`, and the next instruction. -/
structure HandledLoad (hw : Hardware) (instr : Word) (s : EmuState) (ctx : Context)
    (extend : Half → Word) (c : ChipsetCall) (o : SegvOutcome) : Prop where
  state : o.s = c.run hw s
  width : c.accessWidth = 2
  read : ∃ val, c.loaded hw s = some val ∧
    o.ctx = (ctx.setGpr (archReg instr) (extend (val.setWidth 16))).next
  stored : o.stored = none

/-- A store: one write of the chipset with the given value, the registers after it, and the
next instruction. -/
structure HandledStore (hw : Hardware) (s : EmuState) (val : Word) (width : ℤ) (regs : Context)
    (c : ChipsetCall) (o : SegvOutcome) : Prop where
  state : o.s = c.run hw s
  width : c.accessWidth = width
  write : c.written = some val
  ctx : o.ctx = regs.next
  stored : o.stored = none

section

variable {hw : Hardware} {bail : BailOut} {u : SegvUninit} {instr : Word} {s : EmuState}
  {ctx : Context} {l : SegvLocals} {paddr : Word} {c : ChipsetCall} {o : SegvOutcome}

variable (hw) in
lemma segvCall_loaded (h : segvCall paddr l s ctx = some c) (hr : ctx.isWrite = false) :
    ∃ val, c.loaded hw s = some val := by
  obtain ⟨addr,-,rfl⟩ := Option.map_eq_some_iff.mp h
  simp only [hr, Bool.false_eq_true, if_false]
  split <;> exact ⟨_,rfl⟩

lemma segvCall_written (h : segvCall paddr l s ctx = some c) (hwr : ctx.isWrite = true) :
    c.written = some l.val := by
  obtain ⟨addr,-,rfl⟩ := Option.map_eq_some_iff.mp h
  simp only [hwr, if_true]
  split <;> rfl

lemma segvCall_accessWidth (h : segvCall paddr l s ctx = some c) :
    c.accessWidth = l.accessWidth := by
  obtain ⟨addr,-,rfl⟩ := Option.map_eq_some_iff.mp h
  split_ifs <;> rfl

lemma isWrite_of_isRead (h : ctx.isRead = true) : ctx.isWrite = false := by
  have hd : ctx.dsisr = 0x40000000#32 := by simpa [Context.isRead] using h
  rw [Context.isWrite, hd]
  rfl

lemma isRead_of_isWrite (h : ctx.isWrite = true) : ctx.isRead = false := by
  have hd : ctx.dsisr = 0x42000000#32 := by simpa [Context.isWrite] using h
  rw [Context.isRead, hd]
  rfl

lemma afterCall_isRead (l : SegvLocals) (ctx : Context) :
    (afterCall l ctx).isRead = ctx.isRead := by
  unfold afterCall
  split
  · exact setReg_isRead ctx l.regDest l.destPtr
  · rfl

/-- A load without an error ends in the write-back of what the read returned. -/
lemma handledLoad_of_decode (ho : sigsegvHandler hw bail u instr s ctx = some o)
    (hok : o.s.fatalError = false) (hr : ctx.isRead = true)
    (hl : decodeLoadStore u instr ctx = some l) (hstore : l.storeMem = false)
    (hupdate : l.updateRegDest = false) :
    ∃ c val, handlerCall u instr s ctx = some c ∧ c.accessWidth = l.accessWidth ∧
      c.loaded hw s = some val ∧ o.s = c.run hw s ∧
      o.ctx = writeBackReg { l with val := val } ctx.next ∧ o.stored = none := by
  cases hc : handlerCall u instr s ctx with
  | none =>
    rw [(sigsegvHandler_of_no_call ho (.inl hr) hc).1] at hok
    contradiction
  | some c =>
    obtain ⟨l',hl',rfl⟩ := sigsegvHandler_of_call ho (.inl hr) hc
    obtain rfl := Option.some.inj (hl.symm.trans hl')
    obtain ⟨paddr,-,hcall⟩ := handlerCall_segvCall hl hc
    obtain ⟨val,hval⟩ := segvCall_loaded hw hcall (isWrite_of_isRead hr)
    have hctx : afterCall l ctx = ctx.next := by simp [afterCall, hupdate]
    have hok' : (c.run hw s).fatalError = false := hok
    have hr' : ctx.next.isRead = true := hr
    refine ⟨c,val,rfl,segvCall_accessWidth hcall,hval,rfl,?_,?_⟩
    · simp [segvOut, hctx, hok', hr', hstore, hval]
    · simp [segvOut, hstore]

/-- A store without an error hands its value on and writes nothing back. -/
lemma handledStore_of_decode (ho : sigsegvHandler hw bail u instr s ctx = some o)
    (hok : o.s.fatalError = false) (hwr : ctx.isWrite = true)
    (hl : decodeLoadStore u instr ctx = some l) :
    ∃ c, handlerCall u instr s ctx = some c ∧ c.accessWidth = l.accessWidth ∧
      c.written = some l.val ∧ o.s = c.run hw s ∧ o.ctx = afterCall l ctx ∧ o.stored = none := by
  cases hc : handlerCall u instr s ctx with
  | none =>
    rw [(sigsegvHandler_of_no_call ho (.inr hwr) hc).1] at hok
    contradiction
  | some c =>
    obtain ⟨l',hl',rfl⟩ := sigsegvHandler_of_call ho (.inr hwr) hc
    obtain rfl := Option.some.inj (hl.symm.trans hl')
    obtain ⟨paddr,-,hcall⟩ := handlerCall_segvCall hl hc
    have hok' : (c.run hw s).fatalError = false := hok
    have hr' : (afterCall l ctx).isRead = false :=
      (afterCall_isRead l ctx).trans (isRead_of_isWrite hwr)
    refine ⟨c,rfl,segvCall_accessWidth hcall,(segvCall_written hcall hwr),rfl,?_,?_⟩
    · simp [segvOut, hok', hr']
    · simp [segvOut, hr']

/-- The locals of the two halfword loads. -/
def halfLoad (u : SegvUninit) (instr : Word) (islha : Bool) : SegvLocals :=
  { u.locals with islha := islha, regDest := (instr &&& 0x03E00000#32) >>> 21, accessWidth := 2 }

lemma decode_lhz (h : primaryOpcode instr = 40) :
    decodeLoadStore u instr ctx = some (halfLoad u instr false) := by
  simp only [decodeLoadStore, h]
  rfl

lemma decode_lha (h : primaryOpcode instr = 42) :
    decodeLoadStore u instr ctx = some (halfLoad u instr true) := by
  simp only [decodeLoadStore, h]
  rfl

/-- The locals of the three stores. -/
def storeLocals (u : SegvUninit) (instr : Word) (ctx : Context) (update : Bool) (width : ℤ)
    (val : Word) : SegvLocals :=
  { u.locals with
    storeMem := true
    updateRegDest := update
    regDest := (instr &&& 0x001F0000#32) >>> 16
    accessWidth := width
    val := val
    destPtr := ctx.gpr (archBase instr) + displacement instr }

lemma decode_stw (h : primaryOpcode instr = 36) : decodeLoadStore u instr ctx =
    some (storeLocals u instr ctx false 4 (ctx.gpr (archReg instr))) := by
  simp only [decodeLoadStore, h, getReg_high, getReg_low, displacement_eq]
  rfl

lemma decode_sth (h : primaryOpcode instr = 44) : decodeLoadStore u instr ctx =
    some (storeLocals u instr ctx false 2 (ctx.gpr (archReg instr) &&& 0x0000FFFF#32)) := by
  simp only [decodeLoadStore, h, getReg_high, getReg_low, displacement_eq]
  rfl

lemma decode_sthu (h : primaryOpcode instr = 45) : decodeLoadStore u instr ctx =
    some (storeLocals u instr ctx true 2 (ctx.gpr (archReg instr) &&& 0x0000FFFF#32)) := by
  simp only [decodeLoadStore, h, getReg_high, getReg_low, displacement_eq]
  rfl

def extendHalf (islha : Bool) (val : Half) : Word :=
  if islha then val.signExtend 32 else val.setWidth 32

lemma writeBackReg_halfLoad (islha : Bool) (val : Word) :
    writeBackReg { halfLoad u instr islha with val := val } ctx =
      ctx.setGpr (archReg instr) (extendHalf islha (val.setWidth 16)) := by
  cases islha with
  | false =>
    change ctx.setReg ((instr &&& 0x03E00000#32) >>> 21) (val &&& 0x0000FFFF#32) = _
    rw [setReg_high, and_lowHalf]
    rfl
  | true =>
    change ctx.setReg ((instr &&& 0x03E00000#32) >>> 21) (_ ||| _) = _
    rw [setReg_high]
    exact congrArg (ctx.setGpr (archReg instr)) (lha_value val)

lemma handledLoad_half {islha : Bool} (ho : sigsegvHandler hw bail u instr s ctx = some o)
    (hok : o.s.fatalError = false) (hr : ctx.isRead = true)
    (hl : decodeLoadStore u instr ctx = some (halfLoad u instr islha)) :
    ∃ c, handlerCall u instr s ctx = some c ∧
      HandledLoad hw instr s ctx (extendHalf islha) c o := by
  obtain ⟨c,val,hc,hwidth,hval,hs,hctx,hstored⟩ := handledLoad_of_decode ho hok hr hl rfl rfl
  rw [writeBackReg_halfLoad] at hctx
  exact ⟨c,hc,⟨hs,hwidth,⟨val,hval,hctx⟩,hstored⟩⟩

lemma handledStore_plain {width : ℤ} {val : Word}
    (ho : sigsegvHandler hw bail u instr s ctx = some o) (hok : o.s.fatalError = false)
    (hwr : ctx.isWrite = true)
    (hl : decodeLoadStore u instr ctx = some (storeLocals u instr ctx false width val)) :
    ∃ c, handlerCall u instr s ctx = some c ∧ HandledStore hw s val width ctx c o := by
  obtain ⟨c,hc,hwidth,hval,hs,hctx,hstored⟩ := handledStore_of_decode ho hok hwr hl
  exact ⟨c,hc,⟨hs,hwidth,hval,hctx,hstored⟩⟩

/-- With the update the base register takes the address, computed before the store. -/
lemma handledStore_update {width : ℤ} {val : Word}
    (ho : sigsegvHandler hw bail u instr s ctx = some o) (hok : o.s.fatalError = false)
    (hwr : ctx.isWrite = true)
    (hl : decodeLoadStore u instr ctx = some (storeLocals u instr ctx true width val)) :
    ∃ c, handlerCall u instr s ctx = some c ∧ HandledStore hw s val width
      (ctx.setGpr (archBase instr) (ctx.gpr (archBase instr) + displacement instr)) c o := by
  obtain ⟨c,hc,hwidth,hval,hs,hctx,hstored⟩ := handledStore_of_decode ho hok hwr hl
  refine ⟨c,hc,⟨hs,hwidth,hval,?_,hstored⟩⟩
  rw [hctx]
  exact congrArg Context.next (setReg_low ctx instr _)

end

/-- What the guest sees of the five instructions, by primary opcode. -/
def GuestEffect (hw : Hardware) (instr : Word) (s : EmuState) (ctx : Context)
    (c : ChipsetCall) (o : SegvOutcome) : ℕ → Prop
  | 40 => HandledLoad hw instr s ctx (fun val => val.setWidth 32) c o -- lhz
  | 42 => HandledLoad hw instr s ctx (fun val => val.signExtend 32) c o -- lha
  | 36 => HandledStore hw s (ctx.gpr (archReg instr)) 4 ctx c o -- stw
  | 44 => HandledStore hw s (ctx.gpr (archReg instr) &&& 0x0000FFFF#32) 2 ctx c o -- sth
  | 45 => HandledStore hw s (ctx.gpr (archReg instr) &&& 0x0000FFFF#32) 2
      (ctx.setGpr (archBase instr) (ctx.gpr (archBase instr) + displacement instr)) c o -- sthu
  | _ => False

/-- A `lha` loads the sign extension of what an `lhz` of the same register would load. -/
def ExtendsLhz (hw : Hardware) (bail : BailOut) (u : SegvUninit) (instr : Word) (s : EmuState)
    (ctx : Context) (o : SegvOutcome) : Prop :=
  ∀ instr', primaryOpcode instr' = 40 → archReg instr' = archReg instr →
    ∃ o', sigsegvHandler hw bail u instr' s ctx = some o' ∧ o'.s = o.s ∧
      o.ctx.gpr (archReg instr) =
        ((o'.ctx.gpr (archReg instr)).setWidth 16).signExtend 32

section

variable {hw : Hardware} {bail : BailOut} {u : SegvUninit} {instr : Word} {s : EmuState}
  {ctx : Context} {o : SegvOutcome}

/-- The two loads call the chipset alike. -/
lemma handlerCall_lhz_eq_lha {instr' : Word} (h : primaryOpcode instr = 42)
    (h' : primaryOpcode instr' = 40) : handlerCall u instr' s ctx = handlerCall u instr s ctx := by
  simp only [handlerCall, decode_lha h, decode_lhz h', Option.bind_some]
  rfl

lemma gpr_setGpr_next (c : Context) (r : Fin 32) (val : Word) :
    ((c.setGpr r val).next).gpr r = val := by
  simp [Context.next, Context.setGpr]

lemma extendsLhz (ho : sigsegvHandler hw bail u instr s ctx = some o)
    (hok : o.s.fatalError = false) (hs : s.fatalError = false) (hr : ctx.isRead = true)
    (hop : primaryOpcode instr = 42) : ExtendsLhz hw bail u instr s ctx o := by
  intro instr' hop' hreg
  obtain ⟨c,hc,hload⟩ := handledLoad_half ho hok hr (decode_lha hop)
  obtain ⟨o',ho'⟩ := exists_sigsegvHandler hw bail u instr' ctx hs
  have hc' : handlerCall u instr' s ctx = some c := (handlerCall_lhz_eq_lha hop hop').trans hc
  have hstate : o'.s = o.s := by
    obtain ⟨l,-,rfl⟩ := sigsegvHandler_of_call ho' (.inl hr) hc'
    exact hload.state.symm
  obtain ⟨c',hc'',hload'⟩ := handledLoad_half ho' (by rw [hstate, hok]) hr (decode_lhz hop')
  obtain rfl := Option.some.inj (hc'.symm.trans hc'')
  obtain ⟨val,hval,hctx⟩ := hload.read
  obtain ⟨val',hval',hctx'⟩ := hload'.read
  obtain rfl := Option.some.inj (hval.symm.trans hval')
  refine ⟨o',ho',hstate,?_⟩
  rw [hctx, hctx', hreg, gpr_setGpr_next, gpr_setGpr_next]
  simp [extendHalf]

lemma ok_of_handler (ho : sigsegvHandler hw bail u instr s ctx = some o)
    (hkind : ctx.isRead = true ∨ ctx.isWrite = true) : s.fatalError = false := by
  by_contra hf
  rw [Bool.not_eq_false] at hf
  simp [sigsegvHandler, known_kind hkind, hf] at ho

/-- A fault of a halfword load or of a store that the handler finishes without an error makes
one call of the chipset, and has the effect of the instruction on the guest's registers. -/
theorem guestEffect (hop : primaryOpcode instr ∈ [40, 42, 36, 44, 45])
    (hk : KindMatches instr ctx) (ho : sigsegvHandler hw bail u instr s ctx = some o)
    (hok : o.s.fatalError = false) :
    (∃ c, handlerCall u instr s ctx = some c ∧
      GuestEffect hw instr s ctx c o (primaryOpcode instr)) ∧
      (primaryOpcode instr = 42 → ExtendsLhz hw bail u instr s ctx o) := by
  simp only [List.mem_cons, List.not_mem_nil, or_false] at hop
  rcases hop with hop | hop | hop | hop | hop
  · have hr : ctx.isRead = true := by simpa [KindMatches, hop] using hk
    rw [hop]
    exact ⟨handledLoad_half ho hok hr (decode_lhz hop),by simp⟩
  · have hr : ctx.isRead = true := by simpa [KindMatches, hop] using hk
    refine ⟨?_,extendsLhz ho hok (ok_of_handler ho (.inl hr)) hr⟩
    rw [hop]
    exact handledLoad_half ho hok hr (decode_lha hop)
  · have hwr : ctx.isWrite = true := by simpa [KindMatches, hop] using hk
    rw [hop]
    exact ⟨handledStore_plain ho hok hwr (decode_stw hop),by simp⟩
  · have hwr : ctx.isWrite = true := by simpa [KindMatches, hop] using hk
    rw [hop]
    exact ⟨handledStore_plain ho hok hwr (decode_sth hop),by simp⟩
  · have hwr : ctx.isWrite = true := by simpa [KindMatches, hop] using hk
    rw [hop]
    exact ⟨handledStore_update ho hok hwr (decode_sthu hop),by simp⟩

end

/-- `sthu r4, 0x20(r4)` on a DSP register in real mode. -/
theorem guestEffect_sthu : ∃ o c, GuestEffect zeroHardware 0xB4840020#32 .zero
    (faultAt 0x0C005020#32 0x42000000#32) c o 45 := by
  obtain ⟨o,ho⟩ := exists_sigsegvHandler zeroHardware ⟨0,0,0,0⟩ ⟨7,0,0⟩ 0xB4840020#32
    (s := .zero) (faultAt 0x0C005020#32 0x42000000#32) rfl
  have hfatal : (sigsegvHandler zeroHardware ⟨0,0,0,0⟩ ⟨7,0,0⟩ 0xB4840020#32 .zero
      (faultAt 0x0C005020#32 0x42000000#32)).map (fun o => o.s.fatalError) = some false := by
    decide
  rw [ho] at hfatal
  obtain ⟨⟨c,-,hc⟩,-⟩ := guestEffect (by decide) (by decide) ho (Option.some.inj hfatal)
  exact ⟨o,c,hc⟩

end DolTools
