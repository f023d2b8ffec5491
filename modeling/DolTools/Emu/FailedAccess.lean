import DolTools.Emu.LoadStore

/-! The faults that the handler of loads and stores gives up on. Every failure goes on to the
write-back that the successful accesses share, with the locals as far as the decoding came. -/
namespace DolTools

/-- The primary opcodes of lwz, lhz and lha, and of stw, sth and sthu. -/
def loadOpcodes : List ℕ := [32, 40, 42]
def storeOpcodes : List ℕ := [36, 44, 45]

/-- The faults that the handler cannot emulate, in the order of its tests. -/
inductive NotEmulated (instr : Word) (s : EmuState) (ctx : Context) : Prop
  | kind (read : ctx.isRead = false) (write : ctx.isWrite = false)
  | instruction (load : primaryOpcode instr ∉ loadOpcodes)
      (store : primaryOpcode instr ∉ storeOpcodes)
  | unmapped (none : faultPaddr s ctx = none)
  | range {paddr : Word} (addr : faultPaddr s ctx = some paddr)
      (outside : paddr &&& 0xFFF00000#32 ∉ [flipperRange, hollywoodMirror, hollywoodRange])
  | console {paddr : Word} (addr : faultPaddr s ctx = some paddr)
      (hollywood : paddr &&& 0xFFF00000#32 ∈ [hollywoodMirror, hollywoodRange])
      (gamecube : s.consoleType = .gamecube)

/-- The locals with which a failure reaches `sigsegv_out`. -/
def tailLocals (u : SegvUninit) (instr : Word) (ctx : Context) : SegvLocals :=
  if !ctx.isRead && !ctx.isWrite then u.locals
  else (decodeLoadStore u instr ctx).getD u.locals

/-- The index of the register that the write-back sets, if it sets one. -/
def tailReg (ctx : Context) (l : SegvLocals) : Option Word :=
  if ctx.isRead && !l.storeMem && (l.islha || (cutToWidth l.val l.accessWidth).isSome) then
    some l.regDest
  else none

/-- The indices that the handler decodes from an instruction it knows. -/
def decodedRegs (instr : Word) : List Word :=
  if primaryOpcode instr ∈ loadOpcodes ++ storeOpcodes then
    [(instr &&& 0x03E00000#32) >>> 21, (instr &&& 0x001F0000#32) >>> 16]
  else []

/-- The outcome of a failed access: fatal, the guest sent to the bail-out, no access of the
chipset, and of the registers at most those of the bail-out changed. -/
structure GuestIntact (bail : BailOut) (instr : Word) (ctx : Context) (l : SegvLocals)
    (o : SegvOutcome) : Prop where
  fatal : o.s.fatalError = true
  pc : o.ctx.nip = bail.emergencyBailOut
  mmio : o.mmioWidth = none
  gpr : ∀ r, r ∉ [1, 2, 13] → o.ctx.gpr r = ctx.gpr r
  decoded : ∀ r, tailReg ctx l = some r → r ∈ decodedRegs instr

/-- The same for whatever the uninitialised locals hold. -/
def FailsIntact (hw : Hardware) (bail : BailOut) (instr : Word) (s : EmuState) (ctx : Context) :
    Prop :=
  ∀ u, ∃ o, sigsegvHandler hw bail u instr s ctx = some o ∧
    GuestIntact bail instr ctx (tailLocals u instr ctx) o

/-- The write-back finds nothing to do: the fault is no read, or the instruction is a store, or
a load whose register is cleared already or is set by the bail-out anyway. -/
def NothingToClear (instr : Word) (ctx : Context) : Prop :=
  ctx.isRead = false ∨ primaryOpcode instr ∈ storeOpcodes ∨
    (primaryOpcode instr ∈ loadOpcodes ∧
      (archReg instr ∈ [1, 2, 13] ∨ ctx.gpr (archReg instr) = 0))

instance (instr : Word) (ctx : Context) : Decidable (NothingToClear instr ctx) :=
  inferInstanceAs (Decidable (_ ∨ _))

section

variable {hw : Hardware} {bail : BailOut} {u : SegvUninit} {instr : Word} {s : EmuState}
  {ctx : Context} {l : SegvLocals}

lemma decodeLoadStore_eq_none (hload : primaryOpcode instr ∉ loadOpcodes)
    (hstore : primaryOpcode instr ∉ storeOpcodes) : decodeLoadStore u instr ctx = none := by
  simp only [loadOpcodes, storeOpcodes, List.mem_cons, List.not_mem_nil, or_false, not_or]
    at hload hstore
  unfold decodeLoadStore
  split <;> simp_all

/-- No failure kind leaves a call of a dispatcher to make. -/
lemma handlerCall_eq_none (h : NotEmulated instr s ctx)
    (hkind : ctx.isRead = true ∨ ctx.isWrite = true) : handlerCall u instr s ctx = none := by
  unfold handlerCall
  split
  · rfl
  · cases h with
    | kind read write => simp_all
    | instruction load store => rw [decodeLoadStore_eq_none load store, Option.bind_none]
    | unmapped none => simp [none]
    | range addr outside =>
      simp only [List.mem_cons, List.not_mem_nil, or_false, not_or] at outside
      simp [addr, segvCall, chipsetAddr, outside]
    | console addr hollywood gamecube =>
      simp only [List.mem_cons, List.not_mem_nil, or_false] at hollywood
      rcases hollywood with heq | heq <;>
        simp [addr, segvCall, chipsetAddr, gamecube, heq, hollywoodMirror, hollywoodRange,
          flipperRange]

/-- Every failure goes to the shared tail. -/
theorem sigsegvHandler_of_fails (hs : s.fatalError = false) (h : NotEmulated instr s ctx) :
    sigsegvHandler hw bail u instr s ctx =
      some (segvOut bail (tailLocals u instr ctx) none s.fatal ctx) := by
  cases hkind : !ctx.isRead && !ctx.isWrite with
  | true => simp [sigsegvHandler, tailLocals, hkind]
  | false =>
    have hcall : handlerCall u instr s ctx = none := by
      apply handlerCall_eq_none h
      cases hr : ctx.isRead <;> cases hw' : ctx.isWrite <;> simp_all
    simp only [handlerCall, hs, Bool.false_eq_true, if_false] at hcall
    simp only [sigsegvHandler, tailLocals, hkind, hs, Bool.false_eq_true, if_false]
    cases hl : decodeLoadStore u instr ctx with
    | none => rfl
    | some l =>
      rw [hl] at hcall
      cases hp : faultPaddr s ctx with
      | none => rfl
      | some paddr =>
        rw [hp] at hcall
        exact congrArg some (segvDispatch_of_no_call hcall)

/-- With nothing loaded, the write-back clears the register that it sets. -/
lemma writeBack_of_zero (hval : l.val = 0) :
    (if ctx.isRead && !l.storeMem then writeBackReg l ctx else ctx) =
      match tailReg ctx l with
      | some r => ctx.setReg r 0
      | none => ctx := by
  unfold tailReg
  cases hr : ctx.isRead && !l.storeMem with
  | false => rfl
  | true =>
    unfold writeBackReg
    cases hlha : l.islha with
    | true => simp [hval]
    | false =>
      have hcut : cutToWidth l.val l.accessWidth = none ∨
          cutToWidth l.val l.accessWidth = some 0 := by
        rw [hval]
        unfold cutToWidth
        split_ifs <;> simp
      rcases hcut with hcut | hcut <;> simp [hcut]

lemma tailLocals_of_load (hkind : ctx.isRead = true) (hload : primaryOpcode instr ∈ loadOpcodes) :
    (tailLocals u instr ctx).storeMem = false ∧ (tailLocals u instr ctx).val = 0 ∧
      (tailLocals u instr ctx).regDest = (instr &&& 0x03E00000#32) >>> 21 := by
  simp only [loadOpcodes, List.mem_cons, List.not_mem_nil, or_false] at hload
  rcases hload with hop | hop | hop <;>
    simp [tailLocals, hkind, decodeLoadStore, hop, SegvUninit.locals]

lemma storeMem_of_store (hkind : ctx.isRead = true) (hstore : primaryOpcode instr ∈ storeOpcodes) :
    (tailLocals u instr ctx).storeMem = true := by
  simp only [storeOpcodes, List.mem_cons, List.not_mem_nil, or_false] at hstore
  rcases hstore with hop | hop | hop <;> simp [tailLocals, hkind, decodeLoadStore, hop]

/-- A register other than the three of the bail-out is as the write-back left it. -/
lemma recover_gpr (c : Context) {r : Fin 32} (hr : r ∉ [1, 2, 13]) :
    (bail.recover c).gpr r = c.gpr r := by
  simp only [List.mem_cons, List.not_mem_nil, or_false, not_or] at hr
  obtain ⟨h1,h2,h13⟩ := hr
  simp [BailOut.recover, Context.setGpr, h1, h2, h13]

/-- Without a write-back the registers stay. -/
lemma guestIntact_of_no_writeBack (h : (ctx.isRead && !l.storeMem) = false) :
    GuestIntact bail instr ctx l (segvOut bail l none s.fatal ctx) where
  fatal := rfl
  pc := rfl
  mmio := rfl
  gpr r hr := by
    simp only [segvOut, h, Bool.false_eq_true, if_false]
    exact recover_gpr ctx hr
  decoded r hr := by
    simp only [tailReg, h, Bool.false_and, Bool.false_eq_true, if_false] at hr
    contradiction

lemma tailReg_of_load (hkind : ctx.isRead = true) (hload : primaryOpcode instr ∈ loadOpcodes) :
    tailReg ctx (tailLocals u instr ctx) = none ∨
      tailReg ctx (tailLocals u instr ctx) = some ((instr &&& 0x03E00000#32) >>> 21) := by
  unfold tailReg
  rw [(tailLocals_of_load hkind hload).2.2]
  split_ifs <;> simp

/-- The write-back of a load clears its register, or does nothing. -/
lemma segvOut_ctx_of_load (hkind : ctx.isRead = true)
    (hload : primaryOpcode instr ∈ loadOpcodes) :
    (segvOut bail (tailLocals u instr ctx) none s.fatal ctx).ctx =
      bail.recover (if (tailReg ctx (tailLocals u instr ctx)).isSome then
        ctx.setGpr (archReg instr) 0 else ctx) := by
  change bail.recover (if ctx.isRead && !(tailLocals u instr ctx).storeMem then
    writeBackReg (tailLocals u instr ctx) ctx else ctx) = _
  rw [writeBack_of_zero (tailLocals_of_load hkind hload).2.1]
  rcases tailReg_of_load (u := u) hkind hload with htail | htail
  · rw [htail]
    rfl
  · rw [htail]
    exact congrArg bail.recover (setReg_high ctx instr 0)

/-- A load whose register is cleared already, or set by the bail-out, leaves the others. -/
lemma guestIntact_of_load (hkind : ctx.isRead = true) (hload : primaryOpcode instr ∈ loadOpcodes)
    (hreg : archReg instr ∈ [1, 2, 13] ∨ ctx.gpr (archReg instr) = 0) :
    GuestIntact bail instr ctx (tailLocals u instr ctx)
      (segvOut bail (tailLocals u instr ctx) none s.fatal ctx) where
  fatal := rfl
  pc := rfl
  mmio := rfl
  gpr r hr := by
    rw [segvOut_ctx_of_load hkind hload, recover_gpr _ hr]
    split
    · change Function.update ctx.gpr (archReg instr) 0 r = ctx.gpr r
      rw [Function.update_apply]
      split
      · rename_i heq
        rw [heq] at hr ⊢
        exact (hreg.resolve_left hr).symm
      · rfl
    · rfl
  decoded r hr := by
    have hmem : primaryOpcode instr ∈ loadOpcodes ++ storeOpcodes := List.mem_append_left _ hload
    rcases tailReg_of_load (u := u) hkind hload with htail | htail
    · rw [htail] at hr
      contradiction
    · rw [htail] at hr
      rw [decodedRegs, if_pos hmem, ← Option.some.inj hr]
      exact List.mem_cons_self

lemma nothingToClear_of_intact (hs : s.fatalError = false) (hno : NotEmulated instr s ctx)
    (h : FailsIntact hw bail instr s ctx) : NothingToClear instr ctx := by
  cases hkind : ctx.isRead with
  | false => exact .inl hkind
  | true =>
    -- uninitialised locals with which the write-back has a width
    obtain ⟨o,ho,hintact⟩ := h ⟨4,0,0⟩
    obtain rfl := Option.some.inj ((sigsegvHandler_of_fails hs hno).symm.trans ho)
    by_cases hstore : primaryOpcode instr ∈ storeOpcodes
    · exact .inr (.inl hstore)
    · by_cases hload : primaryOpcode instr ∈ loadOpcodes
      · refine .inr (.inr ⟨hload,?_⟩)
        by_contra hcon
        push Not at hcon
        have hgpr := hintact.gpr (archReg instr) hcon.1
        have htail : (tailReg ctx (tailLocals ⟨4,0,0⟩ instr ctx)).isSome = true := by
          simp only [loadOpcodes, List.mem_cons, List.not_mem_nil, or_false] at hload
          rcases hload with hop | hop | hop <;>
            simp [tailReg, tailLocals, hkind, decodeLoadStore, hop, SegvUninit.locals, cutToWidth]
        rw [segvOut_ctx_of_load hkind hload, recover_gpr _ hcon.1, if_pos htail] at hgpr
        have hclear : (ctx.setGpr (archReg instr) 0).gpr (archReg instr) = 0 :=
          Function.update_self _ _ _
        exact hcon.2 (hgpr.symm.trans hclear)
      · have hmem : primaryOpcode instr ∉ loadOpcodes ++ storeOpcodes :=
          fun hmem => (List.mem_append.mp hmem).elim hload hstore
        have htail : tailReg ctx (tailLocals ⟨4,0,0⟩ instr ctx) = some 0 := by
          simp [tailReg, tailLocals, hkind, decodeLoadStore_eq_none hload hstore,
            SegvUninit.locals, cutToWidth]
        have hdecoded := hintact.decoded 0 htail
        rw [decodedRegs, if_neg hmem] at hdecoded
        contradiction

end

/-- A fault at an address outside the chipset, with all registers one. -/
def outsideFault (dsisr : Word) : Context := ⟨fun _ => 1,0x80003100#32,0x10000000#32,dsisr⟩

lemma notEmulated_outsideFault (instr dsisr : Word) :
    NotEmulated instr .zero (outsideFault dsisr) := by
  have haddr : faultPaddr .zero (outsideFault dsisr) = some 0x10000000#32 := rfl
  exact .range haddr (by decide)

end DolTools
