import DolTools.Emu.Sigsegv

/-! The width of an emulated load or store. Every branch of the decoding sets it but the one
of `lwz`, so that the width of an `lwz` is whatever the local held before. -/
namespace DolTools

/-- The width of each instruction that the handler recognises, by primary opcode. -/
def instrWidth : ℕ → Option ℤ
  | 32 => some 4
  | 36 => some 4
  | 40 => some 2
  | 42 => some 2
  | 44 => some 2
  | 45 => some 2
  | _ => none

/-- The fault is of the kind of the instruction: loads read, stores write. -/
def KindMatches (instr : Word) (ctx : Context) : Prop :=
  if primaryOpcode instr ∈ [36, 44, 45] then ctx.isWrite = true else ctx.isRead = true

instance (instr : Word) (ctx : Context) : Decidable (KindMatches instr ctx) := by
  unfold KindMatches
  infer_instance

/-- The fault lies in a range whose routines the handler calls. -/
def ReachesChipset (s : EmuState) (ctx : Context) : Prop :=
  ∃ paddr, faultPaddr s ctx = some paddr ∧
    (paddr &&& 0xFFF00000#32 = flipperRange ∨
      (paddr &&& 0xFFF00000#32 ∈ [hollywoodMirror, hollywoodRange] ∧ s.consoleType ≠ .gamecube))

/-- The width handed to the chipset, and the one at the write-back, are the given one. -/
structure WidthsRight (s : EmuState) (ctx : Context) (width : ℤ) (o : SegvOutcome) : Prop where
  handed : ReachesChipset s ctx → o.mmioWidth = some width
  writtenBack : ctx.isRead = true → o.writeBackWidth = some width

section

variable {hw : Hardware} {bail : BailOut} {u : SegvUninit} {instr : Word} {s : EmuState}
  {ctx : Context} {l : SegvLocals} {paddr : Word}

variable (u ctx) in
lemma decodeLoadStore_width {width : ℤ} (hw : instrWidth (primaryOpcode instr) = some width) :
    ∃ l, decodeLoadStore u instr ctx = some l ∧
      l.accessWidth = if primaryOpcode instr = 32 then u.accessWidth else width := by
  unfold decodeLoadStore
  unfold instrWidth at hw
  split at hw <;> rename_i hop <;> simp only [hop] <;>
    simp_all [SegvUninit.locals]

lemma setReg_isRead (c : Context) (r val : Word) : (c.setReg r val).isRead = c.isRead := by
  unfold Context.setReg
  split <;> rfl

/-- From the decoded locals on, the width is handed on as it is. -/
lemma segvAccess_widths (read : Word → ℤ → EmuState → MmioAccess Word)
    (write : Word → Word → ℤ → EmuState → MmioAccess Unit) :
    (segvAccess bail read write paddr l s ctx).mmioWidth = some l.accessWidth ∧
      (segvAccess bail read write paddr l s ctx).writeBackWidth =
        if ctx.isRead then some l.accessWidth else none := by
  refine ⟨rfl,?_⟩
  have hread : (if l.updateRegDest then ctx.setReg l.regDest l.destPtr else ctx).next.isRead =
      ctx.isRead := by
    split
    · exact setReg_isRead ctx l.regDest l.destPtr
    · rfl
  simp only [segvAccess, segvOut, hread]

lemma segvDispatch_writeBackWidth :
    (segvDispatch hw bail paddr l s ctx).writeBackWidth =
      if ctx.isRead then some l.accessWidth else none := by
  unfold segvDispatch
  dsimp only
  by_cases hf : paddr &&& 0xFFF00000#32 = flipperRange
  · rw [if_pos hf]
    exact (segvAccess_widths _ _).2
  · by_cases hh : paddr &&& 0xFFF00000#32 = hollywoodMirror ∨
        paddr &&& 0xFFF00000#32 = hollywoodRange
    · rw [if_neg hf, if_pos hh]
      cases hc : s.consoleType with
      | gamecube => rfl
      | wii => exact (segvAccess_widths _ _).2
      | other => exact (segvAccess_widths _ _).2
    · rw [if_neg hf, if_neg hh]
      rfl

lemma segvDispatch_mmioWidth (h : paddr &&& 0xFFF00000#32 = flipperRange ∨
      (paddr &&& 0xFFF00000#32 ∈ [hollywoodMirror, hollywoodRange] ∧
        s.consoleType ≠ .gamecube)) :
    (segvDispatch hw bail paddr l s ctx).mmioWidth = some l.accessWidth := by
  unfold segvDispatch
  dsimp only
  rcases h with h | ⟨h,hc⟩
  · rw [if_pos h]
    rfl
  · have hne : paddr &&& 0xFFF00000#32 ≠ flipperRange := by
      intro he
      rw [he] at h
      revert h
      decide
    have hor : paddr &&& 0xFFF00000#32 = hollywoodMirror ∨
        paddr &&& 0xFFF00000#32 = hollywoodRange := by simpa using h
    rw [if_neg hne, if_pos hor, if_neg hc]
    rfl

variable (hw bail) in
lemma sigsegvHandler_widths (hs : s.fatalError = false) (hk : KindMatches instr ctx)
    (hl : decodeLoadStore u instr ctx = some l) :
    ∃ o, sigsegvHandler hw bail u instr s ctx = some o ∧
      (ReachesChipset s ctx → o.mmioWidth = some l.accessWidth) ∧
      (ctx.isRead = true → o.writeBackWidth = some l.accessWidth) := by
  have hkind : (!ctx.isRead && !ctx.isWrite) = false := by
    unfold KindMatches at hk
    split at hk <;> simp [hk]
  cases hp : faultPaddr s ctx with
  | none =>
    refine ⟨segvOut bail l none s.fatal ctx,by simp [sigsegvHandler, hkind, hs, hl, hp],?_,?_⟩
    · rintro ⟨paddr,hp',-⟩
      rw [hp] at hp'
      contradiction
    · intro hr
      simp [segvOut, hr]
  | some paddr =>
    refine ⟨segvDispatch hw bail paddr l s ctx,
      by simp [sigsegvHandler, hkind, hs, hl, hp],?_,?_⟩
    · rintro ⟨paddr',hp',hrange⟩
      rw [hp] at hp'
      obtain rfl := Option.some.inj hp'
      exact segvDispatch_mmioWidth hrange
    · intro hr
      rw [segvDispatch_writeBackWidth, hr, if_pos rfl]

/-- The width is right, whatever the uninitialised locals hold, exactly for the instructions
other than `lwz`. -/
theorem widthsRight_iff {width : ℤ} (hs : s.fatalError = false)
    (hinstr : instrWidth (primaryOpcode instr) = some width) (hk : KindMatches instr ctx) :
    (∀ u, ∃ o, sigsegvHandler hw bail u instr s ctx = some o ∧ WidthsRight s ctx width o) ↔
      primaryOpcode instr ≠ 32 := by
  constructor
  · intro h hlwz
    -- an `lwz` is a load, so that its width shows at the write-back at the latest
    have hread : ctx.isRead = true := by simpa [KindMatches, hlwz] using hk
    let u : SegvUninit := ⟨width + 1,0,0⟩
    obtain ⟨l,hl,hwidth⟩ := decodeLoadStore_width u ctx hinstr
    obtain ⟨o,ho,-,hback⟩ := sigsegvHandler_widths hw bail hs hk hl
    obtain ⟨o',ho',hright⟩ := h u
    obtain rfl := Option.some.inj (ho.symm.trans ho')
    have heq := Option.some.inj ((hback hread).symm.trans (hright.writtenBack hread))
    rw [hwidth, if_pos hlwz] at heq
    change width + 1 = width at heq
    omega
  · intro hne u
    obtain ⟨l,hl,hwidth⟩ := decodeLoadStore_width u ctx hinstr
    obtain ⟨o,ho,hhanded,hback⟩ := sigsegvHandler_widths hw bail hs hk hl
    rw [hwidth, if_neg hne] at hhanded hback
    exact ⟨o,ho,hhanded,hback⟩

end

def zeroHardware : Hardware := ⟨fun _ _ _ => 0,0⟩

def faultAt (dar dsisr : Word) : Context := ⟨fun _ => 0,0,dar,dsisr⟩

/-- `sth r3, 0x20(r4)` on a DSP register in real mode, the local holding 7 by chance. -/
theorem widthsRight_sth : ∃ o, sigsegvHandler zeroHardware ⟨0,0,0,0⟩ ⟨7,0,0⟩ 0xB0640020#32 .zero
    (faultAt 0x0C005020#32 0x42000000#32) = some o ∧
      WidthsRight .zero (faultAt 0x0C005020#32 0x42000000#32) 2 o :=
  (widthsRight_iff rfl (by decide) (by decide)).mpr (by decide) ⟨7,0,0⟩

/-- `lwz r3, 0(r4)` on a processor interface register, the local holding 2 by chance. -/
theorem lwz_width_wrong :
    ¬ ∀ (hw : Hardware) (bail : BailOut) (u : SegvUninit) (instr : Word) (s : EmuState)
      (ctx : Context) (width : ℤ), s.fatalError = false →
      instrWidth (primaryOpcode instr) = some width → KindMatches instr ctx →
      ReachesChipset s ctx →
      ∃ o, sigsegvHandler hw bail u instr s ctx = some o ∧ WidthsRight s ctx width o := by
  intro h
  have hreach : ReachesChipset .zero (faultAt 0x0C003004#32 0x40000000#32) :=
    ⟨0x0C003004#32,by decide,.inl (by decide)⟩
  obtain ⟨o,ho,hright⟩ := h zeroHardware ⟨0,0,0,0⟩ ⟨2,0,0⟩ 0x80640000#32 .zero
    (faultAt 0x0C003004#32 0x40000000#32) 4 rfl (by decide) (by decide) hreach
  have hback := congrArg (fun r => r.map (fun o => o.writeBackWidth)) ho
  rw [Option.map_some, hright.writtenBack rfl] at hback
  revert hback
  decide

end DolTools
