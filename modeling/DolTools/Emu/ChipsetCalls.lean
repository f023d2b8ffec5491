import DolTools.Emu.AccessWidth

/-! The one call of a dispatcher that a handled fault makes: which routine, with which
address, value and width. Everything else that the handler does to the emulator state is
raising the error flag. -/
namespace DolTools

/-- A call of one of the four dispatchers, with its arguments. -/
inductive ChipsetCall
  | flipperRead (addr : Word) (accessWidth : ℤ)
  | flipperWrite (addr val : Word) (accessWidth : ℤ)
  | hollywoodRead (addr : Word) (accessWidth : ℤ)
  | hollywoodWrite (addr val : Word) (accessWidth : ℤ)
  deriving DecidableEq

namespace ChipsetCall

def addr : ChipsetCall → Word
  | flipperRead addr _ | flipperWrite addr _ _ | hollywoodRead addr _ | hollywoodWrite addr _ _ =>
    addr

def accessWidth : ChipsetCall → ℤ
  | flipperRead _ w | flipperWrite _ _ w | hollywoodRead _ w | hollywoodWrite _ _ w => w

/-- The value handed to a write. -/
def written : ChipsetCall → Option Word
  | flipperWrite _ val _ | hollywoodWrite _ val _ => some val
  | flipperRead .. | hollywoodRead .. => none

/-- The value that a read returns. -/
def loaded (hw : Hardware) (s : EmuState) : ChipsetCall → Option Word
  | flipperRead addr w => some (DolTools.flipperRead hw addr w s).value
  | hollywoodRead addr w => some (DolTools.hollywoodRead hw addr w s).value
  | flipperWrite .. | hollywoodWrite .. => none

/-- The state that the call leaves. -/
def run (hw : Hardware) (s : EmuState) : ChipsetCall → EmuState
  | flipperRead addr w => (DolTools.flipperRead hw addr w s).s
  | flipperWrite addr val w => (DolTools.flipperWrite addr val w s).s
  | hollywoodRead addr w => (DolTools.hollywoodRead hw addr w s).s
  | hollywoodWrite addr val w => (DolTools.hollywoodWrite addr val w s).s

end ChipsetCall

/-- The address that a dispatcher gets for a physical address, if it lies in a range of the
chipset that the console has. -/
def chipsetAddr (consoleType : ConsoleType) (paddr : Word) : Option Word :=
  let range := paddr &&& 0xFFF00000#32
  if range = flipperRange then some paddr
  else if range = hollywoodMirror ∨ range = hollywoodRange then
    if consoleType = .gamecube then none else some (paddr &&& ~~~0x00800000#32)
  else none

/-- The call that the handler makes for a decoded instruction. -/
def segvCall (paddr : Word) (l : SegvLocals) (s : EmuState) (ctx : Context) :
    Option ChipsetCall :=
  (chipsetAddr s.consoleType paddr).map (fun addr =>
    if paddr &&& 0xFFF00000#32 = flipperRange then
      if ctx.isWrite then .flipperWrite addr l.val l.accessWidth
      else .flipperRead addr l.accessWidth
    else if ctx.isWrite then .hollywoodWrite addr l.val l.accessWidth
      else .hollywoodRead addr l.accessWidth)

/-- The same from the entry of the handler. -/
def handlerCall (u : SegvUninit) (instr : Word) (s : EmuState) (ctx : Context) :
    Option ChipsetCall :=
  if s.fatalError then none
  else (decodeLoadStore u instr ctx).bind (fun l =>
    (faultPaddr s ctx).bind (fun paddr => segvCall paddr l s ctx))

section

variable {hw : Hardware} {bail : BailOut} {u : SegvUninit} {instr : Word} {s : EmuState}
  {ctx : Context} {l : SegvLocals} {paddr : Word} {c : ChipsetCall} {o : SegvOutcome}

/-- The context behind the dispatch: the base register updated if asked for, and the
instruction stepped over. -/
def afterCall (l : SegvLocals) (ctx : Context) : Context :=
  (if l.updateRegDest then ctx.setReg l.regDest l.destPtr else ctx).next

lemma segvDispatch_of_call (h : segvCall paddr l s ctx = some c) :
    segvDispatch hw bail paddr l s ctx =
      segvOut bail { l with val := (c.loaded hw s).getD l.val } (some l.accessWidth) (c.run hw s)
        (afterCall l ctx) := by
  unfold segvCall chipsetAddr at h
  unfold segvDispatch
  dsimp only at h ⊢
  by_cases hf : paddr &&& 0xFFF00000#32 = flipperRange
  · rw [if_pos hf] at h ⊢
    simp only [Option.map_some, if_pos hf, Option.some.injEq] at h
    subst h
    cases hw' : ctx.isWrite <;> simp [segvAccess, hw', ChipsetCall.loaded, ChipsetCall.run,
      afterCall]
  · rw [if_neg hf] at h ⊢
    by_cases hh : paddr &&& 0xFFF00000#32 = hollywoodMirror ∨
        paddr &&& 0xFFF00000#32 = hollywoodRange
    · rw [if_pos hh] at h ⊢
      by_cases hc : s.consoleType = .gamecube
      · simp [hc] at h
      · rw [if_neg hc] at h ⊢
        simp only [Option.map_some, if_neg hf, Option.some.injEq] at h
        subst h
        cases hw' : ctx.isWrite <;> simp [segvAccess, hw', ChipsetCall.loaded, ChipsetCall.run,
          afterCall]
    · simp [hh] at h

lemma segvDispatch_of_no_call (h : segvCall paddr l s ctx = none) :
    segvDispatch hw bail paddr l s ctx = segvOut bail l none s.fatal ctx := by
  unfold segvCall chipsetAddr at h
  unfold segvDispatch
  dsimp only at h ⊢
  rw [Option.map_eq_none_iff] at h
  split_ifs at h ⊢ <;> rfl

lemma handlerCall_segvCall (hl : decodeLoadStore u instr ctx = some l)
    (hc : handlerCall u instr s ctx = some c) :
    ∃ paddr, faultPaddr s ctx = some paddr ∧ segvCall paddr l s ctx = some c := by
  unfold handlerCall at hc
  split_ifs at hc
  rw [hl] at hc
  exact Option.bind_eq_some_iff.mp hc

/-- A fault that the handler takes for a read or a write passes its first test. -/
lemma known_kind (h : ctx.isRead = true ∨ ctx.isWrite = true) :
    (!ctx.isRead && !ctx.isWrite) = false := by
  rcases h with h | h <;> simp [h]

/-- A fault that ends in a call: the dispatcher runs once, and the loaded value goes on to
the write-back. -/
theorem sigsegvHandler_of_call (ho : sigsegvHandler hw bail u instr s ctx = some o)
    (hkind : ctx.isRead = true ∨ ctx.isWrite = true)
    (hc : handlerCall u instr s ctx = some c) :
    ∃ l, decodeLoadStore u instr ctx = some l ∧
      o = segvOut bail { l with val := (c.loaded hw s).getD l.val } (some l.accessWidth)
        (c.run hw s) (afterCall l ctx) := by
  have hkind' := known_kind hkind
  unfold handlerCall at hc
  cases hs : s.fatalError with
  | true => simp [hs] at hc
  | false =>
    rw [hs] at hc
    obtain ⟨l,hl,hc⟩ := Option.bind_eq_some_iff.mp hc
    obtain ⟨paddr,hp,hc⟩ := Option.bind_eq_some_iff.mp hc
    refine ⟨l,hl,?_⟩
    rw [← segvDispatch_of_call hc]
    simpa [sigsegvHandler, hkind', hs, hl, hp] using ho.symm

/-- A fault that ends in no call is an error, and the error flag is all that changes. -/
theorem sigsegvHandler_of_no_call (ho : sigsegvHandler hw bail u instr s ctx = some o)
    (hkind : ctx.isRead = true ∨ ctx.isWrite = true)
    (hc : handlerCall u instr s ctx = none) : o.s = s.fatal ∧ o.mmioWidth = none := by
  have hkind' := known_kind hkind
  unfold handlerCall at hc
  unfold sigsegvHandler at ho
  cases hs : s.fatalError with
  | true => simp [hkind', hs] at ho
  | false =>
    rw [hs] at hc
    simp only [hkind', hs, Bool.false_eq_true, ↓reduceIte] at hc ho
    cases hl : decodeLoadStore u instr ctx with
    | none =>
      simp only [hl, Option.some.injEq] at ho
      subst ho
      exact ⟨rfl,rfl⟩
    | some l =>
      cases hp : faultPaddr s ctx with
      | none =>
        simp only [hl, hp, Option.some.injEq] at ho
        subst ho
        exact ⟨rfl,rfl⟩
      | some paddr =>
        simp only [hl, hp, Option.some.injEq, Option.bind_some] at ho hc
        rw [segvDispatch_of_no_call hc] at ho
        subst ho
        exact ⟨rfl,rfl⟩

variable (hw bail u instr ctx) in
/-- Without an earlier fatal error the handler returns. -/
lemma exists_sigsegvHandler (hs : s.fatalError = false) :
    ∃ o, sigsegvHandler hw bail u instr s ctx = some o := by
  unfold sigsegvHandler
  rw [hs, if_neg Bool.false_ne_true]
  split
  · exact ⟨_,rfl⟩
  · cases decodeLoadStore u instr ctx with
    | none => exact ⟨_,rfl⟩
    | some l =>
      cases faultPaddr s ctx with
      | none => exact ⟨_,rfl⟩
      | some paddr => exact ⟨_,rfl⟩

/-- The handler performs an access of the chipset exactly when it calls a dispatcher. -/
theorem mmioWidth_isSome_iff (ho : sigsegvHandler hw bail u instr s ctx = some o)
    (hkind : ctx.isRead = true ∨ ctx.isWrite = true) :
    o.mmioWidth.isSome = true ↔ ∃ c, handlerCall u instr s ctx = some c := by
  cases hc : handlerCall u instr s ctx with
  | none => simp [(sigsegvHandler_of_no_call ho hkind hc).2]
  | some c =>
    obtain ⟨l,-,rfl⟩ := sigsegvHandler_of_call ho hkind hc
    simp [segvOut]

end

end DolTools
