import DolTools.Emu.ChipsetCalls

/-! Which table translates a faulting load or store. The handler looks the address up among
the instruction BATs first and never asks whether a translation is writable. -/
namespace DolTools

/-- The physical address that one of the two tables gives. -/
def tableAddr (s : EmuState) (v : Word) (isData : Bool) : Option Word :=
  let phys := memVirtToPhys s v isData
  if phys.mapped then some phys.addr else none

/-- The address of the chipset that one of the two tables gives. -/
def tableDevice (s : EmuState) (v : Word) (isData : Bool) : Option Word :=
  (tableAddr s v isData).bind (chipsetAddr s.consoleType)

/-- The data BATs give the address of the call, up to the mirror of Hollywood, and let a
write through. -/
structure DataTranslated (s : EmuState) (v : Word) (c : ChipsetCall) : Prop where
  mapped : (memVirtToPhys s v true).mapped = true
  addr : c.addr = (memVirtToPhys s v true).addr ∨
    ((memVirtToPhys s v true).addr &&& 0xFFF00000#32 ∈ [hollywoodMirror, hollywoodRange] ∧
      c.addr = (memVirtToPhys s v true).addr &&& ~~~0x00800000#32)
  writable : c.written.isSome = true → (memVirtToPhys s v true).writable = true

/-- The instruction BATs lead to a register that the data BATs do not lead to. -/
def WrongTable (s : EmuState) (v : Word) : Prop :=
  ∃ a, tableDevice s v false = some a ∧ tableDevice s v true ≠ some a

/-- A write through a data BAT that is not writable, with no instruction BAT in the way. -/
def ReadOnlyStore (s : EmuState) (ctx : Context) : Prop :=
  ctx.isWrite = true ∧ (memVirtToPhys s ctx.dar true).writable = false ∧
    tableDevice s ctx.dar true ≠ none ∧
    (tableAddr s ctx.dar false = none ∨
      tableDevice s ctx.dar false = tableDevice s ctx.dar true)

section

variable {t : ConsoleType} {p q a : Word}

lemma range_clear_mirror (p : Word) : (p &&& ~~~0x00800000#32) &&& 0xFFF00000#32 =
    (p &&& 0xFFF00000#32) &&& ~~~0x00800000#32 := by
  rw [BitVec.and_assoc, BitVec.and_comm (~~~0x00800000#32), ← BitVec.and_assoc]

lemma clear_mirror_twice (p : Word) : (p &&& ~~~0x00800000#32) &&& ~~~0x00800000#32 =
    p &&& ~~~0x00800000#32 := by
  rw [BitVec.and_assoc, BitVec.and_self]

lemma chipsetAddr_flipper (h : p &&& 0xFFF00000#32 = flipperRange) :
    chipsetAddr t p = some p := by
  rw [chipsetAddr, if_pos h]

lemma chipsetAddr_hollywood (h : p &&& 0xFFF00000#32 ∈ [hollywoodMirror, hollywoodRange])
    (ht : t ≠ .gamecube) : chipsetAddr t p = some (p &&& ~~~0x00800000#32) := by
  have hor : p &&& 0xFFF00000#32 = hollywoodMirror ∨ p &&& 0xFFF00000#32 = hollywoodRange := by
    simpa using h
  have hne : p &&& 0xFFF00000#32 ≠ flipperRange := by
    rcases hor with hp | hp <;> rw [hp] <;> decide
  rw [chipsetAddr, if_neg hne, if_pos hor, if_neg ht]

/-- The two ways into the chipset. -/
lemma chipsetAddr_cases (h : chipsetAddr t p = some a) :
    (p &&& 0xFFF00000#32 = flipperRange ∧ a = p) ∨
      (p &&& 0xFFF00000#32 ∈ [hollywoodMirror, hollywoodRange] ∧ t ≠ .gamecube ∧
        a = p &&& ~~~0x00800000#32) := by
  unfold chipsetAddr at h
  dsimp only at h
  split_ifs at h with hf hh ht
  · exact .inl ⟨hf,(Option.some.inj h).symm⟩
  · exact .inr ⟨by simpa using hh,ht,(Option.some.inj h).symm⟩

/-- Clearing the mirror bit stays in the range of Hollywood. -/
lemma hollywood_clear_mirror (h : p &&& 0xFFF00000#32 ∈ [hollywoodMirror, hollywoodRange]) :
    (p &&& ~~~0x00800000#32) &&& 0xFFF00000#32 = hollywoodRange := by
  simp only [List.mem_cons, List.not_mem_nil, or_false] at h
  rw [range_clear_mirror]
  rcases h with h | h <;> rw [h] <;> decide

/-- For an address of the chipset, equality up to the mirror is equality there. -/
lemma same_upToMirror_iff (ha : chipsetAddr t p = some a) :
    (a = q ∨ (q &&& 0xFFF00000#32 ∈ [hollywoodMirror, hollywoodRange] ∧
      a = q &&& ~~~0x00800000#32)) ↔ chipsetAddr t q = some a := by
  constructor
  · rintro (rfl | ⟨hq,rfl⟩)
    · rcases chipsetAddr_cases ha with ⟨hp,rfl⟩ | ⟨hp,ht,rfl⟩
      · exact ha
      · have hrange := hollywood_clear_mirror hp
        rw [chipsetAddr_hollywood (by rw [hrange]; decide) ht, clear_mirror_twice]
    · rcases chipsetAddr_cases ha with ⟨hp,heq⟩ | ⟨-,ht,-⟩
      · have hrange := hollywood_clear_mirror hq
        rw [heq, hp] at hrange
        contradiction
      · exact chipsetAddr_hollywood hq ht
  · intro h
    rcases chipsetAddr_cases h with ⟨-,heq⟩ | ⟨hq,-,heq⟩
    · exact .inl heq
    · exact .inr ⟨hq,heq⟩

end

section

variable {u : SegvUninit} {instr : Word} {s : EmuState} {ctx : Context} {l : SegvLocals}
  {paddr a v : Word} {c : ChipsetCall}

lemma segvCall_spec (h : segvCall paddr l s ctx = some c) :
    chipsetAddr s.consoleType paddr = some c.addr ∧ c.written.isSome = ctx.isWrite := by
  obtain ⟨addr,haddr,rfl⟩ := Option.map_eq_some_iff.mp h
  rw [haddr]
  cases hw : ctx.isWrite <;> by_cases hf : paddr &&& 0xFFF00000#32 = flipperRange <;>
    simp [hf, ChipsetCall.addr, ChipsetCall.written]

lemma exists_segvCall (h : chipsetAddr s.consoleType paddr = some a) :
    ∃ c, segvCall paddr l s ctx = some c := by
  rw [segvCall, h]
  exact ⟨_,rfl⟩

/-- The handler takes the address of the instruction table where there is one. -/
lemma faultPaddr_eq_some (htr : isTranslating s.cpu.msr = true) :
    faultPaddr s ctx = some paddr ↔ tableAddr s ctx.dar false = some paddr ∨
      (tableAddr s ctx.dar false = none ∧ tableAddr s ctx.dar true = some paddr) := by
  unfold faultPaddr tableAddr
  rw [if_pos htr]
  dsimp only
  split_ifs <;> simp

/-- The address of a call is a device address of the data table or it is not; either way the
first two parts of the property say which. -/
lemma data_addr_iff (ha : chipsetAddr s.consoleType paddr = some c.addr) :
    ((memVirtToPhys s v true).mapped = true ∧ (c.addr = (memVirtToPhys s v true).addr ∨
      ((memVirtToPhys s v true).addr &&& 0xFFF00000#32 ∈ [hollywoodMirror, hollywoodRange] ∧
        c.addr = (memVirtToPhys s v true).addr &&& ~~~0x00800000#32))) ↔
      tableDevice s v true = some c.addr := by
  rw [same_upToMirror_iff ha, tableDevice, tableAddr]
  cases (memVirtToPhys s v true).mapped <;> simp

/-- A call reaches the register that the instruction table gives, or else the data table. -/
lemma exists_handlerCall (hs : s.fatalError = false)
    (hl : decodeLoadStore u instr ctx = some l) (hp : faultPaddr s ctx = some paddr)
    (ha : chipsetAddr s.consoleType paddr = some a) :
    ∃ c, handlerCall u instr s ctx = some c ∧ c.addr = a ∧ c.written.isSome = ctx.isWrite := by
  obtain ⟨c,hc⟩ : ∃ c, segvCall paddr l s ctx = some c := exists_segvCall ha
  obtain ⟨haddr,hwritten⟩ := segvCall_spec hc
  refine ⟨c,?_,Option.some.inj (haddr.symm.trans ha),hwritten⟩
  simp [handlerCall, hs, hl, hp, hc]

lemma handlerCall_inv (h : handlerCall u instr s ctx = some c) :
    ∃ paddr, faultPaddr s ctx = some paddr ∧ chipsetAddr s.consoleType paddr = some c.addr ∧
      c.written.isSome = ctx.isWrite := by
  unfold handlerCall at h
  split_ifs at h
  obtain ⟨l,-,h⟩ := Option.bind_eq_some_iff.mp h
  obtain ⟨paddr,hp,h⟩ := Option.bind_eq_some_iff.mp h
  exact ⟨paddr,hp,segvCall_spec h⟩

lemma dataTranslated_of_condition (htr : isTranslating s.cpu.msr = true)
    (hw : ¬ WrongTable s ctx.dar) (hr : ¬ ReadOnlyStore s ctx)
    (hc : handlerCall u instr s ctx = some c) : DataTranslated s ctx.dar c := by
  obtain ⟨paddr,hp,haddr,hwritten⟩ := handlerCall_inv hc
  have hbind : ∀ isData, tableAddr s ctx.dar isData = some paddr →
      tableDevice s ctx.dar isData = some c.addr := by
    intro isData h
    rw [tableDevice, h]
    exact haddr
  have hdevice : tableDevice s ctx.dar true = some c.addr ∧
      (tableAddr s ctx.dar false = none ∨
        tableDevice s ctx.dar false = tableDevice s ctx.dar true) := by
    rcases (faultPaddr_eq_some htr).mp hp with hi | ⟨hi,hd⟩
    · have heq : tableDevice s ctx.dar true = some c.addr := by
        by_contra hne
        exact hw ⟨c.addr,hbind false hi,hne⟩
      exact ⟨heq,.inr ((hbind false hi).trans heq.symm)⟩
    · exact ⟨hbind true hd,.inl hi⟩
  obtain ⟨hmapped,hsame⟩ := (data_addr_iff haddr).mpr hdevice.1
  refine ⟨hmapped,hsame,?_⟩
  intro hstore
  by_contra hro
  refine hr ⟨hwritten ▸ hstore,(Bool.not_eq_true _).mp hro,?_,hdevice.2⟩
  rw [hdevice.1]
  exact Option.some_ne_none _

lemma not_wrongTable (hs : s.fatalError = false) (htr : isTranslating s.cpu.msr = true)
    (hl : decodeLoadStore u instr ctx = some l)
    (h : ∀ c, handlerCall u instr s ctx = some c → DataTranslated s ctx.dar c) :
    ¬ WrongTable s ctx.dar := by
  rintro ⟨a,hi,hne⟩
  obtain ⟨paddr,hp,ha⟩ := Option.bind_eq_some_iff.mp hi
  obtain ⟨c,hc,rfl,-⟩ := exists_handlerCall hs hl ((faultPaddr_eq_some htr).mpr (.inl hp)) ha
  obtain ⟨hmapped,hsame,-⟩ := h c hc
  exact hne ((data_addr_iff ha).mp ⟨hmapped,hsame⟩)

lemma not_readOnlyStore (hs : s.fatalError = false) (htr : isTranslating s.cpu.msr = true)
    (hl : decodeLoadStore u instr ctx = some l)
    (h : ∀ c, handlerCall u instr s ctx = some c → DataTranslated s ctx.dar c) :
    ¬ ReadOnlyStore s ctx := by
  rintro ⟨hwrite,hro,hdevice,htable⟩
  obtain ⟨a,hd⟩ := Option.ne_none_iff_exists'.mp hdevice
  have hreach : ∃ paddr, faultPaddr s ctx = some paddr ∧
      chipsetAddr s.consoleType paddr = some a := by
    rcases htable with hi | hi
    · obtain ⟨paddr,hp,ha⟩ := Option.bind_eq_some_iff.mp hd
      exact ⟨paddr,(faultPaddr_eq_some htr).mpr (.inr ⟨hi,hp⟩),ha⟩
    · rw [hd] at hi
      obtain ⟨paddr,hp,ha⟩ := Option.bind_eq_some_iff.mp hi
      exact ⟨paddr,(faultPaddr_eq_some htr).mpr (.inl hp),ha⟩
  obtain ⟨paddr,hp,ha⟩ := hreach
  obtain ⟨c,hc,-,hwritten⟩ := exists_handlerCall hs hl hp ha
  have hwritable := (h c hc).writable (hwritten.trans hwrite)
  rw [hro] at hwritable
  contradiction

end

/-- An access that a translated load or store makes is translated and protected by the data
BATs exactly when neither defect is in the way: the instruction BATs do not lead elsewhere,
and it is not a write that a data BAT forbids. -/
theorem dataTranslated_iff {hw : Hardware} {bail : BailOut} {u : SegvUninit} {instr : Word}
    {s : EmuState} {ctx : Context} (hs : s.fatalError = false)
    (htr : isTranslating s.cpu.msr = true) (hkind : ctx.isRead = true ∨ ctx.isWrite = true)
    (hinstr : (instrWidth (primaryOpcode instr)).isSome = true) :
    (∀ o, sigsegvHandler hw bail u instr s ctx = some o → o.mmioWidth.isSome = true →
      ∃ c, handlerCall u instr s ctx = some c ∧ DataTranslated s ctx.dar c) ↔
      ¬ WrongTable s ctx.dar ∧ ¬ ReadOnlyStore s ctx := by
  obtain ⟨width,hwidth⟩ := Option.isSome_iff_exists.mp hinstr
  obtain ⟨l,hl,-⟩ := decodeLoadStore_width u ctx hwidth
  constructor
  · intro h
    have hall : ∀ c, handlerCall u instr s ctx = some c → DataTranslated s ctx.dar c := by
      intro c hc
      obtain ⟨o,ho⟩ := exists_sigsegvHandler hw bail u instr ctx hs
      obtain ⟨c',hc',hd⟩ := h o ho ((mmioWidth_isSome_iff ho hkind).mpr ⟨c,hc⟩)
      rw [hc] at hc'
      obtain rfl := Option.some.inj hc'
      exact hd
    exact ⟨not_wrongTable hs htr hl hall,not_readOnlyStore hs htr hl hall⟩
  · rintro ⟨hwrong,hro⟩ o ho hsome
    obtain ⟨c,hc⟩ := (mmioWidth_isSome_iff ho hkind).mp hsome
    exact ⟨c,hc,dataTranslated_of_condition htr hwrong hro hc⟩

/-- A GameCube in virtual mode with the given BATs. -/
def translatingGcn (c : CpuState) : EmuState :=
  { EmuState.zero with
    consoleType := .gamecube
    maxBAT := 4
    cpu := { c with msr := msrIr ||| msrDr } }

/-- `sth r3, 0(r4)` on the uncached window of the default BATs. -/
theorem dataTranslated_uncached : ∃ c, handlerCall ⟨7,0,0⟩ 0xB0640000#32
    (translatingGcn (setMem1Bats .zero)) (faultAt 0xCC005000#32 0x42000000#32) = some c ∧
      DataTranslated (translatingGcn (setMem1Bats .zero)) 0xCC005000#32 c := by
  obtain ⟨o,ho⟩ := exists_sigsegvHandler zeroHardware ⟨0,0,0,0⟩ ⟨7,0,0⟩ 0xB0640000#32
    (s := translatingGcn (setMem1Bats .zero)) (faultAt 0xCC005000#32 0x42000000#32) rfl
  have hcall : (handlerCall ⟨7,0,0⟩ 0xB0640000#32 (translatingGcn (setMem1Bats .zero))
      (faultAt 0xCC005000#32 0x42000000#32)).isSome = true := by decide
  have hsome := (mmioWidth_isSome_iff ho (.inr rfl)).mpr (Option.isSome_iff_exists.mp hcall)
  refine (dataTranslated_iff rfl (by decide) (.inr rfl) (by decide)).mpr ⟨?_,?_⟩ o ho hsome
  · rintro ⟨a,hi,-⟩
    have hnone : tableDevice (translatingGcn (setMem1Bats .zero)) 0xCC005000#32 false = none := by
      decide
    exact absurd (hnone.symm.trans hi) (Option.some_ne_none a).symm
  · rintro ⟨-,hro,-⟩
    have hwritable : (memVirtToPhys (translatingGcn (setMem1Bats .zero)) 0xCC005000#32
        true).writable = true := by decide
    exact absurd (hwritable.symm.trans hro) (by decide)

/-- `lhz` of a register through an instruction BAT, with no data BAT at all. -/
theorem instruction_bat_reaches_pi :
    ¬ ∀ (hw : Hardware) (bail : BailOut) (u : SegvUninit) (instr : Word) (s : EmuState)
      (ctx : Context), s.fatalError = false → isTranslating s.cpu.msr = true →
      ctx.isRead = true ∨ ctx.isWrite = true →
      (instrWidth (primaryOpcode instr)).isSome = true →
      ∀ o, sigsegvHandler hw bail u instr s ctx = some o → o.mmioWidth.isSome = true →
        ∃ c, handlerCall u instr s ctx = some c ∧ DataTranslated s ctx.dar c := by
  intro h
  let s := translatingGcn { CpuState.zero with
    ibatu := Function.update (fun _ => 0) 0 0x80001FFF#32
    ibatl := Function.update (fun _ => 0) 0 0x00000002#32 }
  let ctx := faultAt 0x8C00302C#32 0x40000000#32
  obtain ⟨o,ho⟩ :=
    exists_sigsegvHandler zeroHardware ⟨0,0,0,0⟩ ⟨7,0,0⟩ 0xA0640000#32 (s := s) ctx rfl
  have hcall : handlerCall ⟨7,0,0⟩ 0xA0640000#32 s ctx = some (.flipperRead 0x0C00302C#32 2) := by
    decide
  have hsome := (mmioWidth_isSome_iff ho (.inl rfl)).mpr ⟨_,hcall⟩
  obtain ⟨c,-,hd⟩ := h zeroHardware ⟨0,0,0,0⟩ ⟨7,0,0⟩ 0xA0640000#32 s ctx rfl (by decide) (.inl rfl)
    (by decide) o ho hsome
  have hmapped := hd.mapped
  revert hmapped
  decide

end DolTools
