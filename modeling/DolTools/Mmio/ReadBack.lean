import DolTools.Library.BigEndian
import DolTools.Library.LastWrite
import DolTools.Mmio.Chipset

/-! The read-write registers of the processor, memory and audio interfaces as cells: a write
changes the register it addresses and no other, so that a read gives the last write back. The
trailing `__builtin_unreachable()` of the write routines is taken as a return. -/
namespace DolTools
open LastWrite

/-- A call of the write routine of a block. -/
structure BlockWrite where
  block : RegisterBlock
  addr : Word
  val : Word
  accessWidth : ℤ

def blockWrite (s : EmuState) (op : BlockWrite) : EmuState :=
  (onBlock op.block (op.block.write op.addr op.val op.accessWidth) s).s

def blockRead (b : RegisterBlock) (addr : Word) (accessWidth : ℤ) (s : EmuState) : Word :=
  (onBlock b (b.read addr accessWidth) s).value

/-- The read-write registers, each with the width of its accesses. -/
inductive InterfaceReg
  | intsr
  | intmr
  | fifoBs
  | fifoBe
  | fifoWp
  | protType
  | intMask
  | unk20
  | aicr
  | aicrHalf
  deriving DecidableEq, Repr

namespace InterfaceReg

def block : InterfaceReg → RegisterBlock
  | intsr | intmr | fifoBs | fifoBe | fifoWp => .pi
  | protType | intMask | unk20 => .mi
  | aicr | aicrHalf => .ai

def off : InterfaceReg → ℕ
  | intsr => 0x000
  | intmr => 0x004
  | fifoBs => 0x00C
  | fifoBe => 0x010
  | fifoWp => 0x014
  | protType => 0x10
  | intMask => 0x1C
  | unk20 => 0x20
  | aicr | aicrHalf => 0x00

def width : InterfaceReg → ℤ
  | intsr | intmr | fifoBs | fifoBe | fifoWp | aicr => 4
  | protType | intMask | unk20 | aicrHalf => 2

/-- What an access of the register's width shows. -/
def get (c : ChipsetState) : InterfaceReg → Word
  | intsr => c.pi.intsr
  | intmr => c.pi.intmr
  | fifoBs => c.pi.fifoBs
  | fifoBe => c.pi.fifoBe
  | fifoWp => c.pi.fifoWp
  | protType => c.mi.protType.setWidth 32
  | intMask => c.mi.intMask.setWidth 32
  | unk20 => c.mi.unk20.setWidth 32
  | aicr => c.ai.aicr
  | aicrHalf => c.ai.aicr &&& 0x0000FFFF#32

/-- A value cut to the width of the register. -/
def truncate (val : Word) (r : InterfaceReg) : Word :=
  if r.width = 4 then val else val &&& 0x0000FFFF#32

end InterfaceReg

/-- The write goes to the register, at whatever width. -/
def BlockWrite.To (op : BlockWrite) (r : InterfaceReg) : Prop :=
  op.block = r.block ∧ offset op.addr r.block.mask = r.off

section

variable {s : EmuState} {r : InterfaceReg} {addr val : Word} {op : BlockWrite}

lemma blockRead_eq (h : offset addr r.block.mask = r.off) :
    blockRead r.block addr r.width s = r.get s.chipset := by
  unfold blockRead onBlock
  cases r with
  | intsr | intmr | fifoBs | fifoBe | fifoWp =>
    change offset addr 0x00000FFF#32 = _ at h
    change (piRead addr 4 _).value = _
    unfold piRead
    rw [if_pos rfl, h]
    rfl
  | protType | intMask | unk20 =>
    change offset addr 0x000000FF#32 = _ at h
    change (miRead addr 2 _).value = _
    unfold miRead
    rw [if_neg (by decide), if_pos rfl, h]
    rfl
  | aicr =>
    change offset addr 0x000000FF#32 = _ at h
    change (aiRead addr 4 _).value = _
    unfold aiRead
    rw [if_pos rfl, h]
    rfl
  | aicrHalf =>
    change offset addr 0x000000FF#32 = _ at h
    change (aiRead addr 2 _).value = _
    unfold aiRead
    rw [if_neg (by decide), if_pos rfl, h]
    rfl

/-- A write to another register leaves the register alone. -/
theorem get_blockWrite_of_not_to (r : InterfaceReg) (s : EmuState) (op : BlockWrite)
    (h : ¬ op.To r) : r.get (blockWrite s op).chipset = r.get s.chipset := by
  obtain ⟨b,addr,val,w⟩ := op
  unfold blockWrite onBlock
  cases b with
  | vi => cases r <;> rfl
  | dsp => cases r <;> rfl
  | pi =>
    change r.get (s.chipset.set .pi (piWrite addr val w _).dev.regs) = _
    cases r with
    | intsr | intmr | fifoBs | fifoBe | fifoWp =>
      have hoff : ¬ offset addr 0x00000FFF#32 = _ := fun ho => h ⟨rfl,ho⟩
      unfold piWrite
      split_ifs
      · split <;> first | rfl | contradiction
      · rfl
      · rfl
      · rfl
    | _ => rfl
  | mi =>
    change r.get (s.chipset.set .mi (miWrite addr val w _).dev.regs) = _
    cases r with
    | protType | intMask | unk20 =>
      have hoff : ¬ offset addr 0x000000FF#32 = _ := fun ho => h ⟨rfl,ho⟩
      unfold miWrite
      split_ifs
      · rfl
      · dsimp only
        split <;> first | rfl | contradiction
      · rfl
      · rfl
    | _ => rfl
  | ai =>
    change r.get (s.chipset.set .ai (aiWrite addr val w _).dev.regs) = _
    cases r with
    | aicr | aicrHalf =>
      have hoff : ¬ offset addr 0x000000FF#32 = 0x00 := fun ho => h ⟨rfl,ho⟩
      unfold aiWrite
      split_ifs
      · split <;> first | rfl | contradiction
      · dsimp only
        split <;> first | rfl | contradiction
      · rfl
      · rfl
    | _ => rfl

/-- What a register keeps of a value written to it. The 16-bit write of AI keeps twelve. -/
def InterfaceReg.kept (val : Word) (r : InterfaceReg) : Word :=
  if r = .aicrHalf then val &&& 0x00000FFF#32 else r.truncate val

lemma half_get (val : Word) :
    ((val &&& 0x0000FFFF#32).setWidth 16).setWidth 32 = val &&& 0x0000FFFF#32 := by
  rw [BigEndian.and_lowMask]
  simp

lemma aicrHalf_low (aicr val : Word) :
    ((aicr &&& 0xFFFF0000#32) ||| (val &&& 0x00000FFF#32 &&& 0x0000FFFF#32)) &&&
      0x0000FFFF#32 = val &&& 0x00000FFF#32 := by
  rw [BitVec.and_or_distrib_right, BitVec.and_assoc aicr, BitVec.and_assoc val,
    BitVec.and_assoc val, show (0xFFFF0000#32 : Word) &&& 0x0000FFFF#32 = 0#32 by decide,
    BitVec.and_zero, BitVec.zero_or]
  rfl

lemma aicrHalf_high (aicr val : Word) :
    ((aicr &&& 0xFFFF0000#32) ||| (val &&& 0x00000FFF#32 &&& 0x0000FFFF#32)) &&&
      0xFFFF0000#32 = aicr &&& 0xFFFF0000#32 := by
  rw [BitVec.and_or_distrib_right, BitVec.and_assoc aicr, BitVec.and_self, BitVec.and_assoc val,
    BitVec.and_assoc val, show (0x00000FFF#32 &&& 0x0000FFFF#32 : Word) &&& 0xFFFF0000#32 =
      0#32 by decide, BitVec.and_zero, BitVec.or_zero]

/-- A write of the register's width stores what the register keeps. -/
theorem get_blockWrite_of_to (r : InterfaceReg) (s : EmuState) (op : BlockWrite)
    (h : op.To r) (hw : op.accessWidth = r.width) :
    r.get (blockWrite s op).chipset = r.kept op.val := by
  obtain ⟨b,addr,val,w⟩ := op
  obtain ⟨hb,hoff⟩ := h
  dsimp only at hb hoff hw
  subst hb hw
  unfold blockWrite onBlock
  cases r with
  | intsr | intmr | fifoBs | fifoBe | fifoWp =>
    change offset addr 0x00000FFF#32 = _ at hoff
    change InterfaceReg.get (s.chipset.set .pi (piWrite addr val 4 _).dev.regs) _ = _
    unfold piWrite
    rw [if_pos rfl, hoff]
    rfl
  | protType | intMask | unk20 =>
    change offset addr 0x000000FF#32 = _ at hoff
    change InterfaceReg.get (s.chipset.set .mi (miWrite addr val 2 _).dev.regs) _ = _
    unfold miWrite
    rw [if_neg (by decide), if_pos rfl, hoff]
    exact half_get val
  | aicr =>
    change offset addr 0x000000FF#32 = _ at hoff
    change InterfaceReg.get (s.chipset.set .ai (aiWrite addr val 4 _).dev.regs) _ = _
    unfold aiWrite
    rw [if_pos rfl, hoff]
    rfl
  | aicrHalf =>
    change offset addr 0x000000FF#32 = _ at hoff
    change InterfaceReg.get (s.chipset.set .ai (aiWrite addr val 2 _).dev.regs) _ = _
    unfold aiWrite
    rw [if_neg (by decide), if_pos rfl, hoff]
    exact aicrHalf_low _ val

end

/-- A sequence of calls of the write routines. -/
def blockWrites (ops : List BlockWrite) (s : EmuState) : EmuState := ops.foldl blockWrite s

/-- The law of the registers: a read gives the last write back, a write to another register
changes nothing of it, and a 16-bit write of AI leaves the upper half alone. -/
structure ReadsBack (s : EmuState) (r : InterfaceReg) (pre : List BlockWrite) (op : BlockWrite)
    (post : List BlockWrite) (addr : Word) : Prop where
  last : blockRead r.block addr r.width (blockWrites (pre ++ op::post) s) = r.truncate op.val
  other : ∀ s op, ¬ op.To r → blockRead r.block addr r.width (blockWrite s op) =
    blockRead r.block addr r.width s
  half : ∀ s op, op.To .aicrHalf → op.accessWidth = 2 →
    (blockWrite s op).chipset.ai.aicr &&& 0xFFFF0000#32 = s.chipset.ai.aicr &&& 0xFFFF0000#32

section

variable {s : EmuState} {r : InterfaceReg} {pre post : List BlockWrite} {op : BlockWrite}
  {addr : Word}

/-- A read gives what the register kept of the last write to it. -/
theorem blockRead_blockWrites (haddr : offset addr r.block.mask = r.off) (hto : op.To r)
    (hw : op.accessWidth = r.width) (hpost : ∀ o ∈ post, ¬ o.To r) :
    blockRead r.block addr r.width (blockWrites (pre ++ op::post) s) = r.kept op.val := by
  have hlast : r.get (blockWrites (pre ++ op::post) s).chipset =
      r.get (blockWrite (blockWrites pre s) op).chipset :=
    foldl_last (fun _ => True) (fun s : EmuState => r.get s.chipset)
      (fun o : BlockWrite => o.To r) (fun s o => r.get (blockWrite s o).chipset)
      (fun _ _ _ => trivial) (fun s o _ ho => get_blockWrite_of_not_to r s o ho)
      (fun _ _ _ _ => rfl) trivial hto hpost
  rw [blockRead_eq haddr, hlast, get_blockWrite_of_to r _ op hto hw]

lemma blockWrite_half (s : EmuState) (op : BlockWrite) (h : op.To .aicrHalf)
    (hw : op.accessWidth = 2) :
    (blockWrite s op).chipset.ai.aicr &&& 0xFFFF0000#32 =
      s.chipset.ai.aicr &&& 0xFFFF0000#32 := by
  obtain ⟨b,addr,val,w⟩ := op
  obtain ⟨hb,hoff⟩ := h
  dsimp only at hb hoff hw
  subst hb hw
  unfold blockWrite onBlock
  change offset addr 0x000000FF#32 = 0x00 at hoff
  change (aiWrite addr val 2 _).dev.regs.aicr &&& 0xFFFF0000#32 = _
  unfold aiWrite
  rw [if_neg (by decide), if_pos rfl, hoff]
  exact aicrHalf_high _ val

lemma kept_eq_truncate {val : Word} : r.kept val = r.truncate val ↔
    (r = .aicrHalf → val &&& 0x0000F000#32 = 0) := by
  by_cases hr : r = .aicrHalf
  · subst hr
    have hsplit : val &&& 0x0000FFFF#32 = (val &&& 0x00000FFF#32) ||| (val &&& 0x0000F000#32) := by
      rw [← BitVec.and_or_distrib_left]
      rfl
    change val &&& 0x00000FFF#32 = val &&& 0x0000FFFF#32 ↔ _
    rw [hsplit]
    constructor
    · intro h _
      have hbits := congrArg (fun x => x &&& 0x0000F000#32) h
      simp only [BitVec.and_or_distrib_right, BitVec.and_assoc] at hbits
      rw [show (0x00000FFF#32 : Word) &&& 0x0000F000#32 = 0#32 by decide, BitVec.and_zero,
        BitVec.zero_or, BitVec.and_self] at hbits
      exact hbits.symm
    · intro h
      rw [h rfl]
      exact BitVec.or_zero.symm
  · simp [InterfaceReg.kept, hr]

/-- The registers read back what was written, but for the 16-bit write of AI, which loses the
four bits 12 to 15. -/
theorem readsBack_iff (s : EmuState) (pre : List BlockWrite) (hto : op.To r)
    (hw : op.accessWidth = r.width) (hpost : ∀ o ∈ post, ¬ o.To r)
    (haddr : offset addr r.block.mask = r.off) :
    ReadsBack s r pre op post addr ↔ (r = .aicrHalf → op.val &&& 0x0000F000#32 = 0) := by
  have hread : blockRead r.block addr r.width (blockWrites (pre ++ op::post) s) =
    r.kept op.val := blockRead_blockWrites haddr hto hw hpost
  rw [← kept_eq_truncate, ← hread]
  constructor
  · exact ReadsBack.last
  · intro hlast
    refine ⟨hlast,?_,blockWrite_half⟩
    intro s o ho
    rw [blockRead_eq haddr, blockRead_eq haddr, get_blockWrite_of_not_to r s o ho]

/-- The interrupt mask of PI, with a write to AI after it. -/
theorem readsBack_intmr : ReadsBack .zero .intmr [] ⟨.pi,0x0C003004#32,0xDEADBEEF#32,4⟩
    [⟨.ai,0x0C006C00#32,0x8000#32,2⟩] 0x0C003004#32 := by
  have hpost : ∀ o ∈ [(⟨.ai,0x0C006C00#32,0x8000#32,2⟩ : BlockWrite)],
      ¬ o.To .intmr := by
    intro o ho
    rw [List.mem_singleton.mp ho]
    rintro ⟨h,-⟩
    contradiction
  exact (readsBack_iff .zero [] ⟨rfl,rfl⟩ rfl hpost rfl).mpr (by decide)

/-- The highest bit of a half written to AI is lost. -/
theorem aicrHalf_loses_bit : ¬ ∀ (s : EmuState) (r : InterfaceReg) (pre : List BlockWrite)
    (op : BlockWrite) (post : List BlockWrite) (addr : Word), op.To r →
    op.accessWidth = r.width → (∀ o ∈ post, ¬ o.To r) → offset addr r.block.mask = r.off →
    ReadsBack s r pre op post addr := by
  intro h
  have hlast := (h .zero .aicrHalf [] ⟨.ai,0x0C006C00#32,0x8000#32,2⟩ [] 0x0C006C00#32
    ⟨rfl,rfl⟩ rfl (by simp) rfl).last
  revert hlast
  decide

end

end DolTools
