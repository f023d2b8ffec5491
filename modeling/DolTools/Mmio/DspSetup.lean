import DolTools.Mmio.DspRegisters

/-! Setting up an ARAM transfer in halves or in words. The writes before the one that starts the
transfer commute, and the start sees the three complete registers either way. -/
namespace DolTools
open BigEndian

/-- An address of the device with the given offset; the page does not matter. -/
def dspAddr (page off : Word) : Word := (page &&& ~~~0x00000FFF#32) ||| off

def halfWrite (page off : Word) (val : Half) : RegisterWrite :=
  ⟨dspAddr page off,val.setWidth 32,2⟩

def wordWrite (page off val : Word) : RegisterWrite := ⟨dspAddr page off,val,4⟩

def highHalf (val : Word) : Half := val.extractLsb' 16 16

def lowHalf (val : Word) : Half := val.extractLsb' 0 16

/-- The halves of the two addresses, and the high half of the count. -/
def setupHalves (page m a s : Word) : List RegisterWrite :=
  [halfWrite page 0x020#32 (highHalf m), halfWrite page 0x022#32 (lowHalf m),
    halfWrite page 0x024#32 (highHalf a), halfWrite page 0x026#32 (lowHalf a),
    halfWrite page 0x028#32 (highHalf s)]

def setupWords (page m a : Word) : List RegisterWrite :=
  [wordWrite page 0x020#32 m, wordWrite page 0x024#32 a]

/-- What one write does to the device, taken to return where it runs out of its switch. -/
def setupStep (d : Device DspState) (x : RegisterWrite) : Device DspState :=
  (dspWrite x.addr x.val x.accessWidth d).dev

lemma dspWrites_eq (d : Device DspState) (xs : List RegisterWrite) :
    dspWrites d xs = xs.foldl setupStep d := rfl

lemma offset_dspAddr (page off : Word) (h : off &&& 0x00000FFF#32 = off) :
    offset (dspAddr page off) 0x00000FFF#32 = off.toNat := by
  have hmask : dspAddr page off &&& 0x00000FFF#32 = off := by
    rw [dspAddr, BitVec.and_or_distrib_right, h, BitVec.and_assoc]
    simp
  rw [offset, hmask]

@[simp] lemma highHalf_append (x y : Half) : highHalf (x ++ y : Word) = x :=
  BitVec.extractLsb'_append_eq_left

@[simp] lemma lowHalf_append (x y : Half) : lowHalf (x ++ y : Word) = y :=
  BitVec.extractLsb'_append_eq_right

@[simp] lemma highHalf_append_lowHalf (val : Word) :
    (highHalf val ++ lowHalf val : Word) = val := by
  apply BitVec.eq_of_getLsbD_eq
  intro i hi
  rw [BitVec.getLsbD_append]
  simp only [highHalf, lowHalf, BitVec.getLsbD_extractLsb']
  grind

section

variable (page : Word) (val : Half) (d : Device DspState)

lemma setHigh_half (reg : Word) :
    setHigh reg (val.setWidth 32 &&& 0x0000FFFF#32) = val ++ lowHalf reg := by
  rw [setHigh_masked, low_setWidth]
  rfl

lemma setLow_half (reg : Word) :
    setLow reg (val.setWidth 32 &&& 0x0000FFFF#32) = highHalf reg ++ val := by
  rw [setLow_masked, low_setWidth]
  rfl

lemma setupStep_mmHigh : setupStep d (halfWrite page 0x020#32 val) =
    { d with regs := { d.regs with dmaMMAddr := val ++ lowHalf d.regs.dmaMMAddr } } := by
  simp [setupStep, halfWrite, dspWrite, offset_dspAddr page 0x020#32 (by decide), setHigh_half]

lemma setupStep_mmLow : setupStep d (halfWrite page 0x022#32 val) =
    { d with regs := { d.regs with dmaMMAddr := highHalf d.regs.dmaMMAddr ++ val } } := by
  simp [setupStep, halfWrite, dspWrite, offset_dspAddr page 0x022#32 (by decide), setLow_half]

lemma setupStep_arHigh : setupStep d (halfWrite page 0x024#32 val) =
    { d with regs := { d.regs with dmaARAddr := val ++ lowHalf d.regs.dmaARAddr } } := by
  simp [setupStep, halfWrite, dspWrite, offset_dspAddr page 0x024#32 (by decide), setHigh_half]

lemma setupStep_arLow : setupStep d (halfWrite page 0x026#32 val) =
    { d with regs := { d.regs with dmaARAddr := highHalf d.regs.dmaARAddr ++ val } } := by
  simp [setupStep, halfWrite, dspWrite, offset_dspAddr page 0x026#32 (by decide), setLow_half]

lemma setupStep_sizeHigh : setupStep d (halfWrite page 0x028#32 val) =
    { d with regs := { d.regs with dmaSize := val ++ lowHalf d.regs.dmaSize } } := by
  simp [setupStep, halfWrite, dspWrite, offset_dspAddr page 0x028#32 (by decide), setHigh_half]

/-- The low half of the count starts the transfer. -/
lemma setupStep_sizeLow : setupStep d (halfWrite page 0x02A#32 val) =
    { d with regs := dspDmaStart ({ d.regs with
        dmaSize := highHalf d.regs.dmaSize ++ val }) } := by
  simp [setupStep, halfWrite, dspWrite, offset_dspAddr page 0x02A#32 (by decide), setLow_half]

lemma setupStep_mm (val : Word) : setupStep d (wordWrite page 0x020#32 val) =
    { d with regs := { d.regs with dmaMMAddr := val } } := by
  simp [setupStep, wordWrite, dspWrite, offset_dspAddr page 0x020#32 (by decide)]

lemma setupStep_ar (val : Word) : setupStep d (wordWrite page 0x024#32 val) =
    { d with regs := { d.regs with dmaARAddr := val } } := by
  simp [setupStep, wordWrite, dspWrite, offset_dspAddr page 0x024#32 (by decide)]

lemma setupStep_size (val : Word) : setupStep d (wordWrite page 0x028#32 val) =
    { d with regs := dspDmaStart { d.regs with dmaSize := val } } := by
  simp [setupStep, wordWrite, dspWrite, offset_dspAddr page 0x028#32 (by decide)]

end

section

variable {page m a s : Word} {x y : RegisterWrite}

/-- Two writes of halves commute: they set different registers, or different halves of one. -/
lemma setupHalves_comm (hx : x ∈ setupHalves page m a s) (hy : y ∈ setupHalves page m a s)
    (d : Device DspState) : setupStep (setupStep d x) y = setupStep (setupStep d y) x := by
  simp only [setupHalves, List.mem_cons, List.not_mem_nil, or_false] at hx hy
  rcases hx with rfl | rfl | rfl | rfl | rfl <;> rcases hy with rfl | rfl | rfl | rfl | rfl <;>
    simp [setupStep_mmHigh, setupStep_mmLow, setupStep_arHigh, setupStep_arLow, setupStep_sizeHigh]

lemma setupWords_comm (hx : x ∈ setupWords page m a) (hy : y ∈ setupWords page m a)
    (d : Device DspState) : setupStep (setupStep d x) y = setupStep (setupStep d y) x := by
  simp only [setupWords, List.mem_cons, List.not_mem_nil, or_false] at hx hy
  rcases hx with rfl | rfl <;> rcases hy with rfl | rfl <;> simp [setupStep_mm, setupStep_ar]

/-- The device in which the low half of the count arrives. -/
lemma foldl_setupHalves (d : Device DspState) :
    (setupHalves page m a s).foldl setupStep d = { d with regs := { d.regs with
      dmaMMAddr := m, dmaARAddr := a, dmaSize := highHalf s ++ lowHalf d.regs.dmaSize } } := by
  simp [setupHalves, setupStep_mmHigh, setupStep_mmLow, setupStep_arHigh, setupStep_arLow,
    setupStep_sizeHigh]

lemma foldl_setupWords (d : Device DspState) :
    (setupWords page m a).foldl setupStep d =
      { d with regs := { d.regs with dmaMMAddr := m, dmaARAddr := a } } := by
  simp [setupWords, setupStep_mm, setupStep_ar]

end

/-- In any order of the halves, and of the words, the transfer is started alike. -/
theorem dspSetup_halves_eq_words (d : Device DspState) (page m a s : Word)
    {xs ys : List RegisterWrite} (hxs : xs.Perm (setupHalves page m a s))
    (hys : ys.Perm (setupWords page m a)) :
    dspWrites d (xs ++ [halfWrite page 0x02A#32 (lowHalf s)]) =
      dspWrites d (ys ++ [wordWrite page 0x028#32 s]) := by
  have hhalves : xs.foldl setupStep d = (setupHalves page m a s).foldl setupStep d :=
    hxs.foldl_eq' (fun x hx y hy z =>
      setupHalves_comm (hxs.mem_iff.mp hx) (hxs.mem_iff.mp hy) z) d
  have hwords : ys.foldl setupStep d = (setupWords page m a).foldl setupStep d :=
    hys.foldl_eq' (fun x hx y hy z =>
      setupWords_comm (hys.mem_iff.mp hx) (hys.mem_iff.mp hy) z) d
  rw [dspWrites_eq, dspWrites_eq, List.foldl_append, List.foldl_append, hhalves, hwords,
    foldl_setupHalves, foldl_setupWords]
  simp only [List.foldl_cons, List.foldl_nil, setupStep_sizeLow, setupStep_size, highHalf_append,
    highHalf_append_lowHalf]

/-- The halves backwards against the ARAM address first. -/
theorem dspSetup_reversed : dspWrites ⟨dspInit (fun _ => 0),false⟩
    ([halfWrite 0x0C005000#32 0x028#32 0x8000#16, halfWrite 0x0C005000#32 0x026#32 0x4000#16,
      halfWrite 0x0C005000#32 0x024#32 0#16, halfWrite 0x0C005000#32 0x022#32 0x0020#16,
      halfWrite 0x0C005000#32 0x020#32 0x0123#16] ++
        [halfWrite 0x0C005000#32 0x02A#32 (lowHalf 0x80000040#32)]) =
      dspWrites ⟨dspInit (fun _ => 0),false⟩ ([wordWrite 0x0C005000#32 0x024#32 0x00004000#32,
        wordWrite 0x0C005000#32 0x020#32 0x01230020#32] ++
          [wordWrite 0x0C005000#32 0x028#32 0x80000040#32]) :=
  dspSetup_halves_eq_words _ 0x0C005000#32 0x01230020#32 0x00004000#32 0x80000040#32
    (List.reverse_perm (setupHalves 0x0C005000#32 0x01230020#32 0x00004000#32 0x80000040#32))
    (List.Perm.swap _ _ [])

end DolTools
