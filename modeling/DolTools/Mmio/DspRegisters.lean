import DolTools.Mmio.Exits
import DolTools.Library.BigEndian

/-! The DMA registers of the DSP against twelve bytes of big-endian memory at offsets 0x020
to 0x02B: every mixture of half and word writes is the same mixture of stores, and the
register file reads back as that memory except for one half. -/
namespace DolTools
open BigEndian

/-- An access of the DMA registers: an even offset with a half, or a multiple of four with
a word. -/
def IsDmaAccess (addr : Word) (w : ℤ) : Prop :=
  (w = 2 ∧ offset addr 0x00000FFF#32 ∈ [0x020, 0x022, 0x024, 0x026, 0x028, 0x02A]) ∨
    (w = 4 ∧ offset addr 0x00000FFF#32 ∈ [0x020, 0x024, 0x028])

instance (addr : Word) (w : ℤ) : Decidable (IsDmaAccess addr w) :=
  inferInstanceAs (Decidable (_ ∨ _))

structure RegisterWrite where
  addr : Word
  val : Word
  accessWidth : ℤ

/-- What the memory holds where the access points, as the value of a read. -/
def loadAt (m : Memory) (addr : Word) (w : ℤ) : Word :=
  if w = 4 then word m (offset addr 0x00000FFF#32)
  else (half m (offset addr 0x00000FFF#32)).setWidth 32

def storeAt (m : Memory) (x : RegisterWrite) : Memory :=
  if x.accessWidth = 4 then storeWord m (offset x.addr 0x00000FFF#32) x.val
  else storeHalf m (offset x.addr 0x00000FFF#32) (x.val.extractLsb' 0 16)

def dmaMemory (r : DspState) : Memory :=
  storeWord (storeWord (storeWord (fun _ => 0) 0x020 r.dmaMMAddr) 0x024 r.dmaARAddr)
    0x028 r.dmaSize

/-- The memory holds the three registers. -/
structure HoldsDma (m : Memory) (r : DspState) : Prop where
  mmAddr : word m 0x020 = r.dmaMMAddr
  arAddr : word m 0x024 = r.dmaARAddr
  size : word m 0x028 = r.dmaSize

/-- A sequence of writes, each taken to return where it runs out of its switch. -/
def dspWrites (d : Device DspState) (xs : List RegisterWrite) : Device DspState :=
  xs.foldl (fun d x => (dspWrite x.addr x.val x.accessWidth d).dev) d

theorem holdsDma_dmaMemory (r : DspState) : HoldsDma (dmaMemory r) r where
  mmAddr := by
    rw [dmaMemory, word_storeWord_of_ne _ _ (by omega), word_storeWord_of_ne _ _ (by omega),
      word_storeWord]
  arAddr := by rw [dmaMemory, word_storeWord_of_ne _ _ (by omega), word_storeWord]
  size := by rw [dmaMemory, word_storeWord]

lemma setHigh_masked (reg val : Word) :
    setHigh reg (val &&& 0x0000FFFF#32) = val.extractLsb' 0 16 ++ reg.extractLsb' 0 16 := by
  rw [and_lowMask, setHigh, join_high]

lemma setLow_masked (reg val : Word) :
    setLow reg (val &&& 0x0000FFFF#32) = reg.extractLsb' 16 16 ++ val.extractLsb' 0 16 := by
  rw [and_lowMask, setLow, join_low]

@[simp] theorem dspDmaStart_dmaMMAddr (r : DspState) :
    (dspDmaStart r).dmaMMAddr = r.dmaMMAddr := by
  simp only [dspDmaStart]
  split <;> rfl

@[simp] theorem dspDmaStart_dmaARAddr (r : DspState) :
    (dspDmaStart r).dmaARAddr = r.dmaARAddr := by
  simp only [dspDmaStart]
  split <;> rfl

@[simp] theorem dspDmaStart_dmaSize (r : DspState) : (dspDmaStart r).dmaSize = r.dmaSize := by
  simp only [dspDmaStart]
  split <;> rfl

lemma holdsDma_writeHalf {m : Memory} {d : Device DspState} (h : HoldsDma m d.regs)
    (addr val : Word)
    (ho : offset addr 0x00000FFF#32 ∈ [0x020, 0x022, 0x024, 0x026, 0x028, 0x02A]) :
    HoldsDma (storeHalf m (offset addr 0x00000FFF#32) (val.extractLsb' 0 16))
      (dspWrite addr val 2 d).dev.regs := by
  obtain ⟨hm,ha,hs⟩ := h
  simp only [List.mem_cons, List.not_mem_nil, or_false] at ho
  rcases ho with ho | ho | ho | ho | ho | ho <;> simp only [dspWrite, ho]
  · exact ⟨by simp [word_storeHalf_high, setHigh_masked, hm],
      by simp [word_storeHalf_of_ne, ha], by simp [word_storeHalf_of_ne, hs]⟩
  · exact ⟨by simpa [setLow_masked, hm] using word_storeHalf_low m 0x020 (val.extractLsb' 0 16),
      by simp [word_storeHalf_of_ne, ha], by simp [word_storeHalf_of_ne, hs]⟩
  · exact ⟨by simp [word_storeHalf_of_ne, hm],
      by simp [word_storeHalf_high, setHigh_masked, ha], by simp [word_storeHalf_of_ne, hs]⟩
  · exact ⟨by simp [word_storeHalf_of_ne, hm],
      by simpa [setLow_masked, ha] using word_storeHalf_low m 0x024 (val.extractLsb' 0 16),
      by simp [word_storeHalf_of_ne, hs]⟩
  · exact ⟨by simp [word_storeHalf_of_ne, hm], by simp [word_storeHalf_of_ne, ha],
      by simp [word_storeHalf_high, setHigh_masked, hs]⟩
  · exact ⟨by simp [word_storeHalf_of_ne, hm], by simp [word_storeHalf_of_ne, ha],
      by simpa [setLow_masked, hs] using word_storeHalf_low m 0x028 (val.extractLsb' 0 16)⟩

lemma holdsDma_writeWord {m : Memory} {d : Device DspState} (h : HoldsDma m d.regs)
    (addr val : Word) (ho : offset addr 0x00000FFF#32 ∈ [0x020, 0x024, 0x028]) :
    HoldsDma (storeWord m (offset addr 0x00000FFF#32) val) (dspWrite addr val 4 d).dev.regs := by
  obtain ⟨hm,ha,hs⟩ := h
  simp only [List.mem_cons, List.not_mem_nil, or_false] at ho
  rcases ho with ho | ho | ho <;> simp only [dspWrite, ho]
  · exact ⟨by simp, by simp [word_storeWord_of_ne, ha], by simp [word_storeWord_of_ne, hs]⟩
  · exact ⟨by simp [word_storeWord_of_ne, hm], by simp, by simp [word_storeWord_of_ne, hs]⟩
  · exact ⟨by simp [word_storeWord_of_ne, hm], by simp [word_storeWord_of_ne, ha], by simp⟩

theorem holdsDma_write {m : Memory} {d : Device DspState} (h : HoldsDma m d.regs)
    (x : RegisterWrite) (hx : IsDmaAccess x.addr x.accessWidth) :
    HoldsDma (storeAt m x) (dspWrite x.addr x.val x.accessWidth d).dev.regs := by
  obtain ⟨addr,val,w⟩ := x
  rcases hx with ⟨rfl,ho⟩ | ⟨rfl,ho⟩
  · exact holdsDma_writeHalf h addr val ho
  · exact holdsDma_writeWord h addr val ho

/-- Any sequence of writes is the same sequence of stores. -/
theorem holdsDma_writes {m : Memory} {d : Device DspState} (h : HoldsDma m d.regs)
    (xs : List RegisterWrite) (hxs : ∀ x ∈ xs, IsDmaAccess x.addr x.accessWidth) :
    HoldsDma (xs.foldl storeAt m) (dspWrites d xs).regs := by
  induction xs generalizing m d with
  | nil => exact h
  | cons x xs ih =>
    exact ih (holdsDma_write h x (hxs x (by simp))) (fun y hy => hxs y (by simp [hy]))

/-- The half read at 0x024, which the source takes from the main-memory address, agrees with
the memory when the high halves of the two addresses do. -/
def ReadsTrue (m : Memory) (addr : Word) (w : ℤ) : Prop :=
  ¬ (w = 2 ∧ offset addr 0x00000FFF#32 = 0x024) ∨ half m 0x020 = half m 0x024

lemma dspRead_half {m : Memory} {d : Device DspState} (h : HoldsDma m d.regs) (addr : Word)
    (ho : offset addr 0x00000FFF#32 ∈ [0x020, 0x022, 0x026, 0x028, 0x02A]) :
    (dspRead addr 2 d).value = (half m (offset addr 0x00000FFF#32)).setWidth 32 := by
  obtain ⟨hm,ha,hs⟩ := h
  simp only [List.mem_cons, List.not_mem_nil, or_false] at ho
  rcases ho with ho | ho | ho | ho | ho <;> simp only [dspRead, ho] <;>
    simp [and_highMask_shift, and_lowMask, ← hm, ← ha, ← hs, high_word, low_word]

lemma dspRead_half_arAddr {m : Memory} {d : Device DspState} (h : HoldsDma m d.regs)
    (addr : Word) (ho : offset addr 0x00000FFF#32 = 0x024) :
    (dspRead addr 2 d).value = (half m 0x020).setWidth 32 := by
  simp only [dspRead, ho]
  simp [and_highMask_shift, ← h.mmAddr, high_word]

lemma dspRead_word {m : Memory} {d : Device DspState} (h : HoldsDma m d.regs) (addr : Word)
    (ho : offset addr 0x00000FFF#32 ∈ [0x020, 0x024, 0x028]) :
    (dspRead addr 4 d).value = word m (offset addr 0x00000FFF#32) := by
  obtain ⟨hm,ha,hs⟩ := h
  simp only [List.mem_cons, List.not_mem_nil, or_false] at ho
  rcases ho with ho | ho | ho <;> simp only [dspRead, ho] <;> simp [hm, ha, hs]

/-- A read agrees with the memory exactly when it is not the half at 0x024 or the high
halves of the two addresses are the same. -/
theorem dspRead_eq_loadAt_iff {m : Memory} {d : Device DspState} (h : HoldsDma m d.regs)
    (addr : Word) {w : ℤ} (hr : IsDmaAccess addr w) :
    (dspRead addr w d).value = loadAt m addr w ↔ ReadsTrue m addr w := by
  rcases hr with ⟨rfl,ho⟩ | ⟨rfl,ho⟩
  · by_cases h24 : offset addr 0x00000FFF#32 = 0x024
    · rw [dspRead_half_arAddr h addr h24]
      simp [loadAt, ReadsTrue, h24, setWidth_inj]
    · rw [dspRead_half h addr (by simp_all)]
      simp [loadAt, ReadsTrue, h24]
  · rw [dspRead_word h addr ho]
    simp [loadAt, ReadsTrue]

/-- The word read at a register is the two half reads of that register joined. -/
def WordJoinsHalves (d : Device DspState) (addr : Word) : Prop :=
  (dspRead addr 4 d).value =
    ((dspRead addr 2 d).value <<< 16) ||| (dspRead (addr + 2) 2 d).value

lemma offset_add_two {addr : Word} (ho : offset addr 0x00000FFF#32 ∈ [0x020, 0x024, 0x028]) :
    offset (addr + 2) 0x00000FFF#32 = offset addr 0x00000FFF#32 + 2 := by
  have hmask : ∀ a : Word, offset a 0x00000FFF#32 = a.toNat % 2^12 := fun a => by
    rw [offset, BitVec.toNat_and]
    exact Nat.and_two_pow_sub_one_eq_mod a.toNat 12
  simp only [List.mem_cons, List.not_mem_nil, or_false, hmask, BitVec.toNat_add] at ho ⊢
  have h2 : (2 : Word).toNat = 2 := rfl
  omega

theorem wordJoinsHalves_iff {m : Memory} {d : Device DspState} (h : HoldsDma m d.regs)
    {addr : Word} (ho : offset addr 0x00000FFF#32 ∈ [0x020, 0x024, 0x028]) :
    WordJoinsHalves d addr ↔ ReadsTrue m addr 2 := by
  have ho' := offset_add_two ho
  have hlow : offset (addr + 2) 0x00000FFF#32 ∈ [0x020, 0x022, 0x026, 0x028, 0x02A] := by
    simp only [List.mem_cons, List.not_mem_nil, or_false] at ho ⊢
    omega
  rw [WordJoinsHalves, dspRead_word h addr ho, dspRead_half h (addr + 2) hlow, ho']
  by_cases h24 : offset addr 0x00000FFF#32 = 0x024
  · rw [dspRead_half_arAddr h addr h24, shift_or_eq_append, word, BitVec.append_left_inj, h24]
    simp [ReadsTrue, h24, eq_comm]
  · have hhigh : offset addr 0x00000FFF#32 ∈ [0x020, 0x022, 0x026, 0x028, 0x02A] := by
      simp only [List.mem_cons, List.not_mem_nil, or_false] at ho ⊢
      omega
    rw [dspRead_half h addr hhigh, shift_or_eq_append, word]
    simp [ReadsTrue, h24]

/-- After any sequence of writes a read returns what the memory holds, and a word read the
two half reads joined, exactly when the access does not read the half at 0x024 or the writes
leave the high halves of the two addresses the same. -/
theorem dspRead_memory_iff (d : Device DspState) (xs : List RegisterWrite)
    (hxs : ∀ x ∈ xs, IsDmaAccess x.addr x.accessWidth) (addr : Word) (w : ℤ)
    (hr : IsDmaAccess addr w) :
    ((dspRead addr w (dspWrites d xs)).value =
        loadAt (xs.foldl storeAt (dmaMemory d.regs)) addr w ↔
      ReadsTrue (xs.foldl storeAt (dmaMemory d.regs)) addr w) ∧
    (w = 4 → (WordJoinsHalves (dspWrites d xs) addr ↔
      ReadsTrue (xs.foldl storeAt (dmaMemory d.regs)) addr 2)) := by
  have h := holdsDma_writes (holdsDma_dmaMemory d.regs) xs hxs
  refine ⟨dspRead_eq_loadAt_iff h addr hr,?_⟩
  rintro rfl
  rcases hr with ⟨hw,-⟩ | ⟨-,ho⟩
  · contradiction
  · exact wordJoinsHalves_iff h ho

theorem dspRead_memory_size :
    (dspRead 0x0C00502A#32 2 (dspWrites ⟨dspInit (fun _ => 0),false⟩
      [⟨0x0C005028#32,0x80000020#32,4⟩])).value = 0x20#32 := by
  have h := (dspRead_memory_iff ⟨dspInit (fun _ => 0),false⟩ [⟨0x0C005028#32,0x80000020#32,4⟩]
    (by decide) 0x0C00502A#32 2 (by decide)).1.mpr (.inl (by decide))
  rw [h]
  decide

/-- With only the main-memory address written, the high half of the ARAM address reads as
the high half of the other register. -/
theorem dspRead_arAddr_high_wrong :
    ¬ ∀ (d : Device DspState) (xs : List RegisterWrite),
      (∀ x ∈ xs, IsDmaAccess x.addr x.accessWidth) → ∀ (addr : Word) (w : ℤ),
      IsDmaAccess addr w →
      (dspRead addr w (dspWrites d xs)).value =
        loadAt (xs.foldl storeAt (dmaMemory d.regs)) addr w := by
  intro h
  have hw := h ⟨dspInit (fun _ => 0),false⟩ [⟨0x0C005020#32,0x00010000#32,4⟩] (by decide)
    0x0C005024#32 2 (by decide)
  revert hw
  decide

end DolTools
