import DolTools.Mmio.DspRuns
import DolTools.Library.AlignedBlock

/-! The ARAM transfer while the guest halts and resumes the DSP. The count shares its word
with the direction of the transfer; every tick taken while the DSP runs takes one block off
it until none is left. -/
namespace DolTools
open AlignedBlock

namespace DspEvent

/-- A tick, or a write of CSR that may halt and resume but begins no reset. -/
def HaltsOrTicks (e : DspEvent) : Prop :=
  e.isTick = true ∨ ∃ v, e.csrValue = some v ∧ v &&& dspCsrReset = 0#16

end DspEvent

/-- A tick taken while the DSP runs. -/
def movesNow (d : Device DspState) (e : DspEvent) : ℕ :=
  if e.isTick = true ∧ d.regs.privHalt = false then 1 else 0

def runningTicks : Device DspState → List DspEvent → ℕ
  | _, [] => 0
  | d, e :: es => movesNow d e + runningTicks (dspStep d e) es

/-- The second state is the first with `n` blocks of its transfer moved. -/
structure BlocksMoved (n : ℕ) (d d' : Device DspState) : Prop where
  count : (d'.regs.dmaSize &&& 0x7FFFFFFF#32).toNat + 32*n =
    (d.regs.dmaSize &&& 0x7FFFFFFF#32).toNat
  direction : d'.regs.dmaSize &&& 0x80000000#32 = d.regs.dmaSize &&& 0x80000000#32
  dir : d'.regs.privDmaDir = d.regs.privDmaDir
  src : d'.regs.privDmaSrcPtr = d.regs.privDmaSrcPtr + BitVec.ofNat 32 (32*n)
  dest : d'.regs.privDmaDestPtr = d.regs.privDmaDestPtr + BitVec.ofNat 32 (32*n)
  timer : d'.regs.privResetTimer = d.regs.privResetTimer
  fatalError : d'.fatalError = d.fatalError

lemma blocksMoved_zero (d : Device DspState) : BlocksMoved 0 d d :=
  ⟨by simp,rfl,rfl,by simp,by simp,rfl,rfl⟩

lemma BlocksMoved.trans {m n : ℕ} {d d' d'' : Device DspState} (h : BlocksMoved m d d')
    (h' : BlocksMoved n d' d'') : BlocksMoved (m+n) d d'' where
  count := by
    have hc := h.count
    have hc' := h'.count
    omega
  direction := h'.direction.trans h.direction
  dir := h'.dir.trans h.dir
  src := by rw [h'.src, h.src, BitVec.add_assoc, ← BitVec.ofNat_add, Nat.mul_add]
  dest := by rw [h'.dest, h.dest, BitVec.add_assoc, ← BitVec.ofNat_add, Nat.mul_add]
  timer := h'.timer.trans h.timer
  fatalError := h'.fatalError.trans h.fatalError

lemma toNat_count (s : Word) : (s &&& 0x7FFFFFFF#32).toNat = s.toNat % 2^31 :=
  toNat_and_low (show (0x80000000#32 : Word).toNat = 2^31 from rfl) s

lemma toNat_direction (s : Word) :
    (s &&& 0x80000000#32).toNat + (s &&& 0x7FFFFFFF#32).toNat = s.toNat :=
  toNat_and_split 0x7FFFFFFF#32 s

/-- Taking a block off a count that has one left borrows nothing from the direction. -/
lemma count_sub_block {s : Word} (h : 32 ≤ (s &&& 0x7FFFFFFF#32).toNat) :
    (((s - 32#32) &&& 0x7FFFFFFF#32).toNat + 32 = (s &&& 0x7FFFFFFF#32).toNat) ∧
      (s - 32#32) &&& 0x80000000#32 = s &&& 0x80000000#32 := by
  have hs := toNat_direction s
  have hnew := toNat_direction (s - 32#32)
  have hsub : (s - 32#32).toNat = s.toNat - 32 :=
    BitVec.toNat_sub_of_le (by rw [BitVec.le_def]; change 32 ≤ s.toNat; omega)
  have hcount : ((s - 32#32) &&& 0x7FFFFFFF#32).toNat + 32 = (s &&& 0x7FFFFFFF#32).toNat := by
    rw [toNat_count] at h ⊢
    rw [toNat_count, hsub]
    omega
  refine ⟨hcount,?_⟩
  apply BitVec.eq_of_toNat_eq
  omega

lemma block_aligned {s : Word} {k : ℕ} (h : (s &&& 0x7FFFFFFF#32).toNat = 32*k) :
    s &&& 0x7FFFFFFF#32 &&& 0x1F#32 = 0#32 := by
  have hlow := toNat_and_low (show (0x20#32 : Word).toNat = 2^5 from rfl) (s &&& 0x7FFFFFFF#32)
  apply BitVec.eq_of_toNat_eq
  change _ = 0
  rw [show (0x1F#32 : Word) = 0x20#32 - 1#32 from rfl, hlow, h]
  exact Nat.mul_mod_right 32 k

lemma blocksMoved_dspMoveBlock {d : Device DspState} {k : ℕ}
    (hsize : (d.regs.dmaSize &&& 0x7FFFFFFF#32).toNat = 32*k) :
    BlocksMoved (min (if d.regs.privHalt = false then 1 else 0) k) d (dspMoveBlock d) := by
  cases hhalt : d.regs.privHalt with
  | true =>
    rw [dspMoveBlock_halted hhalt]
    simpa using blocksMoved_zero d
  | false =>
    have haligned := block_aligned hsize
    cases k with
    | zero =>
      have hzero : d.regs.dmaSize &&& 0x7FFFFFFF#32 = 0#32 := BitVec.eq_of_toNat_eq hsize
      have hidle : dspMoveBlock d = d := by simp [dspMoveBlock, hhalt, hzero]
      rw [hidle]
      simpa using blocksMoved_zero d
    | succ k =>
      have hone : min (if false = false then 1 else 0) (k+1) = 1 := by simp
      have hne : d.regs.dmaSize &&& 0x7FFFFFFF#32 ≠ 0#32 := by
        intro hzero
        rw [hzero] at hsize
        change 0 = 32*(k+1) at hsize
        omega
      obtain ⟨hcount,hdirection⟩ := count_sub_block (s := d.regs.dmaSize) (by omega)
      rw [hone]
      simp only [dspMoveBlock, hhalt, haligned, hne]
      exact ⟨hcount,hdirection,rfl,rfl,rfl,rfl,rfl⟩

/-- CSR has no part in the transfer. -/
lemma dspWriteCsr_transfer (v : Half) (r : DspState) :
    (dspWriteCsr v r).dmaSize = r.dmaSize ∧ (dspWriteCsr v r).privDmaDir = r.privDmaDir ∧
      (dspWriteCsr v r).privDmaSrcPtr = r.privDmaSrcPtr ∧
      (dspWriteCsr v r).privDmaDestPtr = r.privDmaDestPtr := by
  simp only [dspWriteCsr]
  split <;> split <;> (try split) <;> exact ⟨rfl,rfl,rfl,rfl⟩

lemma blocksMoved_dspWriteCsr {v : Half} (hv : v &&& dspCsrReset = 0#16)
    (d : Device DspState) : BlocksMoved 0 d { d with regs := dspWriteCsr v d.regs } := by
  obtain ⟨hsize,hdir,hsrc,hdest⟩ := dspWriteCsr_transfer v d.regs
  refine ⟨by rw [hsize]; rfl,by rw [hsize],hdir,?_,?_,?_,rfl⟩
  · exact hsrc.trans (BitVec.add_zero _).symm
  · exact hdest.trans (BitVec.add_zero _).symm
  · rw [dspWriteCsr_timer]
    simp [hv]

/-- One event moves one block or none. -/
lemma blocksMoved_dspStep {d : Device DspState} {k : ℕ} (htimer : d.regs.privResetTimer = 0)
    (hsize : (d.regs.dmaSize &&& 0x7FFFFFFF#32).toNat = 32*k) {e : DspEvent}
    (he : e.HaltsOrTicks) : BlocksMoved (min (movesNow d e) k) d (dspStep d e) := by
  cases e with
  | tick t =>
    have heq : dspStep d (.tick t) = dspMoveBlock d := by
      simp [dspStep, dspTick, dspTimerHook, htimer]
    rw [heq]
    simpa [movesNow, DspEvent.isTick] using blocksMoved_dspMoveBlock hsize
  | write addr val w =>
    obtain htick | ⟨v,hcsr,hv⟩ := he
    · contradiction
    · rw [dspStep_csr hcsr]
      simpa [movesNow, DspEvent.isTick] using blocksMoved_dspWriteCsr hv d

lemma blocksMoved_dspRun {d : Device DspState} {k : ℕ} (htimer : d.regs.privResetTimer = 0)
    (hsize : (d.regs.dmaSize &&& 0x7FFFFFFF#32).toNat = 32*k) {es : List DspEvent}
    (hes : ∀ e ∈ es, e.HaltsOrTicks) :
    BlocksMoved (min (runningTicks d es) k) d (dspRun d es) := by
  induction es generalizing d k with
  | nil =>
    rw [runningTicks, Nat.zero_min]
    exact blocksMoved_zero d
  | cons e es ih =>
    have hone := blocksMoved_dspStep htimer hsize (hes e (by simp))
    have hleft : ((dspStep d e).regs.dmaSize &&& 0x7FFFFFFF#32).toNat =
        32*(k - min (movesNow d e) k) := by
      have hcount := hone.count
      omega
    have hrest := ih (hone.timer.trans htimer) hleft (fun e' he' => hes e' (by simp [he']))
    have hsum : min (runningTicks d (e::es)) k =
        min (movesNow d e) k + min (runningTicks (dspStep d e) es) (k - min (movesNow d e) k) := by
      rw [runningTicks]
      omega
    rw [hsum]
    exact hone.trans hrest

/-- Exactly the requested blocks are moved, one by every tick taken while the DSP runs, and
a finished transfer stays finished. -/
theorem transfer_accounting (d : Device DspState) (k : ℕ) (htimer : d.regs.privResetTimer = 0)
    (hsize : (d.regs.dmaSize &&& 0x7FFFFFFF#32).toNat = 32*k) (es : List DspEvent)
    (hes : ∀ e ∈ es, e.HaltsOrTicks) :
    let d' := dspRun d es
    let t := runningTicks d es
    (d'.regs.dmaSize &&& 0x7FFFFFFF#32).toNat = 32*(k - min t k) ∧
      d'.regs.dmaSize &&& 0x80000000#32 = d.regs.dmaSize &&& 0x80000000#32 ∧
      d'.regs.privDmaDir = d.regs.privDmaDir ∧
      d'.regs.privDmaSrcPtr = d.regs.privDmaSrcPtr + BitVec.ofNat 32 (32*min t k) ∧
      d'.regs.privDmaDestPtr = d.regs.privDmaDestPtr + BitVec.ofNat 32 (32*min t k) ∧
      d'.fatalError = d.fatalError := by
  obtain ⟨hcount,hdirection,hdir,hsrc,hdest,-,hfatal⟩ := blocksMoved_dspRun htimer hsize hes
  exact ⟨by omega,hdirection,hdir,hsrc,hdest,hfatal⟩

/-- One block from ARAM, a tick while halted, then two while running. -/
theorem transfer_accounting_one_block :
    (dspRun ⟨{ dspInit (fun _ => 0) with dmaSize := 0x80000020#32 },false⟩
      [.write 0x0C00500A#32 0x4#32 2, .tick blindTick, .write 0x0C00500A#32 0x0#32 2,
        .tick blindTick, .tick blindTick]).regs.privDmaSrcPtr = 0#32 + BitVec.ofNat 32 (32*1) :=
  (transfer_accounting ⟨{ dspInit (fun _ => 0) with dmaSize := 0x80000020#32 },false⟩ 1 rfl
    (by decide)
    [.write 0x0C00500A#32 0x4#32 2, .tick blindTick, .write 0x0C00500A#32 0x0#32 2,
      .tick blindTick, .tick blindTick]
    (by
      intro e he
      simp only [List.mem_cons, List.not_mem_nil, or_false] at he
      rcases he with rfl | rfl | rfl | rfl | rfl
      · exact .inr ⟨0x4#16,by decide,by decide⟩
      · exact .inl rfl
      · exact .inr ⟨0x0#16,by decide,by decide⟩
      · exact .inl rfl
      · exact .inl rfl)).2.2.2.1

end DolTools
