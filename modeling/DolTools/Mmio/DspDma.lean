import DolTools.Mmio.DspRegisters
import DolTools.Library.Runs

/-! Programming an ARAM transfer against the timer. The guest sets the count of a transfer
in two halves, and the hook may tick between them: whether it finds a transfer there is
decided by the high half alone. -/
namespace DolTools
open BigEndian Runs

/-- What one tick finds outside the DSP: the lookup and the memory of the process. -/
structure HookEnv where
  physToVirt : Word → Bool → MemAddr
  read : Word → Option Byte

def dspTick (d : Device DspState) (t : HookEnv) : Device DspState :=
  dspTimerHook t.physToVirt t.read d

/-- The DSP runs, no reset is pending and no bytes of a transfer are left. -/
structure NoTransfer (d : Device DspState) : Prop where
  running : d.regs.privHalt = false
  noReset : d.regs.privResetTimer = 0
  noBytes : d.regs.dmaSize &&& 0x7FFFFFFF#32 = 0#32

/-- A tick moves neither end of a transfer and reports no error. -/
def TickIdle (d : Device DspState) (t : HookEnv) : Prop :=
  (dspTick d t).regs.privDmaSrcPtr = d.regs.privDmaSrcPtr ∧
    (dspTick d t).regs.privDmaDestPtr = d.regs.privDmaDestPtr ∧
    (dspTick d t).fatalError = d.fatalError

/-- The device before the low half is written: ticks, the high half, and ticks again. -/
def afterHigh (d : Device DspState) (before : List HookEnv) (hiAddr : Word) (hi : Half) :
    Device DspState :=
  (dspWrite hiAddr (hi.setWidth 32) 2 (before.foldl dspTick d)).dev

def afterLow (d : Device DspState) (before gap : List HookEnv) (hiAddr loAddr : Word)
    (hi lo : Half) : Device DspState :=
  (dspWrite loAddr (lo.setWidth 32) 2 (gap.foldl dspTick (afterHigh d before hiAddr hi))).dev

/-- The count is the two halves joined, and no tick on the way found a transfer. -/
structure Untorn (d : Device DspState) (before gap : List HookEnv) (hiAddr loAddr : Word)
    (hi lo : Half) : Prop where
  size : (afterLow d before gap hiAddr loAddr hi lo).regs.dmaSize =
    (hi.setWidth 32 <<< 16) ||| lo.setWidth 32
  beforeIdle : LoopGuard dspTick TickIdle d before
  gapIdle : LoopGuard dspTick TickIdle (afterHigh d before hiAddr hi) gap

/-- With no transfer a tick changes nothing. -/
lemma dspTick_of_noTransfer {d : Device DspState} (h : NoTransfer d) (t : HookEnv) :
    dspTick d t = d := by
  obtain ⟨hrun,hreset,hbytes⟩ := h
  simp [dspTick, dspTimerHook, dspMoveBlock, hrun, hreset, hbytes]

lemma foldl_dspTick_of_noTransfer {d : Device DspState} (h : NoTransfer d)
    (ts : List HookEnv) : ts.foldl dspTick d = d := by
  induction ts with
  | nil => rfl
  | cons t ts ih => rw [List.foldl_cons, dspTick_of_noTransfer h, ih]

lemma loopGuard_of_noTransfer {d : Device DspState} (h : NoTransfer d) (ts : List HookEnv) :
    LoopGuard dspTick TickIdle d ts := by
  intro pre t post _
  rw [foldl_dspTick_of_noTransfer h]
  unfold TickIdle
  rw [dspTick_of_noTransfer h]
  exact ⟨rfl,rfl,rfl⟩

/-- A whole number of blocks outstanding: the tick takes one. -/
lemma dspTick_of_transfer {d : Device DspState} (hrun : d.regs.privHalt = false)
    (hreset : d.regs.privResetTimer = 0)
    (hblocks : d.regs.dmaSize &&& 0x7FFFFFFF#32 &&& 0x1F#32 = 0#32)
    (hbytes : d.regs.dmaSize &&& 0x7FFFFFFF#32 ≠ 0#32) (t : HookEnv) :
    (dspTick d t).regs.privDmaSrcPtr = d.regs.privDmaSrcPtr + 32#32 := by
  simp [dspTick, dspTimerHook, dspMoveBlock, hrun, hreset, hblocks, hbytes]

lemma and_sizeMask (x y : Half) :
    (x ++ y : Word) &&& 0x7FFFFFFF#32 = (x &&& 0x7FFF#16) ++ y := by
  change (x ++ y : Word) &&& ((0x7FFF#16 ++ 0xFFFF#16 : Word)) = _
  rw [BitVec.and_append]
  congr 1
  exact BitVec.and_allOnes

lemma append_zero_eq_zero_iff (x : Half) : (x ++ 0#16 : Word) = 0#32 ↔ x = 0#16 := by
  change (x ++ 0#16 : Word) = (0#16 ++ 0#16 : Word) ↔ _
  exact BitVec.append_left_inj _

lemma append_zero_and_blockMask (x : Half) : (x ++ 0#16 : Word) &&& 0x1F#32 = 0#32 := by
  change (x ++ 0#16 : Word) &&& (0#16 ++ 0x1F#16 : Word) = (0#16 ++ 0#16 : Word)
  rw [BitVec.and_append, BitVec.and_zero, BitVec.zero_and]

lemma NoTransfer.low_eq_zero {d : Device DspState} (h : NoTransfer d) :
    d.regs.dmaSize.extractLsb' 0 16 = 0#16 := by
  have hs : d.regs.dmaSize.extractLsb' 16 16 ++ d.regs.dmaSize.extractLsb' 0 16 =
      d.regs.dmaSize := BitVec.extractLsb'_append_extractLsb' (w := 16)
  have hz := h.noBytes
  rw [← hs, and_sizeMask] at hz
  have hlow := congrArg (BitVec.extractLsb' 0 16) hz
  rwa [BitVec.extractLsb'_append_eq_right] at hlow

section

variable {d : Device DspState} {hiAddr loAddr : Word}

lemma afterHigh_eq (h : NoTransfer d) (before : List HookEnv)
    (ho : offset hiAddr 0x00000FFF#32 = 0x028) (hi : Half) :
    afterHigh d before hiAddr hi = { d with regs := { d.regs with dmaSize := hi ++ 0#16 } } := by
  rw [afterHigh, foldl_dspTick_of_noTransfer h]
  simp [dspWrite, ho, setHigh_masked, h.low_eq_zero]

/-- In the gap there is no transfer exactly when the high half counts no bytes. -/
lemma noTransfer_afterHigh_iff (h : NoTransfer d) (before : List HookEnv)
    (ho : offset hiAddr 0x00000FFF#32 = 0x028) (hi : Half) :
    NoTransfer (afterHigh d before hiAddr hi) ↔ hi &&& 0x7FFF#16 = 0#16 := by
  rw [afterHigh_eq h before ho]
  constructor
  · intro hn
    have hz := hn.noBytes
    rwa [and_sizeMask, append_zero_eq_zero_iff] at hz
  · intro hz
    refine ⟨h.running,h.noReset,?_⟩
    change (hi ++ 0#16 : Word) &&& 0x7FFFFFFF#32 = 0#32
    rw [and_sizeMask, append_zero_eq_zero_iff, hz]

lemma not_tickIdle_afterHigh (h : NoTransfer d) (before : List HookEnv)
    (ho : offset hiAddr 0x00000FFF#32 = 0x028) {hi : Half} (hz : hi &&& 0x7FFF#16 ≠ 0#16)
    (t : HookEnv) : ¬ TickIdle (afterHigh d before hiAddr hi) t := by
  rintro ⟨hsrc,-,-⟩
  have heq := afterHigh_eq h before ho hi
  have hsize : (afterHigh d before hiAddr hi).regs.dmaSize &&& 0x7FFFFFFF#32 =
      (hi &&& 0x7FFF#16) ++ 0#16 := by
    rw [heq, ← and_sizeMask]
  have hrun : (afterHigh d before hiAddr hi).regs.privHalt = false := by
    rw [heq]
    exact h.running
  have hreset : (afterHigh d before hiAddr hi).regs.privResetTimer = 0 := by
    rw [heq]
    exact h.noReset
  have hmoved := dspTick_of_transfer hrun hreset
    (by rw [hsize, append_zero_and_blockMask])
    (by rwa [hsize, ne_eq, append_zero_eq_zero_iff]) t
  rw [hsrc] at hmoved
  simp at hmoved

lemma afterLow_dmaSize (h : NoTransfer d) (before gap : List HookEnv)
    (hho : offset hiAddr 0x00000FFF#32 = 0x028) (hlo : offset loAddr 0x00000FFF#32 = 0x02A)
    (hi lo : Half) (hg : gap.foldl dspTick (afterHigh d before hiAddr hi) =
      afterHigh d before hiAddr hi) :
    (afterLow d before gap hiAddr loAddr hi lo).regs.dmaSize =
      (hi.setWidth 32 <<< 16) ||| lo.setWidth 32 := by
  have hhigh : (hi ++ 0#16 : Word).extractLsb' 16 16 = hi :=
    BitVec.extractLsb'_append_eq_left
  rw [afterLow, hg, afterHigh_eq h before hho, shift_or_eq_append]
  simp [dspWrite, hlo, setLow_masked, hhigh]

/-- Programming a transfer is safe from the timer exactly when no tick falls between the
two writes or the high half counts no bytes. -/
theorem untorn_iff (h : NoTransfer d) (before gap : List HookEnv)
    (hho : offset hiAddr 0x00000FFF#32 = 0x028) (hlo : offset loAddr 0x00000FFF#32 = 0x02A)
    (hi lo : Half) :
    Untorn d before gap hiAddr loAddr hi lo ↔ gap = [] ∨ hi &&& 0x7FFF#16 = 0#16 := by
  constructor
  · rintro ⟨-,-,hgap⟩
    by_contra hcon
    obtain ⟨hne,hz⟩ := not_or.mp hcon
    obtain ⟨t,ts,rfl⟩ := List.exists_cons_of_ne_nil hne
    exact not_tickIdle_afterHigh h before hho hz t (loopGuard_cons.mp hgap).1
  · rintro (rfl | hz)
    · exact ⟨afterLow_dmaSize h before [] hho hlo hi lo rfl,loopGuard_of_noTransfer h before,
        loopGuard_nil _ _ _⟩
    · have hn := (noTransfer_afterHigh_iff h before hho hi).mpr hz
      exact ⟨afterLow_dmaSize h before gap hho hlo hi lo (foldl_dspTick_of_noTransfer hn gap),
        loopGuard_of_noTransfer h before,loopGuard_of_noTransfer hn gap⟩

end

def blindTick : HookEnv := ⟨fun _ _ => ⟨0,false,false⟩,fun _ => none⟩

/-- Thirty-two bytes, a tick before, one between the writes. -/
theorem untorn_single_block :
    Untorn ⟨dspInit (fun _ => 0),false⟩ [blindTick] [blindTick] 0x0C005028#32 0x0C00502A#32
      0#16 0x20#16 :=
  (untorn_iff ⟨rfl,rfl,by decide⟩ [blindTick] [blindTick] (by decide) (by decide) 0#16
    0x20#16).mpr (.inr (by decide))

/-- A transfer of 0x10000 bytes is torn by one tick in the gap. -/
theorem torn_by_tick :
    ¬ ∀ (d : Device DspState) (before gap : List HookEnv) (hiAddr loAddr : Word) (hi lo : Half),
      NoTransfer d → offset hiAddr 0x00000FFF#32 = 0x028 →
      offset loAddr 0x00000FFF#32 = 0x02A →
      ((hi.setWidth 32 <<< 16) ||| lo.setWidth 32) &&& 0x1F#32 = 0#32 →
      Untorn d before gap hiAddr loAddr hi lo := by
  intro h
  have hs := (h ⟨dspInit (fun _ => 0),false⟩ [] [blindTick] 0x0C005028#32 0x0C00502A#32 1#16
    0#16 ⟨rfl,rfl,by decide⟩ (by decide) (by decide) (by decide)).size
  revert hs
  decide

end DolTools
