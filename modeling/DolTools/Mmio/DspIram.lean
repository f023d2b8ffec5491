import DolTools.Library.PartialReads
import DolTools.Mmio.DspRuns
import DolTools.Mmio.Errors

/-! The instruction memory of the DSP and the errors of its timer hook. A reset out of boot mode
seeds the first 1024 bytes from the address that the lookup gives for MEM1, at most once for every
reset that the guest begins, and nothing else ever changes the memory; a guest that counts in
whole blocks gets no error from the hook but for a missing MEM1 and a copy that faults. -/
namespace DolTools
open PartialReads

/-- The stage of a reset in which the hook is to seed the IRAM: the first one, out of boot mode. -/
def SeedStage (r : DspState) : Prop :=
  r.privResetTimer = 2 ∧ r.csr &&& dspCsrBootmode = 0#16

instance (r : DspState) : Decidable (SeedStage r) := inferInstanceAs (Decidable (_ ∧ _))

/-- The `i`-th byte that the copy takes. -/
def HookEnv.seedByte (t : HookEnv) (i : ℕ) : Option Byte :=
  t.read ((t.physToVirt 0x01000000#32 true).addr + BitVec.ofNat 32 i)

/-- The hook copies the head of the IRAM: the lookup finds MEM1, and every byte can be read. -/
def Seeds (r : DspState) (t : HookEnv) : Prop :=
  SeedStage r ∧ (t.physToVirt 0x01000000#32 true).mapped = true ∧
    ∀ i < 1024, (t.seedByte i).isSome = true

instance (r : DspState) (t : HookEnv) : Decidable (Seeds r t) :=
  inferInstanceAs (Decidable (_ ∧ _ ∧ _))

/-- The same stage, and the lookup does not find MEM1. -/
def SeedFails (r : DspState) (t : HookEnv) : Prop :=
  SeedStage r ∧ (t.physToVirt 0x01000000#32 true).mapped = false

/-- The same stage, and a byte of the copy faults. -/
def SeedFaults (r : DspState) (t : HookEnv) : Prop :=
  SeedStage r ∧ (t.physToVirt 0x01000000#32 true).mapped = true ∧
    ∃ i < 1024, t.seedByte i = none

instance (r : DspState) (t : HookEnv) : Decidable (SeedFaults r t) :=
  inferInstanceAs (Decidable (_ ∧ _ ∧ _))

def seededIram (iram : Fin 8192 → Byte) (t : HookEnv) : Fin 8192 → Byte := fun i =>
  if i.val < 1024 then (t.seedByte i.val).getD (iram i) else iram i

/-- The IRAM behind an event. -/
def iramStep (d : Device DspState) : DspEvent → Fin 8192 → Byte
  | .write .. => d.regs.iram
  | .tick t => if Seeds d.regs t then seededIram d.regs.iram t else d.regs.iram

section

variable {d : Device DspState}

lemma dspMoveBlock_iram (d : Device DspState) : (dspMoveBlock d).regs.iram = d.regs.iram := by
  simp only [dspMoveBlock]
  split_ifs <;> rfl

/-! The stage of the seeding. -/

lemma seedStage_cases (h : SeedStage d.regs) (t : HookEnv) :
    Seeds d.regs t ∨ SeedFails d.regs t ∨ SeedFaults d.regs t := by
  cases hmap : (t.physToVirt 0x01000000#32 true).mapped with
  | false => exact .inr (.inl ⟨h,hmap⟩)
  | true =>
    by_cases hall : ∀ i < 1024, (t.seedByte i).isSome = true
    · exact .inl ⟨h,hmap,hall⟩
    · simp only [not_forall, Option.not_isSome_iff_eq_none] at hall
      obtain ⟨i,hi,hnone⟩ := hall
      exact .inr (.inr ⟨h,hmap,i,hi,hnone⟩)

lemma not_seeds_of_fails {t : HookEnv} (h : SeedFails d.regs t ∨ SeedFaults d.regs t) :
    ¬ Seeds d.regs t := by
  rintro ⟨-,hmap,hall⟩
  rcases h with ⟨-,hno⟩ | ⟨-,-,i,hi,hnone⟩
  · rw [hmap] at hno
    contradiction
  · have hsome := hall i hi
    rw [hnone] at hsome
    contradiction

lemma dspTick_of_seeds {t : HookEnv} (h : Seeds d.regs t) : dspTick d t =
    { d with regs := { d.regs with
      privResetTimer := d.regs.privResetTimer - 1
      iram := seededIram d.regs.iram t } } := by
  obtain ⟨⟨htwo,hboot⟩,hmap,hall⟩ := h
  obtain ⟨bytes,hbytes⟩ : ∃ bytes,
      seedBytes t.read (t.physToVirt 0x01000000#32 true).addr = some bytes :=
    Option.isSome_iff_exists.mp (mapM_isSome_iff.mpr (fun i hi => hall i (List.mem_range.mp hi)))
  have hiram : (fun i : Fin 8192 => bytes[i.val]?.getD (d.regs.iram i)) =
      seededIram d.regs.iram t := by
    obtain ⟨hlen,hget⟩ := mapM_range_eq_some_iff.mp hbytes
    funext i
    unfold seededIram
    split_ifs with hi
    · rw [← hget i hi]
      rfl
    · rw [List.getElem?_eq_none (by omega)]
      rfl
  simp [dspTick, dspTimerHook, htwo, hboot, hmap, hbytes, hiram]

lemma dspTick_of_fails {t : HookEnv} (h : SeedFails d.regs t ∨ SeedFaults d.regs t) :
    dspTick d t = ⟨{ d.regs with privResetTimer := d.regs.privResetTimer - 1 },true⟩ := by
  rcases h with ⟨⟨htwo,hboot⟩,hmap⟩ | ⟨⟨htwo,hboot⟩,hmap,i,hi,hnone⟩
  · simp [dspTick, dspTimerHook, htwo, hboot, hmap]
  · have hbytes : seedBytes t.read (t.physToVirt 0x01000000#32 true).addr = none :=
      mapM_eq_none_iff.mpr ⟨i,List.mem_range.mpr hi,hnone⟩
    simp [dspTick, dspTimerHook, htwo, hboot, hmap, hbytes]

/-- At any other time the hook moves a block, behind the stage of a reset that it takes. -/
lemma dspTick_of_not_stage (h : ¬ SeedStage d.regs) (t : HookEnv) :
    ∃ r : DspState, r.iram = d.regs.iram ∧ r.dmaSize = d.regs.dmaSize ∧
      r.privHalt = d.regs.privHalt ∧ dspTick d t = dspMoveBlock { d with regs := r } := by
  simp only [dspTick, dspTimerHook]
  split_ifs with htwo hboot
  · exact absurd ⟨htwo,hboot⟩ h
  · exact absurd ⟨htwo,hboot⟩ h
  · exact ⟨{ d.regs with privResetTimer := d.regs.privResetTimer - 1 },rfl,rfl,rfl,rfl⟩
  · exact ⟨{ d.regs with
      csr := d.regs.csr &&& ~~~dspCsrReset
      privResetTimer := d.regs.privResetTimer - 1 },rfl,rfl,rfl,rfl⟩
  · exact ⟨d.regs,rfl,rfl,rfl,rfl⟩

lemma dspTick_iram (d : Device DspState) (t : HookEnv) :
    (dspTick d t).regs.iram = iramStep d (.tick t) := by
  unfold iramStep
  by_cases hstage : SeedStage d.regs
  · rcases seedStage_cases hstage t with hseeds | hfails
    · rw [dspTick_of_seeds hseeds]
      exact (if_pos hseeds).symm
    · rw [dspTick_of_fails hfails]
      exact (if_neg (not_seeds_of_fails hfails)).symm
  · obtain ⟨r,hiram,-,-,heq⟩ := dspTick_of_not_stage hstage t
    rw [heq, dspMoveBlock_iram]
    exact hiram.trans (if_neg (fun h => hstage h.1)).symm

lemma dspDmaStart_iram (r : DspState) : (dspDmaStart r).iram = r.iram := by
  simp only [dspDmaStart]
  split_ifs <;> rfl

lemma dspWriteCsr_iram (v : Half) (r : DspState) : (dspWriteCsr v r).iram = r.iram := by
  simp only [dspWriteCsr]
  split_ifs <;> rfl

lemma dspWrite_iram (addr val : Word) (w : ℤ) (d : Device DspState) :
    (dspWrite addr val w d).dev.regs.iram = d.regs.iram := by
  simp only [dspWrite]
  split
  · split <;> first | rfl | exact dspDmaStart_iram _
  · split
    · split
      · split_ifs <;> rfl
      · split_ifs <;> rfl
      · split_ifs <;> rfl
      · rfl
      · exact dspWriteCsr_iram _ _
      · rfl
      · rfl
      · rfl
      · rfl
      · rfl
      · rfl
      · exact dspDmaStart_iram _
      · rfl
    · split <;> rfl

theorem dspStep_iram (d : Device DspState) (e : DspEvent) :
    (dspStep d e).regs.iram = iramStep d e := by
  cases e with
  | write addr val w => exact dspWrite_iram addr val w d
  | tick t => exact dspTick_iram d t

/-! How often it is seeded. -/

instance (e : DspEvent) : Decidable e.Restarts :=
  decidable_of_iff ((e.csrValue.any (fun v => v &&& dspCsrReset != 0#16)) = true) (by
    rw [Option.any_eq_true]
    simp [DspEvent.Restarts])

def DspEvent.seeds (r : DspState) : DspEvent → Bool
  | .write .. => false
  | .tick t => decide (Seeds r t)

/-- The number of times that a run of the DSP seeds the IRAM. -/
def seedings : Device DspState → List DspEvent → ℕ
  | _, [] => 0
  | d, e::es => (e.seeds d.regs).toNat + seedings (dspStep d e) es

/-- Whether the first stage of a reset is still to come. -/
def firstStage (r : DspState) : Bool := decide (r.privResetTimer = 2)

/-- A seeding uses up the first stage of a reset, and only a reset brings it back. -/
lemma seeds_step (d : Device DspState) (e : DspEvent) :
    (e.seeds d.regs).toNat + (firstStage (dspStep d e).regs).toNat ≤
      (decide e.Restarts).toNat + (firstStage d.regs).toNat := by
  cases e with
  | tick t =>
    have hafter : firstStage (dspTick d t).regs = false := by
      obtain ⟨-,⟨-,hnew,-⟩ | ⟨-,hnew,-⟩ | ⟨h2,-,heq⟩⟩ := dspTick_control d t
      · simp [firstStage, hnew]
      · simp [firstStage, hnew]
      · rw [heq, firstStage, (sameControl_dspMoveBlock d).timer]
        exact decide_eq_false h2
    change (decide (Seeds d.regs t)).toNat + (firstStage (dspTick d t).regs).toNat ≤ _
    rw [hafter]
    by_cases hs : Seeds d.regs t
    · have hstage : firstStage d.regs = true := decide_eq_true hs.1.1
      simp [hs, hstage]
    · simp [hs]
  | write addr val w =>
    cases hcsr : (DspEvent.write addr val w).csrValue with
    | none =>
      have hsame : firstStage (dspStep d (.write addr val w)).regs = firstStage d.regs := by
        rw [firstStage, firstStage, (sameControl_write hcsr d).timer]
      rw [hsame]
      simp [DspEvent.seeds]
    | some v =>
      rw [dspStep_csr hcsr]
      by_cases hv : v &&& dspCsrReset = 0#16
      · have hsame : firstStage (dspWriteCsr v d.regs) = firstStage d.regs := by
          simp [firstStage, dspWriteCsr_timer, hv]
        dsimp only
        rw [hsame]
        simp [DspEvent.seeds]
      · have hrestart : (DspEvent.write addr val w).Restarts := ⟨v,hcsr,hv⟩
        have hle := Bool.toNat_le (firstStage (dspWriteCsr v d.regs))
        simp only [DspEvent.seeds, hrestart, decide_true, Bool.toNat_false, Bool.toNat_true]
        omega

theorem seedings_le (d : Device DspState) (es : List DspEvent) :
    seedings d es ≤ es.countP (fun e => decide e.Restarts) + (firstStage d.regs).toNat := by
  induction es generalizing d with
  | nil => exact Nat.zero_le _
  | cons e es ih =>
    have hstep := seeds_step d e
    have hrest := ih (dspStep d e)
    rw [List.countP_cons, seedings]
    cases hr : decide e.Restarts with
    | true =>
      rw [hr] at hstep
      simp only [Bool.toNat_true] at hstep
      simp only [if_true]
      omega
    | false =>
      rw [hr] at hstep
      simp only [Bool.toNat_false] at hstep
      simp only [Bool.false_eq_true, if_false]
      omega

/-! What it holds. -/

lemma iramStep_high (d : Device DspState) (e : DspEvent) {i : Fin 8192} (hi : 1024 ≤ i.val) :
    iramStep d e i = d.regs.iram i := by
  cases e with
  | write addr val w => rfl
  | tick t =>
    simp only [iramStep]
    split_ifs
    · exact if_neg (not_lt.mpr hi)
    · rfl

/-- Behind the head the memory is never changed. -/
theorem iram_high (d : Device DspState) (es : List DspEvent) {i : Fin 8192} (hi : 1024 ≤ i.val) :
    (dspRun d es).regs.iram i = d.regs.iram i := by
  induction es using List.reverseRecOn with
  | nil => rfl
  | append_singleton es e ih => rw [dspRun_concat, dspStep_iram, iramStep_high _ e hi, ih]

theorem iram_unseeded {d : Device DspState} {es : List DspEvent} (h : seedings d es = 0) :
    (dspRun d es).regs.iram = d.regs.iram := by
  induction es generalizing d with
  | nil => rfl
  | cons e es ih =>
    rw [seedings, Nat.add_eq_zero_iff] at h
    have hnone : e.seeds d.regs = false := by simpa using h.1
    have hkeep : iramStep d e = d.regs.iram := by
      cases e with
      | write addr val w => rfl
      | tick t => exact if_neg (of_decide_eq_false hnone)
    exact (ih h.2).trans ((dspStep_iram d e).trans hkeep)

/-- The head is what the last seeding read. -/
theorem iram_last {d : Device DspState} {pre post : List DspEvent} {t : HookEnv}
    (h : Seeds (dspRun d pre).regs t)
    (hpost : seedings (dspRun d (pre ++ [.tick t])) post = 0) :
    (dspRun d (pre ++ .tick t::post)).regs.iram = seededIram (dspRun d pre).regs.iram t := by
  have hsplit : dspRun d (pre ++ .tick t::post) =
      dspRun (dspRun d (pre ++ [.tick t])) post := by
    rw [← List.singleton_append, ← List.append_assoc]
    exact List.foldl_append
  rw [hsplit, iram_unseeded hpost, dspRun_concat, dspStep_iram]
  exact if_pos h

/-! Errors of the hook. -/

/-- A write that counts in whole blocks. -/
def DspEvent.Aligned : DspEvent → Prop
  | .write addr val w =>
    (w = 4 ∧ offset addr 0x00000FFF#32 = 0x028) ∨ (w = 2 ∧ offset addr 0x00000FFF#32 = 0x02A) →
      val &&& 0x1F#32 = 0#32
  | .tick _ => True

def WholeBlocks (r : DspState) : Prop := r.dmaSize &&& 0x1F#32 = 0#32

/-- A running DSP whose transfer is no whole number of blocks, in a tick that moves one. -/
structure BlockFails (r : DspState) : Prop where
  running : r.privHalt = false
  uneven : ¬ WholeBlocks r
  moves : ¬ SeedStage r

lemma wholeBlocks_dmaStart (r : DspState) : WholeBlocks (dspDmaStart r) ↔ WholeBlocks r := by
  simp only [dspDmaStart]
  split_ifs <;> rfl

lemma wholeBlocks_csr (v : Half) (r : DspState) : WholeBlocks (dspWriteCsr v r) ↔ WholeBlocks r := by
  simp only [dspWriteCsr]
  split_ifs <;> rfl

lemma setHigh_low (reg val : Word) : setHigh reg val &&& 0x1F#32 = reg &&& 0x1F#32 := by
  have hzero : (val <<< 16) &&& 0x1F#32 = 0#32 := by
    apply BitVec.eq_of_getLsbD_eq
    intro i hi
    rw [BitVec.getLsbD_and, BitVec.getLsbD_shiftLeft]
    by_cases h16 : i < 16
    · simp [h16]
    · have hbit : (0x1F#32 : Word).getLsbD i = false := by
        interval_cases i <;> rfl
      rw [hbit, Bool.and_false, BitVec.getLsbD_zero]
  rw [setHigh, BitVec.and_or_distrib_right, hzero, BitVec.and_assoc, BitVec.or_zero]
  rfl

lemma setLow_low (reg val : Word) :
    setLow reg (val &&& 0x0000FFFF#32) &&& 0x1F#32 = val &&& 0x1F#32 := by
  rw [setLow, BitVec.and_or_distrib_right, BitVec.and_assoc, BitVec.and_assoc,
    show (0xFFFF0000#32 : Word) &&& 0x1F#32 = 0#32 by decide, BitVec.and_zero, BitVec.zero_or]
  rfl

lemma wholeBlocks_moveBlock {d : Device DspState} (h : WholeBlocks d.regs) :
    WholeBlocks (dspMoveBlock d).regs := by
  simp only [dspMoveBlock]
  split_ifs
  · exact h
  · exact h
  · exact h
  · have hnat : ∀ x : Word, (x &&& 0x1F#32).toNat = x.toNat % 32 := by
      intro x
      rw [BitVec.toNat_and]
      exact Nat.and_two_pow_sub_one_eq_mod x.toNat 5
    have hzero : d.regs.dmaSize.toNat % 32 = 0 := by
      rw [← hnat, h]
      rfl
    change (d.regs.dmaSize - 32#32) &&& 0x1F#32 = 0#32
    apply BitVec.eq_of_toNat_eq
    rw [hnat, BitVec.toNat_sub]
    change (2^32 - 32 + d.regs.dmaSize.toNat) % 2^32 % 32 = 0
    omega

lemma wholeBlocks_write {addr val : Word} {w : ℤ} (h : WholeBlocks d.regs)
    (he : (DspEvent.write addr val w).Aligned) :
    WholeBlocks (dspWrite addr val w d).dev.regs := by
  have hkeep : ∀ r : DspState, r.dmaSize = d.regs.dmaSize → WholeBlocks r := by
    intro r hr
    rw [WholeBlocks, hr]
    exact h
  simp only [dspWrite]
  split
  · rename_i hw
    split
    · exact hkeep _ rfl
    · exact hkeep _ rfl
    · rename_i ho
      exact (wholeBlocks_dmaStart _).mpr (he (.inl ⟨hw,ho⟩))
    · exact hkeep _ rfl
  · split
    · rename_i hw
      split
      · split_ifs <;> exact hkeep _ rfl
      · split_ifs <;> exact hkeep _ rfl
      · split_ifs <;> exact hkeep _ rfl
      · exact hkeep _ rfl
      · exact (wholeBlocks_csr _ _).mpr h
      · exact hkeep _ rfl
      · exact hkeep _ rfl
      · exact hkeep _ rfl
      · exact hkeep _ rfl
      · exact hkeep _ rfl
      · exact (setHigh_low _ _).trans h
      · rename_i ho
        exact (wholeBlocks_dmaStart _).mpr ((setLow_low _ _).trans (he (.inr ⟨hw,ho⟩)))
      · exact hkeep _ rfl
    · split <;> exact hkeep _ rfl

lemma wholeBlocks_tick (h : WholeBlocks d.regs) (t : HookEnv) :
    WholeBlocks (dspTick d t).regs := by
  by_cases hstage : SeedStage d.regs
  · rcases seedStage_cases hstage t with hseeds | hfails
    · rw [dspTick_of_seeds hseeds]
      exact h
    · rw [dspTick_of_fails hfails]
      exact h
  · obtain ⟨r,-,hsize,-,heq⟩ := dspTick_of_not_stage hstage t
    rw [heq]
    apply wholeBlocks_moveBlock
    rw [WholeBlocks, hsize]
    exact h

theorem wholeBlocks_dspRun (h : WholeBlocks d.regs) {es : List DspEvent}
    (hes : ∀ e ∈ es, e.Aligned) : WholeBlocks (dspRun d es).regs := by
  induction es using List.reverseRecOn with
  | nil => exact h
  | append_singleton es e ih =>
    have hrun := ih (fun f hf => hes f (List.mem_append_left _ hf))
    have he := hes e (List.mem_append_right _ (List.mem_singleton_self e))
    rw [dspRun_concat]
    cases e with
    | write addr val w => exact wholeBlocks_write hrun he
    | tick t => exact wholeBlocks_tick hrun t

lemma dspMoveBlock_ok (h : WholeBlocks d.regs) : (dspMoveBlock d).fatalError = d.fatalError := by
  have haligned : d.regs.dmaSize &&& 0x7FFFFFFF#32 &&& 0x1F#32 = 0#32 := by
    rw [BitVec.and_assoc, BitVec.and_comm 0x7FFFFFFF#32, ← BitVec.and_assoc, h]
    rfl
  simp only [dspMoveBlock]
  split_ifs with hhalt hblocks
  · rfl
  · exact absurd haligned hblocks
  · rfl
  · rfl

lemma dspMoveBlock_fatal_iff (hok : d.fatalError = false) :
    (dspMoveBlock d).fatalError = true ↔ d.regs.privHalt = false ∧ ¬ WholeBlocks d.regs := by
  by_cases hwhole : WholeBlocks d.regs
  · rw [dspMoveBlock_ok hwhole, hok]
    simp [hwhole]
  · have huneven : d.regs.dmaSize &&& 0x7FFFFFFF#32 &&& 0x1F#32 ≠ 0#32 := by
      rw [BitVec.and_assoc]
      exact hwhole
    simp only [dspMoveBlock]
    cases hhalt : d.regs.privHalt with
    | true => simp [hok]
    | false => simp [huneven, hwhole]

/-- The hook reports an error exactly where it cannot seed the IRAM or finds half a block. -/
theorem dspTick_fatal_iff (hok : d.fatalError = false) (t : HookEnv) :
    (dspTick d t).fatalError = true ↔
      SeedFails d.regs t ∨ SeedFaults d.regs t ∨ BlockFails d.regs := by
  by_cases hstage : SeedStage d.regs
  · have hmoves : ¬ BlockFails d.regs := fun hblock => hblock.moves hstage
    rcases seedStage_cases hstage t with hseeds | hfails
    · rw [dspTick_of_seeds hseeds]
      refine ⟨fun h => absurd (h.symm.trans hok) (by decide),?_⟩
      rintro (h | h | h)
      · exact absurd hseeds (not_seeds_of_fails (.inl h))
      · exact absurd hseeds (not_seeds_of_fails (.inr h))
      · exact absurd h hmoves
    · rw [dspTick_of_fails hfails, ← or_assoc]
      exact ⟨fun _ => .inl hfails,fun _ => rfl⟩
  · obtain ⟨r,-,hsize,hhalt,heq⟩ := dspTick_of_not_stage hstage t
    have hwhole : WholeBlocks r ↔ WholeBlocks d.regs := by
      rw [WholeBlocks, WholeBlocks, hsize]
    rw [heq, dspMoveBlock_fatal_iff (d := { d with regs := r }) hok]
    change r.privHalt = false ∧ ¬ WholeBlocks r ↔ _
    rw [hhalt, hwhole]
    constructor
    · rintro ⟨hrun,huneven⟩
      exact .inr (.inr ⟨hrun,huneven,hstage⟩)
    · rintro (h | h | h)
      · exact absurd h.1 hstage
      · exact absurd h.1 hstage
      · exact ⟨h.running,h.uneven⟩

end

end DolTools
