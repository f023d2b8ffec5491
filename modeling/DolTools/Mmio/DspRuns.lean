import DolTools.Mmio.DspDma

/-! The DSP over whole runs: register writes at any offset, value and width against timer
ticks, in any order. Only writes of CSR and the stages of a reset change whether the DSP
is halted or in reset. -/
namespace DolTools

/-- What happens to the DSP from outside. -/
inductive DspEvent
  | write (addr val : Word) (accessWidth : ℤ)
  | tick (t : HookEnv)

namespace DspEvent

/-- The value that a write puts into CSR. -/
def csrValue : DspEvent → Option Half
  | write addr val w =>
    if w = 2 ∧ offset addr 0x00000FFF#32 = 0x00A then
      some ((val &&& 0x0000FFFF#32).setWidth 16)
    else none
  | tick _ => none

def isTick : DspEvent → Bool
  | write .. => false
  | tick _ => true

/-- The event begins a reset. -/
def Restarts (e : DspEvent) : Prop := ∃ v, e.csrValue = some v ∧ v &&& dspCsrReset ≠ 0#16

end DspEvent

def dspStep (d : Device DspState) : DspEvent → Device DspState
  | .write addr val w => (dspWrite addr val w d).dev
  | .tick t => dspTick d t

def dspRun (d : Device DspState) (es : List DspEvent) : Device DspState := es.foldl dspStep d

/-- The registers that say whether the DSP is halted or in reset. -/
structure SameControl (r s : DspState) : Prop where
  csr : s.csr = r.csr
  halt : s.privHalt = r.privHalt
  timer : s.privResetTimer = r.privResetTimer

lemma sameControl_dspDmaStart (r : DspState) : SameControl r (dspDmaStart r) := by
  simp only [dspDmaStart]
  split
  · exact ⟨rfl,rfl,rfl⟩
  · exact ⟨rfl,rfl,rfl⟩

lemma sameControl_dspMoveBlock (d : Device DspState) :
    SameControl d.regs (dspMoveBlock d).regs := by
  simp only [dspMoveBlock]
  split
  · exact ⟨rfl,rfl,rfl⟩
  · split
    · exact ⟨rfl,rfl,rfl⟩
    · split
      · exact ⟨rfl,rfl,rfl⟩
      · exact ⟨rfl,rfl,rfl⟩

/-- A write of CSR. -/
lemma dspStep_csr {e : DspEvent} {v : Half} (h : e.csrValue = some v) (d : Device DspState) :
    dspStep d e = { d with regs := dspWriteCsr v d.regs } := by
  cases e with
  | tick t => simp [DspEvent.csrValue] at h
  | write addr val w =>
    simp only [DspEvent.csrValue, Option.ite_none_right_eq_some, Option.some.injEq] at h
    obtain ⟨⟨rfl,ho⟩,rfl⟩ := h
    simp [dspStep, dspWrite, ho]

/-- Any other write. -/
lemma sameControl_write {addr val : Word} {w : ℤ}
    (h : (DspEvent.write addr val w).csrValue = none) (d : Device DspState) :
    SameControl d.regs (dspStep d (.write addr val w)).regs := by
  have hsame : SameControl d.regs d.regs := ⟨rfl,rfl,rfl⟩
  have hstart : ∀ size : Word,
      SameControl d.regs (dspDmaStart { d.regs with dmaSize := size }) := by
    intro size
    obtain ⟨hc,hh,ht⟩ := sameControl_dspDmaStart { d.regs with dmaSize := size }
    exact ⟨hc,hh,ht⟩
  simp only [DspEvent.csrValue, ite_eq_right_iff, reduceCtorEq, imp_false, not_and] at h
  simp only [dspStep, dspWrite]
  split
  · split
    · exact ⟨rfl,rfl,rfl⟩
    · exact ⟨rfl,rfl,rfl⟩
    · exact hstart _
    · exact hsame
  · split
    · rename_i hw
      split <;> try exact ⟨rfl,rfl,rfl⟩
      · change SameControl d.regs (if _ then dspMboxPushH _ _ else _)
        split <;> exact ⟨rfl,rfl,rfl⟩
      · change SameControl d.regs (if _ then dspMboxPushL _ _ else _)
        split <;> exact ⟨rfl,rfl,rfl⟩
      · change SameControl d.regs (if _ then _ else _)
        split <;> exact ⟨rfl,rfl,rfl⟩
      · rename_i ho
        exact absurd ho (h hw)
      · exact hstart _
    · split <;> exact hsame

/-- A tick leaves the halt flag alone and takes a pending reset one stage on. -/
lemma dspTick_control (d : Device DspState) (t : HookEnv) :
    (dspTick d t).regs.privHalt = d.regs.privHalt ∧
      ((d.regs.privResetTimer = 2 ∧ (dspTick d t).regs.privResetTimer = 1 ∧
          (dspTick d t).regs.csr = d.regs.csr) ∨
        (d.regs.privResetTimer = 1 ∧ (dspTick d t).regs.privResetTimer = 0 ∧
          (dspTick d t).regs.csr = d.regs.csr &&& ~~~dspCsrReset) ∨
        (d.regs.privResetTimer ≠ 2 ∧ d.regs.privResetTimer ≠ 1 ∧
          dspTick d t = dspMoveBlock d)) := by
  by_cases h2 : d.regs.privResetTimer = 2
  · simp only [dspTick, dspTimerHook, h2]
    by_cases hb : d.regs.csr &&& dspCsrBootmode = 0#16
    · -- the IRAM is seeded, the copy faults, or MEM1 is not mapped
      by_cases hm : (t.physToVirt 0x01000000#32 true).mapped
      · cases seedBytes t.read (t.physToVirt 0x01000000#32 true).addr <;> simp [hb, hm]
      · simp [hb, hm]
    · obtain ⟨hc,hh,ht⟩ := sameControl_dspMoveBlock
        { d with regs := { d.regs with privResetTimer := 1 } }
      simpa [hb] using ⟨hh,ht,hc⟩
  · by_cases h1 : d.regs.privResetTimer = 1
    · obtain ⟨hc,hh,ht⟩ := sameControl_dspMoveBlock
        { d with regs := { d.regs with csr := d.regs.csr &&& ~~~dspCsrReset, privResetTimer := 0 } }
      simp only [dspTick, dspTimerHook, h1]
      simpa using ⟨hh,ht,hc⟩
    · have heq : dspTick d t = dspMoveBlock d := by
        simp [dspTick, dspTimerHook, h1, h2]
      refine ⟨?_,.inr (.inr ⟨h2,h1,heq⟩)⟩
      rw [heq]
      exact (sameControl_dspMoveBlock d).halt

@[simp] theorem dspRun_concat (d : Device DspState) (es : List DspEvent) (e : DspEvent) :
    dspRun d (es ++ [e]) = dspStep (dspRun d es) e := by
  simp [dspRun]

section Halt

/-- The private flag and the bit that the guest reads. -/
def HaltInStep (r : DspState) : Prop := r.privHalt = true ↔ r.csr &&& dspCsrHalt ≠ 0#16

/-- The flag follows the bit, the hook moves a transfer only while the bit is clear, and
clearing the bit announces a message of the DSP. -/
structure HaltAgrees (d : Device DspState) : Prop where
  inStep : HaltInStep d.regs
  moves : ∀ t, (dspTick d t).regs.privDmaSrcPtr ≠ d.regs.privDmaSrcPtr ∨
    (dspTick d t).regs.privDmaDestPtr ≠ d.regs.privDmaDestPtr → d.regs.csr &&& dspCsrHalt = 0#16
  resumes : ∀ addr val, offset addr 0x00000FFF#32 = 0x00A → d.regs.csr &&& dspCsrHalt ≠ 0#16 →
    (dspWrite addr val 2 d).dev.regs.csr &&& dspCsrHalt = 0#16 →
    (dspWrite addr val 2 d).dev.regs.outMboxH &&& 0x8000#16 ≠ 0#16

@[simp] theorem dspWriteCsr_csr (v : Half) (r : DspState) : (dspWriteCsr v r).csr = v := by
  simp only [dspWriteCsr]
  split <;> split <;> (try split) <;> rfl

lemma haltInStep_dspWriteCsr (v : Half) (r : DspState) : HaltInStep (dspWriteCsr v r) := by
  simp only [HaltInStep, dspWriteCsr_csr]
  by_cases hv : v &&& dspCsrHalt = 0#16 <;> by_cases hr : v &&& dspCsrReset = 0#16 <;>
    cases hp : r.privHalt <;> simp [dspWriteCsr, hv, hr, hp]

/-- Resuming sets bit 15 of the outgoing mailbox. -/
lemma dspWriteCsr_resumes {v : Half} {r : DspState} (hp : r.privHalt = true)
    (hv : v &&& dspCsrHalt = 0#16) :
    (dspWriteCsr v r).outMboxH = r.outMboxH ||| 0x8000#16 := by
  by_cases hr : v &&& dspCsrReset = 0#16 <;> simp [dspWriteCsr, hv, hr, hp]

lemma dspMoveBlock_halted {d : Device DspState} (h : d.regs.privHalt = true) :
    dspMoveBlock d = d := by
  simp [dspMoveBlock, h]

/-- A halted DSP moves no block, also while it leaves a reset. -/
lemma dspTick_halted {d : Device DspState} (h : d.regs.privHalt = true) (t : HookEnv) :
    (dspTick d t).regs.privDmaSrcPtr = d.regs.privDmaSrcPtr ∧
      (dspTick d t).regs.privDmaDestPtr = d.regs.privDmaDestPtr := by
  have hmid : ∀ m : Device DspState, m.regs.privHalt = true →
      m.regs.privDmaSrcPtr = d.regs.privDmaSrcPtr → m.regs.privDmaDestPtr = d.regs.privDmaDestPtr →
      (dspMoveBlock m).regs.privDmaSrcPtr = d.regs.privDmaSrcPtr ∧
        (dspMoveBlock m).regs.privDmaDestPtr = d.regs.privDmaDestPtr := by
    intro m hm hsrc hdest
    rw [dspMoveBlock_halted hm]
    exact ⟨hsrc,hdest⟩
  simp only [dspTick, dspTimerHook]
  split
  · split
    · split
      · exact ⟨rfl,rfl⟩
      · split <;> exact ⟨rfl,rfl⟩
    · exact hmid _ h rfl rfl
  · split
    · exact hmid _ h rfl rfl
    · exact hmid _ h rfl rfl

lemma haltAgrees_of_inStep {d : Device DspState} (h : HaltInStep d.regs) : HaltAgrees d where
  inStep := h
  moves t ht := by
    by_contra hhalt
    obtain ⟨hsrc,hdest⟩ := dspTick_halted (h.mpr hhalt) t
    rcases ht with hmoved | hmoved
    · exact hmoved hsrc
    · exact hmoved hdest
  resumes addr val ho hset hclear := by
    have hstep := dspStep_csr (e := .write addr val 2) (v := (val &&& 0x0000FFFF#32).setWidth 16)
      (by simp [DspEvent.csrValue, ho]) d
    simp only [dspStep] at hstep
    rw [hstep] at hclear ⊢
    rw [dspWriteCsr_csr] at hclear
    rw [dspWriteCsr_resumes (h.mpr hset) hclear, BitVec.and_or_distrib_right]
    intro hzero
    exact absurd (BitVec.or_eq_zero_iff.mp hzero).2 (by decide)

/-- What does not write CSR keeps the flag and the bit. -/
lemma dspStep_keepsHalt {e : DspEvent} (h : e.csrValue = none) (d : Device DspState) :
    (dspStep d e).regs.privHalt = d.regs.privHalt ∧
      (dspStep d e).regs.csr &&& dspCsrHalt = d.regs.csr &&& dspCsrHalt := by
  cases e with
  | write addr val w =>
    obtain ⟨hcsr,hhalt,-⟩ := sameControl_write h d
    exact ⟨hhalt,by rw [hcsr]⟩
  | tick t =>
    obtain ⟨hhalt,⟨-,-,hcsr⟩ | ⟨-,-,hcsr⟩ | ⟨-,-,heq⟩⟩ := dspTick_control d t
    · exact ⟨hhalt,congrArg (· &&& dspCsrHalt) hcsr⟩
    · refine ⟨hhalt,?_⟩
      change (dspTick d t).regs.csr &&& dspCsrHalt = _
      rw [hcsr, BitVec.and_assoc]
      rfl
    · refine ⟨hhalt,?_⟩
      change (dspTick d t).regs.csr &&& dspCsrHalt = _
      rw [heq, (sameControl_dspMoveBlock d).csr]

/-- Until CSR is written the guest reads a halted DSP that runs. -/
lemma dspRun_noCsr (iram : Fin 8192 → Byte) (fatalError : Bool) {es : List DspEvent}
    (h : ∀ e ∈ es, e.csrValue = none) :
    (dspRun ⟨dspInit iram,fatalError⟩ es).regs.privHalt = false ∧
      (dspRun ⟨dspInit iram,fatalError⟩ es).regs.csr &&& dspCsrHalt ≠ 0#16 := by
  induction es using List.reverseRecOn with
  | nil => exact ⟨rfl,show (0x0816#16 : Half) &&& dspCsrHalt ≠ 0#16 by decide⟩
  | append_singleton es e ih =>
    obtain ⟨hhalt,hcsr⟩ := ih (fun e' he' => h e' (List.mem_append_left _ he'))
    obtain ⟨hkeep,hbit⟩ := dspStep_keepsHalt (h e (by simp)) (dspRun ⟨dspInit iram,fatalError⟩ es)
    rw [dspRun_concat]
    exact ⟨hkeep.trans hhalt,by rwa [hbit]⟩

/-- From the first write of CSR on the two are in step. -/
lemma haltInStep_dspRun (d : Device DspState) {es : List DspEvent}
    (h : ∃ e ∈ es, e.csrValue.isSome) : HaltInStep (dspRun d es).regs := by
  induction es using List.reverseRecOn with
  | nil => simp at h
  | append_singleton es e ih =>
    rw [dspRun_concat]
    cases he : e.csrValue with
    | some v =>
      rw [dspStep_csr he]
      exact haltInStep_dspWriteCsr v _
    | none =>
      have hmem : ∃ e' ∈ es, e'.csrValue.isSome := by
        obtain ⟨e',hmem,hsome⟩ := h
        rcases List.mem_append.mp hmem with hes | hlast
        · exact ⟨e',hes,hsome⟩
        · rw [List.mem_singleton.mp hlast, he] at hsome
          contradiction
      obtain ⟨hkeep,hbit⟩ := dspStep_keepsHalt he (dspRun d es)
      rw [HaltInStep, hkeep, hbit]
      exact ih hmem

/-- In a run from the start the halt state agrees with CSR exactly when CSR has been
written. -/
theorem haltAgrees_iff (iram : Fin 8192 → Byte) (fatalError : Bool) (es : List DspEvent) :
    HaltAgrees (dspRun ⟨dspInit iram,fatalError⟩ es) ↔ ∃ e ∈ es, e.csrValue.isSome := by
  constructor
  · intro h
    by_contra hnone
    have hall : ∀ e ∈ es, e.csrValue = none := by
      intro e he
      rw [← Option.not_isSome_iff_eq_none]
      exact fun hsome => hnone ⟨e,he,hsome⟩
    obtain ⟨hhalt,hbit⟩ := dspRun_noCsr iram fatalError hall
    rw [h.inStep.mpr hbit] at hhalt
    contradiction
  · intro h
    exact haltAgrees_of_inStep (haltInStep_dspRun _ h)

/-- A block is moved although CSR reads halted. -/
theorem init_halted_moves :
    ¬ ∀ (iram : Fin 8192 → Byte) (fatalError : Bool) (es : List DspEvent),
      HaltAgrees (dspRun ⟨dspInit iram,fatalError⟩ es) := by
  intro h
  have hclear := (h (fun _ => 0) false [.write 0x0C005028#32 32#32 4]).moves blindTick
    (.inl (by decide))
  revert hclear
  decide

end Halt

section Reset

/-- A pending reset is in one of its two stages, and CSR shows it only while it is. -/
structure ResetStages (r : DspState) : Prop where
  timer : r.privResetTimer = 0 ∨ r.privResetTimer = 1 ∨ r.privResetTimer = 2
  pending : r.csr &&& dspCsrReset ≠ 0#16 → r.privResetTimer = 1 ∨ r.privResetTimer = 2

def ticks (es : List DspEvent) : ℕ := es.countP DspEvent.isTick

lemma SameControl.resetStages {r s : DspState} (h : SameControl r s) (hr : ResetStages r) :
    ResetStages s where
  timer := by
    rw [h.timer]
    exact hr.timer
  pending := by
    rw [h.timer, h.csr]
    exact hr.pending

lemma dspWriteCsr_timer (v : Half) (r : DspState) :
    (dspWriteCsr v r).privResetTimer =
      if v &&& dspCsrReset ≠ 0#16 then 2 else r.privResetTimer := by
  simp only [dspWriteCsr]
  split <;> split <;> (try split) <;> rfl

lemma resetStages_dspWriteCsr (v : Half) {r : DspState} (hr : ResetStages r) :
    ResetStages (dspWriteCsr v r) := by
  by_cases hv : v &&& dspCsrReset = 0#16
  · refine ⟨?_,?_⟩
    · simpa [dspWriteCsr_timer, hv] using hr.timer
    · simp [hv]
  · refine ⟨?_,?_⟩ <;> simp [dspWriteCsr_timer, hv]

lemma resetStages_dspTick {d : Device DspState} (h : ResetStages d.regs) (t : HookEnv) :
    ResetStages (dspTick d t).regs := by
  obtain ⟨-,⟨-,htimer,-⟩ | ⟨-,htimer,hcsr⟩ | ⟨-,-,heq⟩⟩ := dspTick_control d t
  · exact ⟨.inr (.inl htimer),fun _ => .inl htimer⟩
  · refine ⟨.inl htimer,?_⟩
    rw [hcsr, BitVec.and_assoc]
    intro hset
    exact absurd (BitVec.and_zero) hset
  · rw [heq]
    exact (sameControl_dspMoveBlock d).resetStages h

lemma resetStages_dspStep {d : Device DspState} (h : ResetStages d.regs) (e : DspEvent) :
    ResetStages (dspStep d e).regs := by
  cases e with
  | tick t => exact resetStages_dspTick h t
  | write addr val w =>
    cases he : (DspEvent.write addr val w).csrValue with
    | none => exact (sameControl_write he d).resetStages h
    | some v =>
      rw [dspStep_csr he]
      exact resetStages_dspWriteCsr v h

theorem resetStages_dspRun {d : Device DspState} (h : ResetStages d.regs) (es : List DspEvent) :
    ResetStages (dspRun d es).regs :=
  List.foldlRecOn (motive := fun d => ResetStages d.regs) es dspStep h
    (fun _ hd e _ => resetStages_dspStep hd e)

lemma resetStages_dspInit (iram : Fin 8192 → Byte) : ResetStages (dspInit iram) where
  timer := .inl rfl
  pending h := absurd (show (0x0816#16 : Half) &&& dspCsrReset = 0#16 by decide) h

/-- Without a new reset only a tick touches the timer, and takes one stage off it. -/
lemma dspStep_timer {d : Device DspState} (h : ResetStages d.regs) {e : DspEvent}
    (he : ¬ e.Restarts) :
    (dspStep d e).regs.privResetTimer =
      max 0 (d.regs.privResetTimer - if e.isTick then 1 else 0) := by
  have htimer := h.timer
  cases e with
  | tick t =>
    change (dspTick d t).regs.privResetTimer = max 0 (d.regs.privResetTimer - 1)
    obtain ⟨-,⟨hold,hnew,-⟩ | ⟨hold,hnew,-⟩ | ⟨h2,h1,heq⟩⟩ := dspTick_control d t
    · rw [hnew, hold]
      rfl
    · rw [hnew, hold]
      rfl
    · rw [heq, (sameControl_dspMoveBlock d).timer]
      omega
  | write addr val w =>
    have hkeep : (dspStep d (.write addr val w)).regs.privResetTimer = d.regs.privResetTimer := by
      cases hcsr : (DspEvent.write addr val w).csrValue with
      | none => exact (sameControl_write hcsr d).timer
      | some v =>
        have hv : v &&& dspCsrReset = 0#16 := by
          by_contra hset
          exact he ⟨v,hcsr,hset⟩
        rw [dspStep_csr hcsr, dspWriteCsr_timer]
        simp [hv]
    rw [hkeep]
    simp only [DspEvent.isTick, Bool.false_eq_true, ↓reduceIte]
    omega

lemma dspRun_timer {d : Device DspState} (h : ResetStages d.regs) {es : List DspEvent}
    (hes : ∀ e ∈ es, ¬ e.Restarts) :
    (dspRun d es).regs.privResetTimer = max 0 (d.regs.privResetTimer - ticks es) := by
  induction es using List.reverseRecOn with
  | nil =>
    have htimer := h.timer
    simp only [dspRun, List.foldl_nil, ticks, List.countP_nil, Nat.cast_zero]
    omega
  | append_singleton es e ih =>
    have hrun := ih (fun e' he' => hes e' (List.mem_append_left _ he'))
    rw [dspRun_concat, dspStep_timer (resetStages_dspRun h es) (hes e (by simp)), hrun]
    simp only [ticks, List.countP_append, List.countP_singleton]
    split <;> omega

/-- In every state that a run from the start reaches a reset is in one of its stages, and two
ticks complete it unless the guest begins another. -/
theorem reset_completes (iram : Fin 8192 → Byte) (fatalError : Bool) (es : List DspEvent) :
    let d := dspRun ⟨dspInit iram,fatalError⟩ es
    ResetStages d.regs ∧ ∀ es', 2 ≤ ticks es' → (∀ e ∈ es', ¬ e.Restarts) →
      (dspRun d es').regs.csr &&& dspCsrReset = 0#16 ∧
        (dspRun d es').regs.privResetTimer = 0 := by
  intro d
  have hd : ResetStages d.regs := resetStages_dspRun (resetStages_dspInit iram) es
  refine ⟨hd,?_⟩
  intro es' htwo hes'
  have htimer : (dspRun d es').regs.privResetTimer = 0 := by
    rw [dspRun_timer hd hes']
    have hstage := hd.timer
    omega
  refine ⟨?_,htimer⟩
  -- RESET shows only while a stage is left
  by_contra hset
  have hpending := (resetStages_dspRun hd es').pending hset
  omega

/-- Reset while halted, with the IRAM seeded from memory that is not mapped. -/
theorem reset_completes_halted :
    (dspRun (dspRun ⟨dspInit (fun _ => 0),false⟩ [.write 0x0C00500A#32 0x5#32 2])
      [.tick blindTick, .write 0x0C00500A#32 0x4#32 2, .tick blindTick]).regs.privResetTimer = 0 :=
  ((reset_completes (fun _ => 0) false [.write 0x0C00500A#32 0x5#32 2]).2
    [.tick blindTick, .write 0x0C00500A#32 0x4#32 2, .tick blindTick] (by decide)
    (by
      rintro e he ⟨v,hv,hset⟩
      simp only [List.mem_cons, List.not_mem_nil, or_false] at he
      rcases he with rfl | rfl | rfl
      · simp [DspEvent.csrValue] at hv
      · obtain rfl : 0x4#16 = v := by simpa [DspEvent.csrValue, offset] using hv
        exact hset (by decide)
      · simp [DspEvent.csrValue] at hv)).2

end Reset

end DolTools
