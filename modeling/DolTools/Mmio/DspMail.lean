import DolTools.Library.AlignedBlock
import DolTools.Mmio.DspRuns

/-! The mailboxes of the DSP. The source has no program that would answer the guest: the outgoing
mailbox is one flag, which a resume raises and a halt lowers, and the incoming one keeps what was
written to it last. -/
namespace DolTools

namespace DspEvent

/-- The half word that a write puts to an offset of the block. -/
def halfAt (o : ℕ) : DspEvent → Option Half
  | write addr val w =>
    if w = 2 ∧ offset addr 0x00000FFF#32 = o then some ((val &&& 0x0000FFFF#32).setWidth 16)
    else none
  | tick _ => none

end DspEvent

/-- What the guest can tell of the DSP by the outgoing mailbox. -/
structure MailState where
  halted : Bool
  announced : Bool
  deriving DecidableEq, Repr

/-- CSR halts and resumes the DSP, and the guest may write the flag itself. -/
def mailStep (m : MailState) (e : DspEvent) : MailState :=
  match e.csrValue with
  | some v =>
    if v &&& dspCsrHalt ≠ 0#16 then ⟨true,false⟩ else ⟨false,m.announced || m.halted⟩
  | none =>
    match e.halfAt 0x004 with
    | some v => { m with announced := v &&& 0x8000#16 ≠ 0#16 }
    | none => m

def mailRun (m : MailState) (es : List DspEvent) : MailState := es.foldl mailStep m

def MailState.flag (m : MailState) : Half := if m.announced then 0x8000#16 else 0#16

/-- The registers of the outgoing mailbox are this state. -/
structure MailOf (r : DspState) (m : MailState) : Prop where
  halt : r.privHalt = m.halted
  high : r.outMboxH = m.flag
  low : r.outMboxL = 0#16

section

variable {d : Device DspState} {r : DspState} {m : MailState} {e : DspEvent} {v : Half}
  {es : List DspEvent}

def outMbox (r : DspState) : Half × Half := (r.outMboxH,r.outMboxL)

lemma dspMoveBlock_outMbox (d : Device DspState) :
    outMbox (dspMoveBlock d).regs = outMbox d.regs := by
  simp only [dspMoveBlock]
  split_ifs <;> rfl

lemma dspTick_outMbox (d : Device DspState) (t : HookEnv) :
    outMbox (dspTick d t).regs = outMbox d.regs := by
  simp only [dspTick, dspTimerHook]
  split_ifs
  · rfl
  · cases seedBytes t.read (t.physToVirt 0x01000000#32 true).addr <;> rfl
  · exact dspMoveBlock_outMbox _
  · exact dspMoveBlock_outMbox _
  · exact dspMoveBlock_outMbox _

lemma dspDmaStart_outMbox (r : DspState) : outMbox (dspDmaStart r) = outMbox r := by
  simp only [dspDmaStart]
  split_ifs <;> rfl

/-- Only writes of CSR and of its upper half change the mailbox. -/
lemma dspWrite_outMbox {addr val : Word} {w : ℤ}
    (hcsr : (DspEvent.write addr val w).csrValue = none)
    (hmbox : (DspEvent.write addr val w).halfAt 0x004 = none) :
    outMbox (dspWrite addr val w d).dev.regs = outMbox d.regs := by
  simp only [DspEvent.csrValue, DspEvent.halfAt, ite_eq_right_iff, reduceCtorEq, imp_false,
    not_and] at hcsr hmbox
  simp only [dspWrite]
  split
  · split <;> first | rfl | exact dspDmaStart_outMbox _
  · split
    · rename_i hw
      split
      · split_ifs <;> rfl
      · split_ifs <;> rfl
      · rename_i ho
        exact absurd ho (hmbox hw)
      · rfl
      · rename_i ho
        exact absurd ho (hcsr hw)
      · rfl
      · rfl
      · rfl
      · rfl
      · rfl
      · rfl
      · exact dspDmaStart_outMbox _
      · rfl
    · split <;> rfl

/-- The flag can be looked at in the word or in the half word. -/
lemma half_flag (val : Word) :
    val &&& 0x00008000#32 = 0#32 ↔ val.setWidth 16 &&& 0x8000#16 = 0#16 := by
  have hhalf : val.setWidth 16 &&& 0x8000#16 = (val &&& 0x00008000#32).setWidth 16 := by
    rw [BitVec.setWidth_and]
    rfl
  have hle := AlignedBlock.toNat_and_le val 0x00008000#32
  have hmask : (0x00008000#32).toNat = 0x8000 := rfl
  rw [hhalf, ← BitVec.toNat_inj, ← BitVec.toNat_inj, BitVec.toNat_setWidth, BitVec.toNat_ofNat,
    BitVec.toNat_ofNat]
  omega

/-- A write of the upper half takes its flag. -/
lemma dspWrite_mbox {addr val : Word} {w : ℤ}
    (h : (DspEvent.write addr val w).halfAt 0x004 = some v) :
    (dspWrite addr val w d).dev.regs.outMboxH = (if v &&& 0x8000#16 ≠ 0#16 then
        d.regs.outMboxH ||| 0x8000#16 else d.regs.outMboxH &&& ~~~0x8000#16) ∧
      (dspWrite addr val w d).dev.regs.outMboxL = d.regs.outMboxL := by
  simp only [DspEvent.halfAt, Option.ite_none_right_eq_some, Option.some.injEq] at h
  obtain ⟨⟨rfl,ho⟩,rfl⟩ := h
  have hflag := half_flag (val &&& 0x0000FFFF#32)
  have hregs : (dspWrite addr val 2 d).dev.regs =
      if val &&& 0x0000FFFF#32 &&& 0x00008000#32 ≠ 0#32 then
        { d.regs with outMboxH := d.regs.outMboxH ||| 0x8000#16 }
      else { d.regs with outMboxH := d.regs.outMboxH &&& ~~~0x8000#16 } := by
    unfold dspWrite
    rw [if_neg (by decide), if_pos rfl, ho]
    rfl
  rw [hregs]
  by_cases hv : (val &&& 0x0000FFFF#32).setWidth 16 &&& 0x8000#16 = 0#16
  · rw [if_neg (not_not.mpr (hflag.mpr hv)), if_neg (not_not.mpr hv)]
    exact ⟨rfl,rfl⟩
  · rw [if_pos (hflag.not.mpr hv), if_pos hv]
    exact ⟨rfl,rfl⟩

lemma flag_set (m : MailState) : m.flag ||| 0x8000#16 = 0x8000#16 := by
  unfold MailState.flag
  cases m.announced <;> rfl

lemma flag_clear (m : MailState) : m.flag &&& ~~~0x8000#16 = 0#16 := by
  unfold MailState.flag
  cases m.announced <;> rfl

lemma dspWriteCsr_outMbox (v : Half) (r : DspState) :
    (dspWriteCsr v r).outMboxL = r.outMboxL ∧
      (dspWriteCsr v r).outMboxH = (if v &&& dspCsrHalt ≠ 0#16 then r.outMboxH &&& ~~~0x8000#16
        else if r.privHalt then r.outMboxH ||| 0x8000#16 else r.outMboxH) ∧
      ((dspWriteCsr v r).privHalt = true ↔ v &&& dspCsrHalt ≠ 0#16) := by
  unfold dspWriteCsr
  dsimp only
  by_cases hreset : v &&& dspCsrReset ≠ 0#16 <;> by_cases hhalt : v &&& dspCsrHalt ≠ 0#16 <;>
    cases hp : r.privHalt <;> simp [hreset, hhalt]

/-- The DSP does what the small machine does. -/
theorem mailOf_dspStep (h : MailOf d.regs m) (e : DspEvent) :
    MailOf (dspStep d e).regs (mailStep m e) := by
  obtain ⟨hhalt,hhigh,hlow⟩ := h
  cases hcsr : e.csrValue with
  | some v =>
    obtain ⟨hl,hh,hp⟩ := dspWriteCsr_outMbox v d.regs
    rw [dspStep_csr hcsr, mailStep, hcsr]
    dsimp only
    by_cases hv : v &&& dspCsrHalt ≠ 0#16
    · rw [if_pos hv] at hh ⊢
      exact ⟨hp.mpr hv,by rw [hh, hhigh, flag_clear]; rfl,hl.trans hlow⟩
    · rw [if_neg hv] at hh ⊢
      refine ⟨by simpa using hp.not.mpr hv,?_,hl.trans hlow⟩
      rw [hh, hhalt, hhigh]
      cases m.halted with
      | true =>
        rw [if_pos rfl, flag_set]
        simp [MailState.flag]
      | false => simp [MailState.flag]
  | none =>
    cases e with
    | tick t =>
      obtain ⟨hh,hl⟩ := Prod.mk.inj (dspTick_outMbox d t)
      exact ⟨(dspTick_control d t).1.trans hhalt,hh.trans hhigh,hl.trans hlow⟩
    | write addr val w =>
      have hkeep := (sameControl_write hcsr d).halt
      rw [mailStep, hcsr]
      dsimp only
      cases hmbox : (DspEvent.write addr val w).halfAt 0x004 with
      | none =>
        obtain ⟨hh,hl⟩ := Prod.mk.inj (dspWrite_outMbox (d := d) hcsr hmbox)
        exact ⟨hkeep.trans hhalt,hh.trans hhigh,hl.trans hlow⟩
      | some v =>
        obtain ⟨hh,hl⟩ := dspWrite_mbox (d := d) hmbox
        refine ⟨hkeep.trans hhalt,hh.trans ?_,hl.trans hlow⟩
        rw [hhigh, flag_set, flag_clear]
        by_cases hv : v &&& 0x8000#16 = 0#16 <;> simp [MailState.flag, hv]

theorem mailOf_dspRun (h : MailOf d.regs m) (es : List DspEvent) :
    MailOf (dspRun d es).regs (mailRun m es) := by
  induction es generalizing d m with
  | nil => exact h
  | cons e es ih => exact ih (mailOf_dspStep h e)

lemma mailOf_dspInit (iram : Fin 8192 → Byte) : MailOf (dspInit iram) ⟨false,false⟩ :=
  ⟨rfl,rfl,rfl⟩

end

/-! The handshake. -/

/-- A write of CSR with the halt bit. -/
def DspEvent.Halts (e : DspEvent) : Prop := ∃ v, e.csrValue = some v ∧ v &&& dspCsrHalt ≠ 0#16

/-- A write of CSR without it. -/
def DspEvent.Resumes (e : DspEvent) : Prop := ∃ v, e.csrValue = some v ∧ v &&& dspCsrHalt = 0#16

/-- The event leaves a raised flag: it neither halts the DSP nor writes the flag. -/
def DspEvent.Leaves (e : DspEvent) : Prop := ¬ e.Halts ∧ e.halfAt 0x004 = none

/-- The guest has halted the DSP and resumed it, or has raised the flag itself, and since then it
has not lowered it. -/
def Announced (es : List DspEvent) : Prop :=
  (∃ pre w post v, es = pre ++ w::post ∧ w.halfAt 0x004 = some v ∧ v &&& 0x8000#16 ≠ 0#16 ∧
    ∀ e ∈ post, e.Leaves) ∨
  ∃ pre h mid r post, es = pre ++ h::mid ++ r::post ∧ h.Halts ∧ (∀ e ∈ mid, e.csrValue = none) ∧
    r.Resumes ∧ ∀ e ∈ post, e.Leaves

section

variable {m : MailState} {e : DspEvent} {v : Half} {es es' : List DspEvent}

lemma mailRun_append (m : MailState) (es es' : List DspEvent) :
    mailRun m (es ++ es') = mailRun (mailRun m es) es' := List.foldl_append

lemma halfAt_of_csr (h : e.csrValue = some v) : e.halfAt 0x004 = none := by
  cases e with
  | tick t => rfl
  | write addr val w =>
    simp only [DspEvent.csrValue, Option.ite_none_right_eq_some] at h
    obtain ⟨⟨-,ho⟩,-⟩ := h
    simp [DspEvent.halfAt, ho]

lemma csr_of_halfAt (h : e.halfAt 0x004 = some v) : e.csrValue = none := by
  rw [Option.eq_none_iff_forall_ne_some]
  intro u hu
  rw [halfAt_of_csr hu] at h
  contradiction

lemma mailStep_halts (h : e.Halts) : mailStep m e = ⟨true,false⟩ := by
  obtain ⟨v,hcsr,hv⟩ := h
  simp [mailStep, hcsr, hv]

lemma mailStep_resumes (h : e.Resumes) : mailStep m e = ⟨false,m.announced || m.halted⟩ := by
  obtain ⟨v,hcsr,hv⟩ := h
  simp [mailStep, hcsr, hv]

lemma mailStep_mbox (h : e.halfAt 0x004 = some v) :
    mailStep m e = { m with announced := v &&& 0x8000#16 ≠ 0#16 } := by
  simp [mailStep, csr_of_halfAt h, h]

lemma mailStep_other (hcsr : e.csrValue = none) (hmbox : e.halfAt 0x004 = none) :
    mailStep m e = m := by
  simp [mailStep, hcsr, hmbox]

lemma mailRun_halted (hes : ∀ e ∈ es, e.csrValue = none) : (mailRun m es).halted = m.halted := by
  induction es generalizing m with
  | nil => rfl
  | cons e es ih =>
    rw [List.forall_mem_cons] at hes
    refine (ih hes.2).trans ?_
    rw [mailStep, hes.1]
    cases e.halfAt 0x004 <;> rfl

lemma mailRun_leaves (h : m.announced = true) (hes : ∀ e ∈ es, e.Leaves) :
    (mailRun m es).announced = true := by
  induction es generalizing m with
  | nil => exact h
  | cons e es ih =>
    rw [List.forall_mem_cons] at hes
    obtain ⟨⟨hhalts,hmbox⟩,hes⟩ := hes
    refine ih ?_ hes
    cases hcsr : e.csrValue with
    | some v =>
      have hv : v &&& dspCsrHalt = 0#16 := by
        by_contra hv
        exact hhalts ⟨v,hcsr,hv⟩
      rw [mailStep_resumes ⟨v,hcsr,hv⟩, h, Bool.true_or]
    | none => rwa [mailStep_other hcsr hmbox]

lemma Announced.snoc (h : Announced es) (he : e.Leaves) : Announced (es ++ [e]) := by
  have hpost : ∀ {post : List DspEvent}, (∀ e ∈ post, e.Leaves) → ∀ f ∈ post ++ [e], f.Leaves := by
    intro post hpost f hf
    rcases List.mem_append.mp hf with hf | hf
    · exact hpost f hf
    · rwa [List.mem_singleton.mp hf]
  rcases h with ⟨pre,w,post,v,rfl,hw,hv,hleaves⟩ | ⟨pre,h,mid,r,post,rfl,hh,hmid,hr,hleaves⟩
  · exact .inl ⟨pre,w,post ++ [e],v,by simp,hw,hv,hpost hleaves⟩
  · exact .inr ⟨pre,h,mid,r,post ++ [e],by simp,hh,hmid,hr,hpost hleaves⟩

/-- The DSP is halted by the last write of CSR. -/
lemma exists_halts (h : (mailRun ⟨false,false⟩ es).halted = true) :
    ∃ pre h mid, es = pre ++ h::mid ∧ h.Halts ∧ ∀ e ∈ mid, e.csrValue = none := by
  induction es using List.reverseRecOn with
  | nil => contradiction
  | append_singleton es e ih =>
    cases hcsr : e.csrValue with
    | none =>
      have hkeep : (mailRun ⟨false,false⟩ es).halted = true := by
        rw [mailRun_append, mailRun_halted (by simpa using hcsr)] at h
        exact h
      obtain ⟨pre,f,mid,rfl,hf,hmid⟩ := ih hkeep
      refine ⟨pre,f,mid ++ [e],by simp,hf,?_⟩
      intro g hg
      rcases List.mem_append.mp hg with hg | hg
      · exact hmid g hg
      · rwa [List.mem_singleton.mp hg]
    | some v =>
      refine ⟨es,e,[],rfl,⟨v,hcsr,?_⟩,fun g hg => absurd hg List.not_mem_nil⟩
      intro hv
      rw [mailRun_append] at h
      change (mailStep (mailRun ⟨false,false⟩ es) e).halted = true at h
      rw [mailStep_resumes ⟨v,hcsr,hv⟩] at h
      contradiction

lemma announced_of_flag (h : (mailRun ⟨false,false⟩ es).announced = true) : Announced es := by
  induction es using List.reverseRecOn with
  | nil => contradiction
  | append_singleton es e ih =>
    rw [mailRun_append] at h
    change (mailStep (mailRun ⟨false,false⟩ es) e).announced = true at h
    cases hcsr : e.csrValue with
    | some v =>
      by_cases hv : v &&& dspCsrHalt = 0#16
      · rw [mailStep_resumes ⟨v,hcsr,hv⟩, Bool.or_eq_true_iff] at h
        rcases h with h | h
        · refine (ih h).snoc ⟨?_,halfAt_of_csr hcsr⟩
          rintro ⟨u,hu,hne⟩
          rw [hcsr] at hu
          obtain rfl := Option.some.inj hu
          exact hne hv
        · obtain ⟨pre,f,mid,rfl,hf,hmid⟩ := exists_halts h
          exact .inr ⟨pre,f,mid,e,[],rfl,hf,hmid,⟨v,hcsr,hv⟩,
            fun g hg => absurd hg List.not_mem_nil⟩
      · rw [mailStep_halts ⟨v,hcsr,hv⟩] at h
        contradiction
    | none =>
      cases hmbox : e.halfAt 0x004 with
      | some v =>
        rw [mailStep_mbox hmbox] at h
        exact .inl ⟨es,e,[],v,rfl,hmbox,of_decide_eq_true h,
          fun g hg => absurd hg List.not_mem_nil⟩
      | none =>
        rw [mailStep_other hcsr hmbox] at h
        refine (ih h).snoc ⟨?_,hmbox⟩
        rintro ⟨u,hu,-⟩
        rw [hcsr] at hu
        contradiction

/-- The flag is up just when the guest has raised it, by itself or by the handshake. -/
theorem announced_iff : (mailRun ⟨false,false⟩ es).announced = true ↔ Announced es := by
  refine ⟨announced_of_flag,?_⟩
  rintro (⟨pre,w,post,v,rfl,hw,hv,hpost⟩ | ⟨pre,h,mid,r,post,rfl,hh,hmid,hr,hpost⟩)
  · rw [mailRun_append]
    change (mailRun (mailStep (mailRun ⟨false,false⟩ pre) w) post).announced = true
    apply mailRun_leaves _ hpost
    rw [mailStep_mbox hw]
    exact decide_eq_true hv
  · rw [mailRun_append, mailRun_append]
    change (mailRun (mailStep (mailRun (mailStep (mailRun ⟨false,false⟩ pre) h) mid) r)
      post).announced = true
    apply mailRun_leaves _ hpost
    rw [mailStep_resumes hr, mailRun_halted hmid, mailStep_halts hh]
    exact Bool.or_true _

end

end DolTools
