import DolTools.Emu.Sigill

/-! What the emulation of one instruction can do: it works on the registers and two flags, and
only `mtmsr` changes what the map depends on without raising the flag. -/
namespace DolTools

/-- From the first state to the second only registers and flags have changed. -/
structure CpuStep (s t : EmuState) : Prop where
  mem : t.mem = s.mem
  maxBAT : t.maxBAT = s.maxBAT
  consoleType : t.consoleType = s.consoleType
  host : t.host = s.host

structure SameBats (c d : CpuState) : Prop where
  ibatu : d.ibatu = c.ibatu
  ibatl : d.ibatl = c.ibatl
  dbatu : d.dbatu = c.dbatu
  dbatl : d.dbatl = c.dbatl

/-- The BAT registers and the two translation bits are the same. -/
structure SameTranslation (c d : CpuState) : Prop where
  bats : SameBats c d
  ir : irEnabled d.msr = irEnabled c.msr
  dr : drEnabled d.msr = drEnabled c.msr

/-- Only registers and the error flag have changed, and none the map depends on. -/
structure QuietStep (s t : EmuState) : Prop where
  step : CpuStep s t
  flag : t.needsMemMapUpdate = s.needsMemMapUpdate
  same : SameTranslation s.cpu t.cpu

section

variable {s t u : EmuState}

theorem QuietStep.refl (s : EmuState) : QuietStep s s :=
  ⟨⟨rfl,rfl,rfl,rfl⟩,rfl,⟨⟨rfl,rfl,rfl,rfl⟩,rfl,rfl⟩⟩

theorem QuietStep.raise (h : QuietStep s t) : QuietStep s t.fatal :=
  ⟨⟨h.step.mem,h.step.maxBAT,h.step.consoleType,h.step.host⟩,h.flag,h.same⟩

theorem QuietStep.ite {c : Prop} [Decidable c] (ht : QuietStep s t) (hu : QuietStep s u) :
    QuietStep s (if c then t else u) := by
  split
  · exact ht
  · exact hu

lemma validateMsr_cpuStep (h : CpuStep s t) : CpuStep s (validateMsr t) := by
  rw [validateMsr_eq]
  exact ⟨h.mem,h.maxBAT,h.consoleType,h.host⟩

lemma validateMsr_cpu (s : EmuState) : (validateMsr s).cpu = s.cpu := by
  rw [validateMsr_eq]

lemma validateMsr_flag (s : EmuState) :
    (validateMsr s).needsMemMapUpdate = s.needsMemMapUpdate := by
  rw [validateMsr_eq]

lemma mtsprOther_quiet (spr : ℕ) (val : Word) (s : EmuState) :
    QuietStep s (mtsprOther spr val s) := by
  unfold mtsprOther
  dsimp only
  repeat' apply QuietStep.ite
  all_goals exact ⟨⟨rfl,rfl,rfl,rfl⟩,rfl,⟨⟨rfl,rfl,rfl,rfl⟩,rfl,rfl⟩⟩

lemma mfspr_quiet (spr : ℕ) (s : EmuState) : QuietStep s (mfspr spr s).2 := by
  rcases mfspr_snd spr s with h | h
  · rw [h]
    exact .refl s
  · rw [h]
    exact (QuietStep.refl s).raise

lemma mtsprBat_spec (reg : BatReg) (high : Bool) (val : Word) (s : EmuState) :
    CpuStep s (mtsprBat reg high val s) ∧
      (mtsprBat reg high val s).needsMemMapUpdate = true := by
  unfold mtsprBat
  dsimp only
  split <;> exact ⟨⟨rfl,rfl,rfl,rfl⟩,rfl⟩

lemma mtspr_spec (spr : ℕ) (val : Word) (s : EmuState) : CpuStep s (mtspr spr val s) ∧
    ((mtspr spr val s).needsMemMapUpdate = true ∨ QuietStep s (mtspr spr val s)) := by
  unfold mtspr
  cases batSpr spr with
  | some r =>
    obtain ⟨reg,high⟩ := r
    obtain ⟨hstep,hflag⟩ := mtsprBat_spec reg high val s
    exact ⟨hstep,.inl hflag⟩
  | none =>
    have hquiet := mtsprOther_quiet spr val s
    exact ⟨hquiet.step,.inr hquiet⟩

end

variable (op : Emulated) (s : EmuState) (ctx : Context)

theorem emulate_cpuStep : CpuStep s (emulate op s ctx).1 := by
  cases op with
  | mfspr regDest spr => exact (mfspr_quiet spr s).step
  | mtspr spr regSrc => exact (mtspr_spec spr _ s).1
  | mfmsr regDest => exact ⟨rfl,rfl,rfl,rfl⟩
  | mtmsr regSrc => exact validateMsr_cpuStep ⟨rfl,rfl,rfl,rfl⟩
  | rfi => exact validateMsr_cpuStep ⟨rfl,rfl,rfl,rfl⟩
  | mtsr segmentReg regSrc => exact ⟨rfl,rfl,rfl,rfl⟩
  | mfsr regDest segmentReg => exact ⟨rfl,rfl,rfl,rfl⟩
  | dcbi => exact ⟨rfl,rfl,rfl,rfl⟩
  | unhandled => exact ⟨rfl,rfl,rfl,rfl⟩

/-- Every instruction raises the flag or leaves the map's inputs alone, but for `mtmsr`. -/
theorem emulate_cases : (emulate op s ctx).1.needsMemMapUpdate = true ∨
    QuietStep s (emulate op s ctx).1 ∨ ∃ regSrc, op = .mtmsr regSrc := by
  cases op with
  | mfspr regDest spr => exact .inr (.inl (mfspr_quiet spr s))
  | mtspr spr regSrc =>
    rcases (mtspr_spec spr (ctx.gpr regSrc) s).2 with hflag | hquiet
    · exact .inl hflag
    · exact .inr (.inl hquiet)
  | mfmsr regDest => exact .inr (.inl (.refl s))
  | mtmsr regSrc => exact .inr (.inr ⟨regSrc,rfl⟩)
  | rfi => exact .inl (validateMsr_flag _)
  | mtsr segmentReg regSrc =>
    exact .inr (.inl ⟨⟨rfl,rfl,rfl,rfl⟩,rfl,⟨⟨rfl,rfl,rfl,rfl⟩,rfl,rfl⟩⟩)
  | mfsr regDest segmentReg => exact .inr (.inl (.refl s))
  | dcbi => exact .inr (.inl (.refl s))
  | unhandled => exact .inr (.inl (QuietStep.refl s).raise)

theorem mtmsr_spec (val : Word) (s : EmuState) :
    (mtmsr val s).needsMemMapUpdate = s.needsMemMapUpdate ∧
      (mtmsr val s).cpu = { s.cpu with msr := val } :=
  ⟨validateMsr_flag _,validateMsr_cpu _⟩

theorem emulate_sameBats (h : (emulate op s ctx).1.needsMemMapUpdate = false) :
    SameBats s.cpu (emulate op s ctx).1.cpu := by
  rcases emulate_cases op s ctx with hflag | hquiet | ⟨regSrc,rfl⟩
  · rw [h] at hflag
    contradiction
  · exact hquiet.same.bats
  · have hcpu := (mtmsr_spec (ctx.gpr regSrc) s).2
    change SameBats s.cpu (mtmsr (ctx.gpr regSrc) s).cpu
    rw [hcpu]
    exact ⟨rfl,rfl,rfl,rfl⟩

end DolTools
