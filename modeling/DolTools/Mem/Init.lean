import DolTools.Mem.Fixups

/-! What `E_MemInit` sets up before its first call of `E_MemMapFixups`. It leaves the slots as
they are, for the loops that would mark them empty never run. -/
namespace DolTools

/-- Whatever becomes of the regions, the host, the MSR and the flags stay. -/
structure RegionsStep (s t : EmuState) : Prop where
  consoleType : t.consoleType = s.consoleType
  host : t.host = s.host
  msr : t.cpu.msr = s.cpu.msr
  flag : t.needsMemMapUpdate = s.needsMemMapUpdate
  fatal : t.fatalError = s.fatalError
  slots : t.mem.mapI = s.mem.mapI ∧ t.mem.mapD = s.mem.mapD

/-- The regions of a console, with the default BATs. -/
inductive Regions (c : CpuState) (t : EmuState) : Prop
  | gamecube (hc : t.consoleType = .gamecube) (bats : t.maxBAT = 4)
      (cpu : t.cpu = setMem1Bats c) (size1 : t.mem.size .mem1 = 0x01800000#32)
      (size2 : t.mem.size .mem2 = 0)
  | wii (hc : t.consoleType = .wii) (bats : t.maxBAT = 8)
      (cpu : t.cpu = setMem2Bats (setMem1Bats c)) (size1 : t.mem.size .mem1 = 0x01800000#32)
      (size2 : t.mem.size .mem2 = 0x04000000#32)

section

variable {k : Kernel} {vaddr : Word} {env : MemInitEnv} {s : EmuState}

lemma gcnRegions_step (env : MemInitEnv) (s : EmuState) :
    RegionsStep s (gcnRegions env s).2 := by
  unfold gcnRegions
  dsimp only
  split_ifs <;> exact ⟨rfl,rfl,rfl,rfl,rfl,rfl,rfl⟩

lemma wiiRegions_step (env : MemInitEnv) (s : EmuState) :
    RegionsStep s (wiiRegions env s).2 := by
  unfold wiiRegions
  dsimp only
  split_ifs <;> exact ⟨rfl,rfl,rfl,rfl,rfl,rfl,rfl⟩

theorem memRegions_step (env : MemInitEnv) (s : EmuState) :
    RegionsStep s (memRegions env s).2 := by
  unfold memRegions
  split
  · exact gcnRegions_step env s
  · exact wiiRegions_step env s
  · exact ⟨rfl,rfl,rfl,rfl,rfl,rfl,rfl⟩

lemma memInit_eq (k : Kernel) (vaddr : Word) (env : MemInitEnv) (s : EmuState) :
    memInit k vaddr env s = if (memRegions env s).1 ≠ 0 then memRegions env s
      else (0,memMapFixups k vaddr (memRegions env s).2.cpu.msr (memRegions env s).2) := rfl

theorem memInit_fst : (memInit k vaddr env s).1 = 0 ↔ (memRegions env s).1 = 0 := by
  rw [memInit_eq]
  by_cases h : (memRegions env s).1 = 0 <;> simp [h]

theorem memInit_of_fails (h : (memInit k vaddr env s).1 ≠ 0) :
    (memInit k vaddr env s).2 = (memRegions env s).2 := by
  rw [Ne, memInit_fst] at h
  rw [memInit_eq, if_pos h]

theorem memInit_of_succeeds (h : (memInit k vaddr env s).1 = 0) :
    (memInit k vaddr env s).2 = memMapFixups k vaddr s.cpu.msr (memRegions env s).2 := by
  rw [memInit_fst] at h
  rw [memInit_eq, if_neg (not_not.mpr h), (memRegions_step env s).msr]

lemma gcnRegions_succeeds (hc : s.consoleType = .gamecube) (h : (gcnRegions env s).1 = 0) :
    Regions s.cpu (gcnRegions env s).2 := by
  unfold gcnRegions at h ⊢
  dsimp only at h ⊢
  split_ifs at h ⊢
  · contradiction
  · contradiction
  · exact .gamecube hc rfl rfl rfl rfl

lemma wiiRegions_succeeds (hc : s.consoleType = .wii) (h : (wiiRegions env s).1 = 0) :
    Regions s.cpu (wiiRegions env s).2 := by
  unfold wiiRegions at h ⊢
  dsimp only at h ⊢
  split_ifs at h ⊢
  · contradiction
  · contradiction
  · exact .wii hc rfl rfl rfl rfl

theorem memRegions_succeeds (h : (memRegions env s).1 = 0) :
    Regions s.cpu (memRegions env s).2 := by
  cases hc : s.consoleType with
  | gamecube =>
    simp only [memRegions, hc] at h ⊢
    exact gcnRegions_succeeds hc h
  | wii =>
    simp only [memRegions, hc] at h ⊢
    exact wiiRegions_succeeds hc h
  | other =>
    simp only [memRegions, hc] at h
    contradiction

lemma Regions.ramsApart {c : CpuState} {t : EmuState} (h : Regions c t) : RamsApart t := by
  cases h with
  | gamecube _ _ _ hsize _ =>
    rw [RamsApart, hsize]
    decide
  | wii _ _ _ hsize _ =>
    rw [RamsApart, hsize]
    decide

end
end DolTools
