import DolTools.Emu.RegisterRuns

/-! The BATs 4 to 7 and HID4, which only Broadway has. A GameCube guest cannot reach them at
all, and a Wii guest reaches the BATs only after it has set HID4[SBE] itself. -/
namespace DolTools

/-- HID4 on a GameCube, and a higher BAT while the validation refuses it. -/
def SprReg.closed (s : EmuState) : SprReg → Bool
  | .hid4 => decide (s.consoleType = .gamecube)
  | .bat reg => reg.high && highBatIllegal s
  | _ => false

/-- The registers that Gekko lacks. -/
def SprReg.Broadway : SprReg → Prop
  | .hid4 => True
  | .bat reg => reg.high = true
  | _ => False

/-- The instruction reads or writes the register by its SPR number. -/
def Emulated.Accesses (r : SprReg) : Emulated → Prop
  | .mfspr _ spr => spr = r.spr
  | .mtspr spr _ => spr = r.spr
  | _ => False

/-- An `mtspr` to HID4 whose value has the SBE bit. -/
def Trap.SetsSbe (e : Trap) : Prop :=
  ∃ regSrc, decodeIllegal e.val = .mtspr sprHid4 regSrc ∧ e.ctx.gpr regSrc &&& hid4Sbe ≠ 0

section

variable {s : EmuState} {r : SprReg}

lemma SprReg.closed_of_gamecube (hr : r.Broadway) (hc : s.consoleType = .gamecube) :
    r.closed s = true := by
  cases r with
  | hid4 => simp [closed, hc]
  | bat reg =>
    simp only [Broadway] at hr
    simp [closed, highBatIllegal, hr, hc]
  | _ => exact hr.elim

lemma highBatIllegal_wii (hc : s.consoleType = .wii) (hsbe : s.cpu.hid4 &&& hid4Sbe = 0) :
    highBatIllegal s = true := by
  rw [highBatIllegal, hc]
  exact beq_iff_eq.mpr hsbe

/-- A write of a closed register is refused. -/
lemma mtspr_closed (h : r.closed s = true) (val : Word) :
    (mtspr r.spr val s).cpu = s.cpu ∧ (mtspr r.spr val s).fatalError = true := by
  cases r with
  | hid4 =>
    have hc : s.consoleType = .gamecube := by simpa [SprReg.closed] using h
    have hfatal : mtspr sprHid4 val s = s.fatal := if_pos hc
    rw [show SprReg.hid4.spr = sprHid4 from rfl, hfatal]
    exact ⟨rfl,rfl⟩
  | bat reg =>
    change (mtspr reg.spr val s).cpu = s.cpu ∧ (mtspr reg.spr val s).fatalError = true
    have hbat : mtspr reg.spr val s = mtsprBat reg reg.high val s := by rw [mtspr, batSpr_spr]
    rw [hbat, mtsprBat]
    have hclosed : (reg.high && highBatIllegal { s with needsMemMapUpdate := true }) = true := h
    simp only [hclosed, if_true]
    exact ⟨rfl,rfl⟩
  | _ => contradiction

/-- A read of a closed register is an error. -/
lemma mfspr_closed (h : r.closed s = true) : (mfspr r.spr s).2.fatalError = true := by
  cases r with
  | hid4 =>
    have hc : s.consoleType = .gamecube := by simpa [SprReg.closed] using h
    have hfatal : mfspr sprHid4 s = (sprError,s.fatal) := if_pos hc
    rw [show SprReg.hid4.spr = sprHid4 from rfl, hfatal]
    rfl
  | bat reg =>
    have hbat : mfspr reg.spr s = mfsprBat reg reg.high s := by rw [mfspr, batSpr_spr]
    have hclosed : (reg.high && highBatIllegal s) = true := h
    rw [show (SprReg.bat reg).spr = reg.spr from rfl, hbat, mfsprBat, if_pos hclosed]
    rfl
  | _ => contradiction

lemma emulate_closed (h : r.closed s = true) {op : Emulated} (hop : op.Accesses r)
    (ctx : Context) : (emulate op s ctx).1.fatalError = true := by
  cases op with
  | mfspr regDest spr =>
    obtain rfl := hop
    exact mfspr_closed h
  | mtspr spr regSrc =>
    obtain rfl := hop
    exact (mtspr_closed h _).2
  | _ => exact hop.elim

end

section

variable {s : EmuState} {r : SprReg}

/-- A write that is refused or lands elsewhere leaves the register. HID0 is not among them. -/
lemma SprWrite.keeps {spr : ℕ} {val : Word} {t : EmuState} (h : SprWrite spr val s t)
    (hr : r.Broadway) (hne : spr ≠ r.spr) : r.get t.cpu = r.get s.cpu := by
  cases h with
  | refused fatal cpu => rw [cpu]
  | lowPower fatal cpu =>
    rw [cpu]
    cases r with
    | hid4 => rfl
    | bat reg => cases reg <;> rfl
    | _ => exact hr.elim
  | counter i number cpu fatal =>
    rw [cpu]
    cases r with
    | hid4 => rfl
    | bat reg => cases reg <;> rfl
    | _ => exact hr.elim
  | stored r' number takes cpu fatal =>
    rw [cpu, SprReg.get_set, if_neg]
    rintro rfl
    exact hne number

/-- A register of Broadway changes only by an `mtspr` that names it while it is open. -/
theorem emulate_changes (hr : r.Broadway) {op : Emulated} {ctx : Context}
    (h : r.get (emulate op s ctx).1.cpu ≠ r.get s.cpu) :
    r.closed s = false ∧ ∃ regSrc, op = .mtspr r.spr regSrc := by
  have hmsr : ∀ msr : Word, r.get { s.cpu with msr := msr } = r.get s.cpu := by
    intro msr
    cases r with
    | bat reg => cases reg <;> rfl
    | _ => rfl
  cases op with
  | mtspr spr regSrc =>
    have hspr : spr = r.spr := by
      by_contra hne
      exact h ((mtspr_sprWrite spr (ctx.gpr regSrc) s).keeps hr hne)
    subst hspr
    refine ⟨?_,regSrc,rfl⟩
    by_contra hclosed
    rw [Bool.not_eq_false] at hclosed
    exact h (congrArg r.get (mtspr_closed hclosed (ctx.gpr regSrc)).1)
  | mfspr regDest spr => exact absurd (congrArg r.get (mfspr_cpu spr s)) h
  | mtmsr regSrc =>
    have hcpu : (emulate (.mtmsr regSrc) s ctx).1.cpu = { s.cpu with msr := ctx.gpr regSrc } :=
      validateMsr_cpu _
    rw [hcpu] at h
    exact absurd (hmsr _) h
  | rfi =>
    have hcpu : (emulate .rfi s ctx).1.cpu = { s.cpu with msr := rfiMsr s.cpu } :=
      validateMsr_cpu _
    rw [hcpu] at h
    exact absurd (hmsr _) h
  | mtsr segmentReg regSrc =>
    refine absurd ?_ h
    cases r with
    | bat reg => cases reg <;> rfl
    | _ => rfl
  | mfmsr regDest => exact absurd rfl h
  | mfsr regDest segmentReg => exact absurd rfl h
  | dcbi => exact absurd rfl h
  | unhandled => exact absurd rfl h

end

/-- What the run starts from: the registers that `E_MemInit` and then `E_CPU_Init` leave. -/
def initialised (k : Kernel) (env : BootEnv) : EmuState :=
  cpuInit (memInit k env.vaddr env.mem (bootStart env)).2

def instructions (k : Kernel) (s : EmuState) (es : List Trap) : EmuState :=
  es.foldl (handled k) s

@[simp] theorem instructions_concat (k : Kernel) (s : EmuState) (es : List Trap) (e : Trap) :
    instructions k s (es ++ [e]) = handled k (instructions k s es) e := by
  simp [instructions]

section

variable {k : Kernel} {s : EmuState} {e : Trap} {r : SprReg} {reg : BatReg}

lemma handled_consoleType : (handled k s e).consoleType = s.consoleType := by
  have hstep : (emulated s e).consoleType = s.consoleType :=
    (emulate_cpuStep (decodeIllegal e.val) s e.ctx).consoleType
  unfold handled
  split
  · exact memMapFixups_mapStep.consoleType.trans hstep
  · exact hstep

lemma instructions_consoleType (es : List Trap) :
    (instructions k s es).consoleType = s.consoleType :=
  List.foldlRecOn (motive := fun t => t.consoleType = s.consoleType) es (handled k) rfl
    (fun _ ht _ _ => handled_consoleType.trans ht)

lemma handled_changes (hr : r.Broadway) (h : r.get (handled k s e).cpu ≠ r.get s.cpu) :
    r.closed s = false ∧ ∃ regSrc, decodeIllegal e.val = .mtspr r.spr regSrc := by
  rw [handled_cpu] at h
  exact emulate_changes hr h

lemma handled_closed (h : r.closed s = true) (he : (decodeIllegal e.val).Accesses r) :
    (handled k s e).fatalError = true := by
  by_contra hok
  have hfatal : (emulated s e).fatalError = true := emulate_closed h he e.ctx
  rw [handled_ok ((Bool.not_eq_true _).mp hok)] at hfatal
  contradiction

/-- On a GameCube the registers of Broadway never change. -/
lemma instructions_gamecube (hc : s.consoleType = .gamecube) (hr : r.Broadway)
    (es : List Trap) : r.get (instructions k s es).cpu = r.get s.cpu := by
  induction es using List.reverseRecOn with
  | nil => rfl
  | append_singleton es e ih =>
    rw [instructions_concat]
    by_contra hne
    rw [← ih] at hne
    have hclosed := (handled_changes hr hne).1
    rw [SprReg.closed_of_gamecube hr ((instructions_consoleType es).trans hc)] at hclosed
    contradiction

/-- On a Wii a higher BAT changes only while SBE is set. -/
lemma handled_high (hc : s.consoleType = .wii) (hreg : reg.high = true)
    (h : reg.get (handled k s e).cpu ≠ reg.get s.cpu) : s.cpu.hid4 &&& hid4Sbe ≠ 0 := by
  intro hsbe
  have hclosed := (handled_changes (r := .bat reg) hreg h).1
  simp only [SprReg.closed, hreg, Bool.true_and] at hclosed
  rw [highBatIllegal_wii hc hsbe] at hclosed
  contradiction

/-- The bit rules of HID4 leave SBE as it is written. -/
lemma hid4Value_sbe (val : Word) : hid4Value val &&& hid4Sbe = val &&& hid4Sbe := by
  have hzeros : ~~~hid4Rsrvd0 &&& hid4Sbe = hid4Sbe := by decide
  have hone : hid4Rsrvd1 &&& hid4Sbe = 0 := by decide
  rw [hid4Value_eq val .zero]
  change (val ||| hid4Rsrvd1) &&& ~~~hid4Rsrvd0 &&& hid4Sbe = val &&& hid4Sbe
  rw [BitVec.and_assoc, hzeros, BitVec.and_or_distrib_right, hone]
  exact BitVec.or_zero

lemma mtspr_hid4 (hc : s.consoleType = .wii) (val : Word) :
    (mtspr sprHid4 val s).cpu.hid4 = hid4Value val := by
  have hne : ¬ s.consoleType = .gamecube := by
    rw [hc]
    decide
  have hstored : mtspr sprHid4 val s = { s with cpu := { s.cpu with hid4 := hid4Value val } } :=
    if_neg hne
  rw [hstored]

/-- SBE stays clear while nothing writes it into HID4. -/
lemma handled_sbe (hc : s.consoleType = .wii) (h : s.cpu.hid4 &&& hid4Sbe = 0)
    (he : ¬ e.SetsSbe) : (handled k s e).cpu.hid4 &&& hid4Sbe = 0 := by
  by_cases hsame : (handled k s e).cpu.hid4 = s.cpu.hid4
  · rw [hsame, h]
  · obtain ⟨-,regSrc,hdecode⟩ := handled_changes (r := .hid4) trivial hsame
    have hval : e.ctx.gpr regSrc &&& hid4Sbe = 0 := by
      by_contra hset
      exact he ⟨regSrc,hdecode,hset⟩
    rw [handled_cpu, emulated, hdecode]
    change (mtspr sprHid4 (e.ctx.gpr regSrc) s).cpu.hid4 &&& hid4Sbe = 0
    rw [mtspr_hid4 hc, hid4Value_sbe, hval]

lemma instructions_sbe (hc : s.consoleType = .wii) (h : s.cpu.hid4 &&& hid4Sbe = 0)
    {es : List Trap} (hes : ∀ e ∈ es, ¬ e.SetsSbe) :
    (instructions k s es).cpu.hid4 &&& hid4Sbe = 0 := by
  induction es using List.reverseRecOn with
  | nil => exact h
  | append_singleton es e ih =>
    rw [instructions_concat]
    exact handled_sbe ((instructions_consoleType es).trans hc)
      (ih (fun e' he' => hes e' (List.mem_append_left _ he'))) (hes e (by simp))

lemma instructions_wii (hc : s.consoleType = .wii) (h : s.cpu.hid4 &&& hid4Sbe = 0)
    {es : List Trap} (hes : ∀ e ∈ es, ¬ e.SetsSbe) (hreg : reg.high = true) :
    reg.get (instructions k s es).cpu = reg.get s.cpu := by
  induction es using List.reverseRecOn with
  | nil => rfl
  | append_singleton es e ih =>
    have hes' : ∀ e' ∈ es, ¬ e'.SetsSbe := fun e' he' => hes e' (List.mem_append_left _ he')
    rw [instructions_concat]
    by_contra hne
    rw [← ih hes'] at hne
    exact handled_high ((instructions_consoleType es).trans hc) hreg hne
      (instructions_sbe hc h hes')

end

section

variable {k : Kernel} {env : BootEnv}

lemma SameBats.get {c d : CpuState} (h : SameBats c d) (reg : BatReg) : reg.get d = reg.get c := by
  obtain ⟨hiu,hil,hdu,hdl⟩ := h
  cases reg with
  | ibatu i => exact congrFun hiu i
  | ibatl i => exact congrFun hil i
  | dbatu i => exact congrFun hdu i
  | dbatl i => exact congrFun hdl i

/-- The default BATs of MEM1 are the first two. -/
lemma setMem1Bats_high {reg : BatReg} (h : reg.high = true) (c : CpuState) :
    reg.get (setMem1Bats c) = reg.get c := by
  have hne : ∀ i j : Fin 8, 4 ≤ i.val → j.val < 2 → i ≠ j := by
    rintro i j hi hj rfl
    omega
  cases reg with
  | ibatu i => exact Function.update_of_ne (hne i 0 (of_decide_eq_true h) (by decide)) _ _
  | ibatl i => exact Function.update_of_ne (hne i 0 (of_decide_eq_true h) (by decide)) _ _
  | dbatu i =>
    exact (Function.update_of_ne (hne i 1 (of_decide_eq_true h) (by decide)) _ _).trans
      (Function.update_of_ne (hne i 0 (of_decide_eq_true h) (by decide)) _ _)
  | dbatl i =>
    exact (Function.update_of_ne (hne i 1 (of_decide_eq_true h) (by decide)) _ _).trans
      (Function.update_of_ne (hne i 0 (of_decide_eq_true h) (by decide)) _ _)

lemma memInit_cpu (k : Kernel) (vaddr : Word) (env : MemInitEnv) (s : EmuState) :
    (memInit k vaddr env s).2.cpu = (memRegions env s).2.cpu := by
  rw [memInit_eq]
  split
  · rfl
  · exact memMapFixups_cpu

lemma gcnRegions_cpu (env : MemInitEnv) (s : EmuState) :
    (gcnRegions env s).2.cpu = s.cpu ∨ (gcnRegions env s).2.cpu = setMem1Bats s.cpu := by
  unfold gcnRegions
  dsimp only
  split_ifs
  · exact .inl rfl
  · exact .inl rfl
  · exact .inr rfl

lemma bootStart_bat (env : BootEnv) (reg : BatReg) : reg.get (bootStart env).cpu = 0 := by
  rw [bootStart_cpu]
  cases reg <;> rfl

/-- On a GameCube `E_MemInit` leaves the higher BATs zero, also where it fails. -/
lemma memInit_high (hc : env.consoleType = .gamecube) {reg : BatReg} (h : reg.high = true) :
    reg.get (memInit k env.vaddr env.mem (bootStart env)).2.cpu = 0 := by
  have hregions : memRegions env.mem (bootStart env) = gcnRegions env.mem (bootStart env) := by
    rw [memRegions, bootStart_consoleType, hc]
  rw [memInit_cpu, hregions]
  rcases gcnRegions_cpu env.mem (bootStart env) with hcpu | hcpu
  · rw [hcpu, bootStart_bat]
  · rw [hcpu, setMem1Bats_high h, bootStart_bat]

lemma memInit_consoleType (k : Kernel) (vaddr : Word) (env : MemInitEnv) (s : EmuState) :
    (memInit k vaddr env s).2.consoleType = s.consoleType := by
  have hregions := (memRegions_step env s).consoleType
  rw [memInit_eq]
  split
  · exact hregions
  · exact memMapFixups_mapStep.consoleType.trans hregions

lemma cpuInit_hid4 (s : EmuState) : (cpuInit s).cpu.hid4 = hid4Rsrvd1 := by
  rw [cpuInit, timerAddHook_cpu]

/-- Both initialisations have run, and nothing since then has touched a BAT or HID4. -/
structure AfterInit (k : Kernel) (env : BootEnv) (s : EmuState) : Prop where
  consoleType : s.consoleType = env.consoleType
  bat : ∀ reg : BatReg, reg.get s.cpu =
    reg.get (memInit k env.vaddr env.mem (bootStart env)).2.cpu
  hid4 : s.cpu.hid4 = hid4Rsrvd1

lemma afterInit_initialised (k : Kernel) (env : BootEnv) : AfterInit k env (initialised k env) where
  consoleType := by
    rw [initialised, (cpuInit_initStep _).map.consoleType, memInit_consoleType,
      bootStart_consoleType]
  bat := (cpuInit_initStep _).map.bats.get
  hid4 := cpuInit_hid4 _

lemma bootRemap_cpu (k : Kernel) (env : BootEnv) (s : EmuState) :
    SameBats s.cpu (bootRemap k env s).cpu ∧ (bootRemap k env s).consoleType = s.consoleType := by
  unfold bootRemap
  split
  · rw [memMapFixups_cpu, memMapFixups_mapStep.consoleType]
    exact ⟨⟨rfl,rfl,rfl,rfl⟩,rfl⟩
  · exact ⟨⟨rfl,rfl,rfl,rfl⟩,rfl⟩

/-- `E_CPU_Init` is the last that `main` calls before it enters the guest. -/
lemma boot_eq_cpuInit {s : EmuState} (h : boot k env = some s) : ∃ u, s = cpuInit u := by
  unfold boot bootRest at h
  dsimp only at h
  split_ifs at h
  exact ⟨_,(Option.some.inj h).symm⟩

lemma afterInit_boot {s : EmuState} (h : boot k env = some s) : AfterInit k env s where
  consoleType := by
    obtain ⟨u,hmem,-,-,hrest⟩ := boot_eq_some h
    rw [hrest.map.consoleType, (bootRemap_cpu k env u).2, hmem.map.consoleType,
      memInit_consoleType, bootStart_consoleType]
  bat reg := by
    obtain ⟨u,hmem,-,-,hrest⟩ := boot_eq_some h
    rw [hrest.map.bats.get, (bootRemap_cpu k env u).1.get, hmem.map.bats.get]
  hid4 := by
    obtain ⟨u,rfl⟩ := boot_eq_cpuInit h
    exact cpuInit_hid4 u

/-- What HID4 promises in a state `s` that the instructions `es` have led to. -/
structure HighBatsGated (k : Kernel) (env : BootEnv) (es : List Trap) (s : EmuState) :
    Prop where
  /-- On a GameCube the registers keep their start values, and every access is an error. -/
  gamecube : env.consoleType = .gamecube → (∀ reg : BatReg, reg.high = true → reg.get s.cpu = 0) ∧
    s.cpu.hid4 = (initialised k env).cpu.hid4 ∧
    ∀ e : Trap, ∀ r : SprReg, r.Broadway → (decodeIllegal e.val).Accesses r →
      (handled k s e).fatalError = true
  /-- On a Wii the BATs are those of `E_MemInit` until SBE is written into HID4. -/
  unwritten : env.consoleType = .wii → (∀ e ∈ es, ¬ e.SetsSbe) → ∀ reg : BatReg, reg.high = true →
    reg.get s.cpu = reg.get (memInit k env.vaddr env.mem (bootStart env)).2.cpu
  /-- Every step of a Wii guest that changes one of them finds SBE set. -/
  step : env.consoleType = .wii → ∀ e : Trap, ∀ reg : BatReg, reg.high = true →
    reg.get (handled k s e).cpu ≠ reg.get s.cpu → s.cpu.hid4 &&& hid4Sbe ≠ 0

lemma AfterInit.gated {s : EmuState} (h : AfterInit k env s) (es : List Trap) :
    HighBatsGated k env es (instructions k s es) where
  gamecube hc := by
    have hstart : s.consoleType = .gamecube := h.consoleType.trans hc
    refine ⟨?_,?_,?_⟩
    · intro reg hreg
      have hkeep := instructions_gamecube (k := k) (r := .bat reg) hstart hreg es
      exact (hkeep.trans (h.bat reg)).trans (memInit_high hc hreg)
    · have hkeep := instructions_gamecube (k := k) (r := .hid4) hstart trivial es
      exact (hkeep.trans h.hid4).trans (afterInit_initialised k env).hid4.symm
    · intro e r hr he
      exact handled_closed
        (SprReg.closed_of_gamecube hr ((instructions_consoleType es).trans hstart)) he
  unwritten hc hes reg hreg := by
    have hsbe : s.cpu.hid4 &&& hid4Sbe = 0 := by
      rw [h.hid4]
      decide
    rw [instructions_wii (h.consoleType.trans hc) hsbe hes hreg, h.bat]
  step hc e reg hreg hne :=
    handled_high ((instructions_consoleType es).trans (h.consoleType.trans hc)) hreg hne

/-- HID4 gates the higher BATs in every state that a sequence of instructions reaches from
the initialisation, be they errors or not. -/
theorem highBatsGated (k : Kernel) (env : BootEnv) (es : List Trap) :
    HighBatsGated k env es (instructions k (initialised k env) es) :=
  (afterInit_initialised k env).gated es

/-- The same from the state in which `main` enters the guest. -/
theorem boot_highBatsGated {s : EmuState} (h : boot k env = some s) (es : List Trap) :
    HighBatsGated k env es (instructions k s es) :=
  (afterInit_boot h).gated es

end

end DolTools
