import DolTools.Emu.Emulation
import DolTools.Mem.Init
import DolTools.Mem.Slots
import DolTools.Mmio.Chipset

/-! From `main` to the entry of the guest, and the runs of emulated instructions from there.
Copying the executable into memory changes none of the state here. -/
namespace DolTools

/-- What `main` finds: the console types, whether the first section is BS1, how the calls into the
host end, and what can be read behind the last page of the mapped file, by the distance from its
start. -/
structure BootEnv where
  consoleType : ConsoleType
  hostType : ConsoleType
  usePhys : Bool
  timer : Bool
  mem : MemInitEnv
  vaddr : Word
  forward : ForwardEnv
  iram : Fin 8192 → Byte
  handlers : Bool
  behind : ℕ → Option Byte

/-- `E_Timer_Init` -/
def timerInit (setitimer : Bool) (s : EmuState) : EmuState :=
  let s := { s with timersHooks := [] }
  if setitimer then s else s.fatal

/-- The state in which `main` calls `E_MemInit`. -/
def bootStart (env : BootEnv) : EmuState :=
  let s := timerInit env.timer { EmuState.zero with
    consoleType := env.consoleType
    hostType := env.hostType }
  { s with cpu := { s.cpu with msr := if env.usePhys then 0 else msrIr ||| msrDr } }

lemma bootStart_cpu (env : BootEnv) : (bootStart env).cpu =
    { CpuState.zero with msr := if env.usePhys then 0 else msrIr ||| msrDr } := by
  unfold bootStart timerInit
  cases env.timer <;> rfl

lemma bootStart_space (env : BootEnv) : (bootStart env).host.space = AddressMap.empty := by
  unfold bootStart timerInit
  cases env.timer <;> rfl

/-- The static storage is zero, and stays so: the loops over the slots never run. -/
lemma memRegions_slot (env : BootEnv) (ram : Ram) (e : BatRef) :
    (memRegions env.mem (bootStart env)).2.mem.slot ram e = 0 := by
  have hzero : (bootStart env).mem.slot ram e = 0 := by
    unfold bootStart timerInit
    obtain ⟨i,isData⟩ := e
    cases env.timer <;> cases isData <;> rfl
  have hstep := memRegions_step env.mem (bootStart env)
  rw [MemState.slot, hstep.slots.1, hstep.slots.2]
  exact hzero

lemma memRegions_space (env : BootEnv) (a : ℕ) :
    (memRegions env.mem (bootStart env)).2.host.space a = none := by
  rw [(memRegions_step env.mem (bootStart env)).host, bootStart_space]
  rfl

lemma bootStart_consoleType (env : BootEnv) :
    (bootStart env).consoleType = env.consoleType := by
  unfold bootStart timerInit
  cases env.timer <;> rfl

def bootRemap (k : Kernel) (env : BootEnv) (s : EmuState) : EmuState :=
  if env.usePhys then
    memMapFixups k env.vaddr (msrIr ||| msrDr) { s with cpu := { s.cpu with msr := 0 } }
  else s

/-- `main` behind `E_MemInit`, whose return code it ignores; `none` where it exits. -/
def bootRest (k : Kernel) (env : BootEnv) (s : EmuState) : Option EmuState :=
  if s.fatalError then none
  else
    let s := chipsetInit env.forward env.iram s
    if s.fatalError then none
    else if !env.handlers then none
    else
      let s := cpuInit (bootRemap k env s)
      if s.fatalError then none else some s

/-- `main` up to the entry of the guest. -/
def boot (k : Kernel) (env : BootEnv) : Option EmuState :=
  if env.hostType = .other then none
  else bootRest k env (memInit k env.vaddr env.mem (bootStart env)).2

def MemInitSucceeds (k : Kernel) (env : BootEnv) : Prop :=
  (memInit k env.vaddr env.mem (bootStart env)).1 = 0

/-- The three ends of `E_MemInit` in `main`: a region is missing, or nothing is mapped because the
guest starts in real mode, or a first pass maps the default BATs. -/
theorem memInit_cases (k : Kernel) (env : BootEnv) :
    (¬ MemInitSucceeds k env ∧ (memInit k env.vaddr env.mem (bootStart env)).2 =
      (memRegions env.mem (bootStart env)).2) ∨
    (MemInitSucceeds k env ∧ env.usePhys = true ∧
      (memInit k env.vaddr env.mem (bootStart env)).2 =
        fixupsEntry 0 (memRegions env.mem (bootStart env)).2) ∨
    (MemInitSucceeds k env ∧ env.usePhys = false ∧
      (memInit k env.vaddr env.mem (bootStart env)).2 = memReloadMap k env.vaddr
        (fixupsEntry (msrIr ||| msrDr) (memRegions env.mem (bootStart env)).2)) := by
  have hmsr := (memRegions_step env.mem (bootStart env)).msr
  by_cases hmem : MemInitSucceeds k env
  · have hcpu := congrArg CpuState.msr (bootStart_cpu env)
    cases hphys : env.usePhys with
    | true =>
      have hreal : (bootStart env).cpu.msr = 0 := by simpa [hphys] using hcpu
      refine .inr (.inl ⟨hmem,rfl,?_⟩)
      rw [hreal] at hmsr
      rw [memInit_of_succeeds hmem, hreal, memMapFixups_of_real (by decide)
        (by rw [hmsr]; decide) (by rw [hmsr]; decide)]
    | false =>
      have hvirt : (bootStart env).cpu.msr = msrIr ||| msrDr := by simpa [hphys] using hcpu
      refine .inr (.inr ⟨hmem,rfl,?_⟩)
      rw [hvirt] at hmsr
      rw [memInit_of_succeeds hmem, hvirt, memMapFixups_of_translating (by rw [hmsr]; decide),
        reloadStart_of_translating (by decide)]
  · exact .inl ⟨hmem,memInit_of_fails hmem⟩

/-- With translation on, `E_MemInit` is the first pass over the default tables. -/
theorem memInit_of_virtual {k : Kernel} {env : BootEnv} (hmem : MemInitSucceeds k env)
    (hvirt : env.usePhys = false) : (memInit k env.vaddr env.mem (bootStart env)).2 =
      memReloadMap k env.vaddr
        (fixupsEntry (msrIr ||| msrDr) (memRegions env.mem (bootStart env)).2) := by
  rcases memInit_cases k env with ⟨hno,-⟩ | ⟨-,hphys,-⟩ | ⟨-,-,heq⟩
  · exact absurd hmem hno
  · rw [hvirt] at hphys
    contradiction
  · exact heq

/-- The default tables are in place when the first pass starts. -/
lemma memRegions_regions {k : Kernel} {env : BootEnv} (hmem : MemInitSucceeds k env) :
    ∃ msr, Regions { CpuState.zero with msr := msr } (memRegions env.mem (bootStart env)).2 := by
  have hregions := memRegions_succeeds (memInit_fst.mp hmem)
  rw [bootStart_cpu] at hregions
  exact ⟨_,hregions⟩

/-- An illegal instruction of the guest: the word, the context it traps in, and what the
uninitialised local of `E_MemReloadMap` would hold. -/
structure Trap where
  val : Word
  ctx : Context
  vaddr : Word

def emulated (s : EmuState) (e : Trap) : EmuState := (emulate (decodeIllegal e.val) s e.ctx).1

/-- The handler as a step on the emulator state. -/
def sigillStep (k : Kernel) (bail : BailOut) (s : EmuState) (e : Trap) : Option EmuState :=
  (sigillHandler k e.vaddr bail e.val s e.ctx).map (fun r => r.1)

lemma sigillFinish_fst (k : Kernel) (vaddr : Word) (bail : BailOut) (msr : Word)
    (s : EmuState) (ctx : Context) : (sigillFinish k vaddr bail msr s ctx).1 =
      if s.needsMemMapUpdate then memMapFixups k vaddr msr s else s := by
  unfold sigillFinish
  generalize (if s.needsMemMapUpdate then memMapFixups k vaddr msr s else s) = u
  dsimp only
  cases u.fatalError <;> rfl

/-- The state that a return of the handler leaves: the instruction emulated, and the map
fixed up if the instruction asked for it. -/
def handled (k : Kernel) (s : EmuState) (e : Trap) : EmuState :=
  if (emulated s e).needsMemMapUpdate then memMapFixups k e.vaddr s.cpu.msr (emulated s e)
  else emulated s e

section

variable {k : Kernel} {bail : BailOut} {s t : EmuState} {e : Trap}

theorem sigillStep_eq_some :
    sigillStep k bail s e = some t ↔ s.fatalError = false ∧ t = handled k s e := by
  unfold sigillStep sigillHandler
  cases hf : s.fatalError with
  | true => simp
  | false =>
    rw [if_neg Bool.false_ne_true, Option.map_some, sigillFinish_fst]
    simp only [Option.some.injEq, true_and]
    exact eq_comm

lemma handled_of_flag (hflag : (emulated s e).needsMemMapUpdate = true) :
    handled k s e = memMapFixups k e.vaddr s.cpu.msr (emulated s e) := by
  rw [handled, if_pos hflag]

lemma handled_of_not_flag (hflag : (emulated s e).needsMemMapUpdate = false) :
    handled k s e = emulated s e := by
  rw [handled, if_neg (by simp [hflag])]

end

/-- The part of the state that the mappings depend on, and the mappings. -/
structure SameMap (s t : EmuState) : Prop where
  bats : SameBats s.cpu t.cpu
  maxBAT : t.maxBAT = s.maxBAT
  consoleType : t.consoleType = s.consoleType
  size : t.mem.size = s.mem.size
  host : t.host = s.host

namespace SameMap

variable {s t : EmuState}

theorem batOf (h : SameMap s t) (e : BatRef) : t.batOf e = s.batOf e := by
  obtain ⟨hiu,hil,hdu,hdl⟩ := h.bats
  simp only [EmuState.batOf, EmuState.bat, hiu, hil, hdu, hdl]

theorem ramOf (h : SameMap s t) (e : BatRef) : t.ramOf e = s.ramOf e := by
  simp only [EmuState.ramOf, h.batOf, h.consoleType]

theorem trans {u : EmuState} (h : SameMap s t) (h' : SameMap t u) : SameMap s u where
  bats := ⟨h'.bats.ibatu.trans h.bats.ibatu,h'.bats.ibatl.trans h.bats.ibatl,
    h'.bats.dbatu.trans h.bats.dbatu,h'.bats.dbatl.trans h.bats.dbatl⟩
  maxBAT := h'.maxBAT.trans h.maxBAT
  consoleType := h'.consoleType.trans h.consoleType
  size := h'.size.trans h.size
  host := h'.host.trans h.host

end SameMap

/-- An instruction that does not raise the flag leaves the map and its inputs alone. -/
theorem emulated_sameMap {s : EmuState} {e : Trap}
    (h : (emulated s e).needsMemMapUpdate = false) : SameMap s (emulated s e) := by
  have hstep := emulate_cpuStep (decodeIllegal e.val) s e.ctx
  exact ⟨emulate_sameBats _ _ _ h,hstep.maxBAT,hstep.consoleType,
    congrArg MemState.size hstep.mem,hstep.host⟩

/-- The initialisers behind `E_MemInit` touch neither the map nor the two flags of the MSR. -/
structure InitStep (s t : EmuState) : Prop where
  map : SameMap s t
  msr : t.cpu.msr = s.cpu.msr
  flag : t.needsMemMapUpdate = s.needsMemMapUpdate
  fatal : s.fatalError = true → t.fatalError = true

namespace InitStep

variable {s t u : EmuState}

theorem trans (h : InitStep s t) (h' : InitStep t u) : InitStep s u :=
  ⟨h.map.trans h'.map,h'.msr.trans h.msr,h'.flag.trans h.flag,fun hs => h'.fatal (h.fatal hs)⟩

theorem ok (h : InitStep s t) (hok : t.fatalError = false) : s.fatalError = false := by
  by_contra hf
  rw [h.fatal ((Bool.not_eq_false _).mp hf)] at hok
  contradiction

theorem of_eq (hc : t.cpu = s.cpu) (hb : t.maxBAT = s.maxBAT)
    (ht : t.consoleType = s.consoleType) (hm : t.mem = s.mem) (hh : t.host = s.host)
    (hf : t.needsMemMapUpdate = s.needsMemMapUpdate)
    (hfatal : s.fatalError = true → t.fatalError = true) : InitStep s t :=
  ⟨⟨⟨by rw [hc],by rw [hc],by rw [hc],by rw [hc]⟩,hb,ht,by rw [hm],hh⟩,by rw [hc],hf,hfatal⟩

end InitStep

lemma timerAddHook_initStep (hook : TimerHook) (s : EmuState) :
    InitStep s (timerAddHook hook s) := by
  unfold timerAddHook
  split
  · exact .of_eq rfl rfl rfl rfl rfl rfl (fun _ => rfl)
  · exact .of_eq rfl rfl rfl rfl rfl rfl id

lemma forwardingInit_initStep (env : ForwardEnv) (s : EmuState) :
    InitStep s (forwardingInit env s) := by
  unfold forwardingInit
  dsimp only
  split_ifs
  all_goals first
    | exact .of_eq rfl rfl rfl rfl rfl rfl id
    | exact .of_eq rfl rfl rfl rfl rfl rfl (fun _ => rfl)

theorem chipsetInit_initStep (env : ForwardEnv) (iram : Fin 8192 → Byte) (s : EmuState) :
    InitStep s (chipsetInit env iram s) := by
  have hset : ∀ (s : EmuState) (c : ChipsetState), InitStep s { s with chipset := c } :=
    fun _ _ => .of_eq rfl rfl rfl rfl rfl rfl id
  exact (hset _ _).trans ((timerAddHook_initStep _ _).trans ((hset _ _).trans ((hset _ _).trans
    ((hset _ _).trans ((timerAddHook_initStep _ _).trans ((hset _ _).trans
      (forwardingInit_initStep _ _)))))))

theorem cpuInit_initStep (s : EmuState) : InitStep s (cpuInit s) := by
  refine InitStep.trans (t := { s with cpu := _ }) ?_ (timerAddHook_initStep _ _)
  exact ⟨⟨⟨rfl,rfl,rfl,rfl⟩,rfl,rfl,rfl,rfl⟩,rfl,rfl,id⟩

/-- A boot that reaches the guest: without BS1 the map is the one of `E_MemInit`, with BS1
it is then fixed up for the real mode. -/
theorem boot_eq_some {k : Kernel} {env : BootEnv} {s : EmuState} (h : boot k env = some s) :
    ∃ u, InitStep (memInit k env.vaddr env.mem (bootStart env)).2 u ∧
      (memInit k env.vaddr env.mem (bootStart env)).2.fatalError = false ∧
      s.fatalError = false ∧ InitStep (bootRemap k env u) s := by
  generalize hm : (memInit k env.vaddr env.mem (bootStart env)).2 = m at h ⊢
  have hrest : bootRest k env m = some s := by
    rw [boot, hm] at h
    split at h
    · contradiction
    · exact h
  unfold bootRest at hrest
  dsimp only at hrest
  refine ⟨chipsetInit env.forward env.iram m,chipsetInit_initStep _ _ _,?_⟩
  cases hf : m.fatalError with
  | true =>
    rw [if_pos hf] at hrest
    contradiction
  | false =>
    rw [if_neg (by simp [hf])] at hrest
    split at hrest
    · contradiction
    · split at hrest
      · contradiction
      · split at hrest
        · contradiction
        · rename_i hend
          obtain rfl := Option.some.inj hrest
          exact ⟨rfl,by simpa using hend,cpuInit_initStep (bootRemap k env _)⟩

/-- A GameCube, every call into its host succeeding, with a guest that starts translated. -/
def gcnBoot : BootEnv where
  consoleType := .gamecube
  hostType := .gamecube
  usePhys := false
  timer := true
  mem := ⟨fun _ => 3,fun _ => 0,true⟩
  vaddr := 0xFFFFFFFF#32
  forward := ⟨true,0,0⟩
  iram := fun _ => 0
  handlers := true
  behind := fun _ => none

def gcnMemInit : EmuState := (memInit consoleKernel gcnBoot.vaddr gcnBoot.mem (bootStart gcnBoot)).2

def started (k : Kernel) (env : BootEnv) : EmuState := (boot k env).getD .zero

lemma boot_eq_started {k : Kernel} {env : BootEnv} (h : (boot k env).isSome = true) :
    boot k env = some (started k env) := by
  obtain ⟨s,hs⟩ := Option.isSome_iff_exists.mp h
  rw [started, hs]
  rfl

lemma memInitSucceeds_gcnBoot : MemInitSucceeds consoleKernel gcnBoot := by
  rw [MemInitSucceeds]
  decide

def trapWith (val gpr : Word) : Trap := ⟨val,⟨fun _ => gpr,0,0,0⟩,0xFFFFFFFF#32⟩

/-- `mtspr DBAT2U, r3` -/
def setDbat2u (val : Word) : Trap := trapWith 0x7C7C83A6#32 val

def noBail : BailOut := ⟨0,0,0,0⟩

end DolTools
