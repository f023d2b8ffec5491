import DolTools.Emu.HighBats
import DolTools.Emu.Timer

/-! Alarms while `main` is still at work. The timer runs from its first calls on, and nothing
holds the alarms back. It need not: until the guest has written to the DSP or the decrementer, an
alarm finds nothing to do, so that the state at the entry does not depend on when they come. -/
namespace DolTools

/-- The steps of `main` between the start of the timer and the entry of the guest. -/
inductive Stage
  | setMsr
  | memInit
  | checkFatal
  | viInit
  | piInit
  | miInit
  | dspInit
  | aiInit
  | forwardingInit
  | handlers
  | remap
  | cpuInit
  deriving DecidableEq, Repr

/-- What `main` does there; `none` where it exits. -/
def Stage.run (k : Kernel) (env : BootEnv) (s : EmuState) : Stage → Option EmuState
  | setMsr =>
    some { s with cpu := { s.cpu with msr := if env.usePhys then 0 else msrIr ||| msrDr } }
  | memInit => some (DolTools.memInit k env.vaddr env.mem s).2
  | checkFatal => if s.fatalError then none else some s
  | viInit => some (timerAddHook .vi { s with chipset := s.chipset.set .vi ⟨0⟩ })
  | piInit => some { s with chipset := s.chipset.set .pi ⟨0,0,0,0,0⟩ }
  | miInit => some { s with chipset := s.chipset.set .mi ⟨0,0,0⟩ }
  | dspInit =>
    some (timerAddHook .dsp { s with chipset := s.chipset.set .dsp (DolTools.dspInit env.iram) })
  | aiInit => some { s with chipset := s.chipset.set .ai ⟨0⟩ }
  | forwardingInit => some (DolTools.forwardingInit env.forward s)
  | handlers => if !env.handlers then none else some s
  | remap => some (bootRemap k env s)
  | cpuInit => some (DolTools.cpuInit s)

/-- `main`, `E_MMIO_Chipset_Init` with its calls included. -/
def mainStages : List Stage :=
  [.setMsr, .memInit, .checkFatal, .viInit, .piInit, .miInit, .dspInit, .aiInit, .forwardingInit,
    .checkFatal, .handlers, .remap, .cpuInit, .checkFatal]

/-- The state behind `E_Timer_Init`. -/
def timerStart (env : BootEnv) : EmuState :=
  timerInit env.timer { EmuState.zero with
    consoleType := env.consoleType
    hostType := env.hostType }

/-- A step of `main`, or an alarm with the memory that its hooks find. -/
inductive MainEvent
  | stage (stage : Stage)
  | alarm (mem : ProcessMem)

namespace MainEvent

def stage? : MainEvent → Option Stage
  | stage st => some st
  | alarm _ => none

def run (k : Kernel) (env : BootEnv) (s : EmuState) : MainEvent → Option EmuState
  | stage st => st.run k env s
  | alarm mem => if alarmFaults mem s then none else some (sigalrmHandler mem s)

end MainEvent

/-- There is nothing for the hooks to do. -/
structure HooksIdle (s : EmuState) : Prop where
  timer : s.chipset.dsp.privResetTimer = 0
  size : s.chipset.dsp.dmaSize = 0#32
  decrementer : s.cpu.decrementer = 0#32

section

variable {k : Kernel} {env : BootEnv} {s t : EmuState} {mem : ProcessMem}

lemma HooksIdle.congr (h : HooksIdle s) (hdsp : t.chipset.dsp = s.chipset.dsp)
    (hdec : t.cpu.decrementer = s.cpu.decrementer) : HooksIdle t := by
  obtain ⟨htimer,hsize,hzero⟩ := h
  rw [← hdsp] at htimer hsize
  exact ⟨htimer,hsize,hdec.trans hzero⟩

lemma HooksIdle.call (h : HooksIdle s) (hook : TimerHook) : hook.call mem s = s := by
  cases hook with
  | vi => rfl
  | dsp =>
    have htick : dspTick ⟨s.chipset.dsp,s.fatalError⟩ (hookEnv mem s) =
        ⟨s.chipset.dsp,s.fatalError⟩ := by
      simp [dspTick, dspTimerHook, dspMoveBlock, h.timer, h.size]
    change dspHook mem s = s
    rw [dspHook, htick]
  | dec =>
    change decHook s = s
    have hzero : (decHook s).cpu.decrementer = s.cpu.decrementer := by
      apply BitVec.eq_of_toNat_eq
      rw [decHook_decrementer, h.decrementer]
      exact Nat.zero_sub _
    have hset : ∀ d, d = s.cpu.decrementer →
        { s with cpu := { s.cpu with decrementer := d } } = s := by
      rintro _ rfl
      rfl
    unfold decHook at hzero ⊢
    split_ifs at hzero ⊢
    · exact hset _ hzero
    · exact hset _ hzero

lemma HooksIdle.not_faults (h : HooksIdle s) (hook : TimerHook) : ¬ hook.Faults mem s := by
  cases hook with
  | vi | dec => exact id
  | dsp =>
    rintro ⟨⟨htwo,-⟩,-⟩
    rw [h.timer] at htwo
    contradiction

theorem HooksIdle.alarm (h : HooksIdle s) (hooks : List TimerHook) :
    callHooks mem hooks s = (s,false) := by
  induction hooks with
  | nil => rfl
  | cons hook hooks ih => rw [callHooks, if_neg (h.not_faults hook), h.call hook, ih]

/-- `main` is its steps. -/
theorem boot_eq_stages : boot k env = if env.hostType = .other then none else
    mainStages.foldlM (Stage.run k env) (timerStart env) := by
  have hstart : { timerStart env with cpu := { (timerStart env).cpu with
      msr := if env.usePhys then 0 else msrIr ||| msrDr } } = bootStart env := rfl
  have hif : ∀ (c : Prop) [Decidable c] (s : EmuState) (f : EmuState → Option EmuState),
      (if c then none else some s).bind f = if c then none else f s := by
    intro c _ s f
    split_ifs <;> rfl
  simp only [mainStages, List.foldlM_cons, List.foldlM_nil, Option.bind_eq_bind, Stage.run,
    Option.bind_some, hif, hstart]
  rfl

lemma timerAddHook_hooksIdle {hook : TimerHook} (h : HooksIdle s) :
    HooksIdle (timerAddHook hook s) :=
  h.congr (by rw [timerAddHook_chipset]) (by rw [timerAddHook_cpu])

lemma memRegions_decrementer (mem : MemInitEnv) (s : EmuState) :
    (memRegions mem s).2.cpu.decrementer = s.cpu.decrementer := by
  unfold memRegions
  split
  · unfold gcnRegions
    dsimp only
    split_ifs <;> rfl
  · unfold wiiRegions
    dsimp only
    split_ifs <;> rfl
  · rfl

lemma forwardingInit_cpu (fwd : ForwardEnv) (s : EmuState) :
    (forwardingInit fwd s).cpu = s.cpu := by
  unfold forwardingInit
  dsimp only
  split_ifs <;> rfl

/-- No step of `main` gives the hooks anything to do. -/
theorem Stage.run_hooksIdle {st : Stage} (h : HooksIdle s) (hrun : st.run k env s = some t) :
    HooksIdle t := by
  cases st with
  | setMsr =>
    obtain rfl := Option.some.inj hrun
    exact h.congr rfl rfl
  | memInit =>
    obtain rfl := Option.some.inj hrun
    have hkept := memRegions_devicesKept env.mem s
    refine h.congr ?_ ?_
    · rw [memInit_eq]
      split
      · rw [hkept.chipset]
      · exact congrArg ChipsetState.dsp (memMapFixups_devicesKept.chipset.trans hkept.chipset)
    · rw [memInit_cpu, memRegions_decrementer]
  | checkFatal =>
    rw [Stage.run] at hrun
    split_ifs at hrun
    obtain rfl := Option.some.inj hrun
    exact h
  | viInit =>
    obtain rfl := Option.some.inj hrun
    exact timerAddHook_hooksIdle (h.congr rfl rfl)
  | dspInit =>
    obtain rfl := Option.some.inj hrun
    exact timerAddHook_hooksIdle ⟨rfl,rfl,h.decrementer⟩
  | forwardingInit =>
    obtain rfl := Option.some.inj hrun
    refine h.congr (congrArg ChipsetState.dsp (forwardingInit_chipset _ _)) ?_
    exact congrArg CpuState.decrementer (forwardingInit_cpu _ _)
  | handlers =>
    rw [Stage.run] at hrun
    split_ifs at hrun
    obtain rfl := Option.some.inj hrun
    exact h
  | remap =>
    obtain rfl := Option.some.inj hrun
    refine h.congr (congrArg ChipsetState.dsp (bootRemap_devicesKept k env s).chipset) ?_
    unfold bootRemap
    split
    · rw [memMapFixups_cpu]
    · rfl
  | cpuInit =>
    obtain rfl := Option.some.inj hrun
    exact timerAddHook_hooksIdle (h.congr rfl rfl)
  | _ =>
    obtain rfl := Option.some.inj hrun
    exact h.congr rfl rfl

/-- However alarms come between the steps, the steps do what they do alone. -/
lemma foldlM_events {es : List MainEvent} (h : HooksIdle s) :
    es.foldlM (MainEvent.run k env) s =
      (es.filterMap MainEvent.stage?).foldlM (Stage.run k env) s := by
  induction es generalizing s with
  | nil => rfl
  | cons e es ih =>
    cases e with
    | alarm mem =>
      rw [List.foldlM_cons, MainEvent.run, alarmFaults, sigalrmHandler, h.alarm]
      exact ih h
    | stage st =>
      rw [List.foldlM_cons]
      change ((st.run k env s).bind _) = ((st.run k env s).bind _)
      cases hrun : st.run k env s with
      | none => rfl
      | some t => exact ih (st.run_hooksIdle h hrun)

end

/-- The timer is started before `main` has set up anything, and alarms may come between any two
of its steps, any number of them: `main` ends where it ends without them, and the guest finds
the same state. -/
theorem boot_of_alarms (k : Kernel) (env : BootEnv) (es : List MainEvent)
    (hstages : es.filterMap MainEvent.stage? = mainStages) (hhost : env.hostType ≠ .other) :
    es.foldlM (MainEvent.run k env) (timerStart env) = boot k env := by
  have hidle : HooksIdle (timerStart env) := by
    unfold timerStart timerInit
    cases env.timer <;> exact ⟨rfl,rfl,rfl⟩
  rw [foldlM_events hidle, hstages, boot_eq_stages, if_neg hhost]

/-- A GameCube, with an alarm behind each step. -/
theorem boot_of_alarms_each :
    (mainStages.flatMap (fun st => [.stage st, .alarm ⟨fun _ _ => 0,fun _ => none⟩])).foldlM
      (MainEvent.run consoleKernel gcnBoot) (timerStart gcnBoot) = boot consoleKernel gcnBoot :=
  boot_of_alarms consoleKernel gcnBoot _ rfl (by decide)

end DolTools
