import DolTools.Cpu.Msr
import DolTools.Emu.Loader
import DolTools.Mmio.DspIram

/-! The timer: the table of hooks, and the handler of the alarm that calls them one after the
other. A tick changes the DSP, the decrementer and the error flag, and nothing else; a hook whose
copy faults is the last one. -/
namespace DolTools

/-- `E_MMIO_VI_TimerHook`, which has no body yet. -/
def viTimerHook (s : EmuState) : EmuState := s

/-- The memory of the process at an alarm: the bytes of the RAMs, and what the process has where
it maps neither, its own code and data and the library's; `none` is a fault that
`E_SIGSEGV_Handler` ends in an error. -/
structure ProcessMem where
  ram : RamBytes
  other : Word → Option Byte

/-- A load of the process: the byte of a RAM where the map shows one. -/
def ProcessMem.read (mem : ProcessMem) (space : AddressMap Backing) (addr : Word) : Option Byte :=
  match space addr.toNat with
  | some x => some (mem.ram x.ram x.offset)
  | none => mem.other addr

/-- What the hook of the DSP finds outside of its registers: the data BATs as they are, and
memory as the host maps it. -/
def hookEnv (mem : ProcessMem) (s : EmuState) : HookEnv := ⟨memPhysToVirt s,mem.read s.host.space⟩

/-- `E_MMIO_DSP_TimerHook` on the whole state. -/
def dspHook (mem : ProcessMem) (s : EmuState) : EmuState :=
  let d := dspTick ⟨s.chipset.dsp,s.fatalError⟩ (hookEnv mem s)
  { s with chipset := { s.chipset with dsp := d.regs }, fatalError := d.fatalError }

def TimerHook.call (mem : ProcessMem) (s : EmuState) : TimerHook → EmuState
  | .vi => viTimerHook s
  | .dsp => dspHook mem s
  | .dec => decHook s

/-- The hook does not come back: its copy faults, and the process ends in the bail-out. -/
def TimerHook.Faults (mem : ProcessMem) (s : EmuState) : TimerHook → Prop
  | .dsp => SeedFaults s.chipset.dsp (hookEnv mem s)
  | .vi | .dec => False

instance (mem : ProcessMem) (s : EmuState) (hook : TimerHook) : Decidable (hook.Faults mem s) :=
  match hook with
  | .dsp => inferInstanceAs (Decidable (SeedFaults _ _))
  | .vi | .dec => inferInstanceAs (Decidable False)

/-- The hooks one after the other up to one that does not come back, and whether there is one. -/
def callHooks (mem : ProcessMem) : List TimerHook → EmuState → EmuState × Bool
  | [], s => (s,false)
  | hook::hooks, s =>
    if hook.Faults mem s then (hook.call mem s,true) else callHooks mem hooks (hook.call mem s)

/-- The state that `E_SIGALRM_Handler` leaves, also where it does not come back. -/
def sigalrmHandler (mem : ProcessMem) (s : EmuState) : EmuState := (callHooks mem s.timersHooks s).1

def alarmFaults (mem : ProcessMem) (s : EmuState) : Bool := (callHooks mem s.timersHooks s).2

/-- The second state is the first but for the DSP, the decrementer and a new error. -/
structure TickStep (s t : EmuState) : Prop where
  rest : t = { s with
    chipset := { s.chipset with dsp := t.chipset.dsp }
    cpu := { s.cpu with decrementer := t.cpu.decrementer }
    fatalError := t.fatalError }
  fatal : s.fatalError = true → t.fatalError = true

namespace TickStep

variable {s t u : EmuState}

theorem refl (s : EmuState) : TickStep s s := ⟨rfl,id⟩

theorem trans (h : TickStep s t) (h' : TickStep t u) : TickStep s u where
  rest := by
    rw [h'.rest, h.rest]
  fatal hs := h'.fatal (h.fatal hs)

end TickStep

section

variable {mem : ProcessMem} {s t : EmuState}

/-- The decrementer stops at zero. -/
lemma decHook_decrementer (s : EmuState) : (decHook s).cpu.decrementer.toNat =
    s.cpu.decrementer.toNat - (decTicks s.consoleType).toNat := by
  unfold decHook
  split
  · rename_i hlt
    rw [BitVec.lt_def] at hlt
    change 0 = _
    omega
  · rename_i hge
    rw [BitVec.lt_def, not_lt] at hge
    exact BitVec.toNat_sub_of_le hge

lemma call_tickStep (hook : TimerHook) : TickStep s (hook.call mem s) := by
  cases hook with
  | vi => exact .refl s
  | dsp => exact ⟨rfl,fun hs => dspTick_fatal hs _⟩
  | dec =>
    simp only [TimerHook.call, decHook]
    split <;> exact ⟨rfl,id⟩

lemma callHooks_tickStep (hooks : List TimerHook) (s : EmuState) :
    TickStep s (callHooks mem hooks s).1 := by
  induction hooks generalizing s with
  | nil => exact .refl s
  | cons hook hooks ih =>
    rw [callHooks]
    split_ifs
    · exact call_tickStep hook
    · exact (call_tickStep hook).trans (ih _)

theorem sigalrmHandler_tickStep : TickStep s (sigalrmHandler mem s) := callHooks_tickStep _ s

/-- A process with memory everywhere can load from everywhere. -/
lemma ProcessMem.read_isSome (h : ∀ addr, (mem.other addr).isSome = true)
    (space : AddressMap Backing) (addr : Word) : (mem.read space addr).isSome = true := by
  unfold read
  split
  · rfl
  · exact h addr

lemma alarmFaults_of_readable (h : ∀ addr, (mem.other addr).isSome = true) (s : EmuState) :
    alarmFaults mem s = false := by
  have hcalls : ∀ hooks s, (callHooks mem hooks s).2 = false := by
    intro hooks
    induction hooks with
    | nil => exact fun _ => rfl
    | cons hook hooks ih =>
      intro s
      rw [callHooks, if_neg]
      · exact ih _
      · cases hook with
        | vi | dec => exact id
        | dsp =>
          rintro ⟨-,-,i,-,hnone⟩
          have hsome : ((hookEnv mem s).seedByte i).isSome = true := mem.read_isSome h _ _
          rw [hnone] at hsome
          contradiction
  exact hcalls _ s

/-! The table of hooks. -/

lemma timerAddHook_table (hook : TimerHook) (s : EmuState) : (timerAddHook hook s).timersHooks =
    (s.timersHooks ++ [hook]).take (max maxHooks s.timersHooks.length) := by
  unfold timerAddHook
  split
  · rename_i hfull
    rw [max_eq_right hfull, List.take_append_of_le_length le_rfl, List.take_length]
    rfl
  · rename_i hroom
    rw [List.take_of_length_le]
    rw [List.length_append, List.length_singleton]
    omega

end

/-- The hooks that `main` registers. -/
def bootHooks : List TimerHook := [.vi,.dsp,.dec]

section

variable {mem : ProcessMem} {k : Kernel} {env : BootEnv} {s : EmuState}

/-- With these hooks a tick is one call of the hook of the DSP, and one of the decrementer's unless
the first does not come back. -/
lemma callHooks_ready (mem : ProcessMem) (s : EmuState) : callHooks mem bootHooks s =
    if SeedFaults s.chipset.dsp (hookEnv mem s) then (dspHook mem s,true)
    else (decHook (dspHook mem s),false) := rfl

lemma alarmFaults_ready (h : s.timersHooks = bootHooks) :
    alarmFaults mem s = true ↔ SeedFaults s.chipset.dsp (hookEnv mem s) := by
  rw [alarmFaults, h, callHooks_ready]
  split_ifs with hfaults
  · exact ⟨fun _ => hfaults,fun _ => rfl⟩
  · exact ⟨fun htrue => absurd htrue (by decide),fun hf => absurd hf hfaults⟩

lemma sigalrmHandler_ready (h : s.timersHooks = bootHooks) (hback : alarmFaults mem s = false) :
    sigalrmHandler mem s = decHook (dspHook mem s) := by
  have hno : ¬ SeedFaults s.chipset.dsp (hookEnv mem s) := by
    rw [← alarmFaults_ready h, hback]
    decide
  rw [sigalrmHandler, h, callHooks_ready, if_neg hno]

lemma decHook_fatal (s : EmuState) : (decHook s).fatalError = s.fatalError := by
  unfold decHook
  split_ifs <;> rfl

/-- The error flag is the business of the hook of the DSP, whether it comes back or not. -/
lemma sigalrmHandler_flag (h : s.timersHooks = bootHooks) :
    (sigalrmHandler mem s).fatalError = (dspHook mem s).fatalError := by
  rw [sigalrmHandler, h, callHooks_ready]
  split_ifs
  · rfl
  · exact decHook_fatal _

lemma forwardingInit_hooks (fwd : ForwardEnv) (s : EmuState) :
    (forwardingInit fwd s).timersHooks = s.timersHooks := by
  unfold forwardingInit
  dsimp only
  split_ifs <;> rfl

lemma bootStart_hooks (env : BootEnv) : (bootStart env).timersHooks = [] := by
  unfold bootStart timerInit
  cases env.timer <;> rfl

lemma bootRemap_devicesKept (k : Kernel) (env : BootEnv) (s : EmuState) :
    DevicesKept s (bootRemap k env s) := by
  unfold bootRemap
  split
  · exact DevicesKept.trans (t := { s with cpu := { s.cpu with msr := 0 } }) ⟨rfl,rfl,rfl,rfl⟩
      memMapFixups_devicesKept
  · exact .refl s

/-- `main` enters the guest with its three hooks in the table. -/
theorem boot_hooks (h : boot k env = some s) : s.timersHooks = bootHooks := by
  have hinit := (memInit_devicesKept k env).timersHooks.trans (bootStart_hooks env)
  rw [boot] at h
  split at h
  · contradiction
  · unfold bootRest at h
    dsimp only at h
    split_ifs at h
    obtain rfl := Option.some.inj h
    have hchip : (chipsetInit env.forward env.iram
        (memInit k env.vaddr env.mem (bootStart env)).2).timersHooks = [.vi,.dsp] := by
      rw [chipsetInit, forwardingInit_hooks]
      simp [timerAddHook, hinit, maxHooks]
    have hremap := (bootRemap_devicesKept k env (chipsetInit env.forward env.iram
        (memInit k env.vaddr env.mem (bootStart env)).2)).timersHooks.trans hchip
    rw [cpuInit, timerAddHook_table]
    change List.take (max maxHooks (bootRemap k env _).timersHooks.length)
      ((bootRemap k env _).timersHooks ++ [.dec]) = _
    rw [hremap]
    rfl

lemma forwardingInit_chipset (fwd : ForwardEnv) (s : EmuState) :
    (forwardingInit fwd s).chipset = s.chipset := by
  unfold forwardingInit
  dsimp only
  split_ifs <;> rfl

lemma timerAddHook_chipset (hook : TimerHook) (s : EmuState) :
    (timerAddHook hook s).chipset = s.chipset := by
  unfold timerAddHook
  split <;> rfl

/-- `main` enters the guest with the registers of every block as their initialisers set them. -/
theorem boot_chipset (h : boot k env = some s) :
    s.chipset = ⟨⟨0⟩,⟨0,0,0,0,0⟩,⟨0,0,0⟩,dspInit env.iram,⟨0⟩⟩ := by
  rw [boot] at h
  split at h
  · contradiction
  · unfold bootRest at h
    dsimp only at h
    split_ifs at h
    obtain rfl := Option.some.inj h
    rw [cpuInit, timerAddHook_chipset]
    change (bootRemap k env (chipsetInit env.forward env.iram _)).chipset = _
    rw [(bootRemap_devicesKept k env _).chipset, chipsetInit, forwardingInit_chipset]
    simp only [timerAddHook_chipset, ChipsetState.set]

end

end DolTools
