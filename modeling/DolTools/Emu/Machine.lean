import DolTools.Emu.AccessWidth
import DolTools.Emu.ChipsetCalls
import DolTools.Emu.Core
import DolTools.Emu.ForwardWindows
import DolTools.Emu.SigillFrame
import DolTools.Library.Views

/-! The emulator under all its signals: illegal instructions, faulting accesses and alarms of the
timer, in any order. Every handler that comes back is one step on the shared state; an alarm that
arrives inside another handler is left out. What the handlers do not share they do not disturb. -/
namespace DolTools
open Runs Views

/-- A fault of the guest: the instruction, the context it faults in, and what the locals of the
handler would hold. -/
structure Fault where
  uninit : SegvUninit
  instr : Word
  ctx : Context

/-- The access that the handler makes. With an access type it does not know it makes none, and
does not look at the instruction. -/
def Fault.call (f : Fault) (s : EmuState) : Option ChipsetCall :=
  if f.ctx.isRead || f.ctx.isWrite then handlerCall f.uninit f.instr s f.ctx else none

/-- The signals that `main` and `E_Timer_Init` install handlers for; of an alarm, the memory that
its hooks find. -/
inductive Signal
  | sigill (e : Trap)
  | sigsegv (f : Fault)
  | sigalrm (mem : ProcessMem)

namespace Signal

def trap : Signal → Option Trap
  | sigill e => some e
  | _ => none

def isTick : Signal → Bool
  | sigalrm _ => true
  | _ => false

/-- The signals that are still handled after an error. -/
def HandledAfterError : Signal → Prop
  | sigill _ => False
  | sigsegv f => f.ctx.isRead = false ∧ f.ctx.isWrite = false
  | sigalrm _ => True

/-- An alarm that does not come back from the state. -/
def Faults (s : EmuState) : Signal → Prop
  | sigalrm mem => alarmFaults mem s = true
  | _ => False

end Signal

def ticksOf (es : List Signal) : ℕ := es.countP Signal.isTick

/-- `E_SIGSEGV_Handler` as a step on the emulator state. -/
def sigsegvStep (hw : Hardware) (bail : BailOut) (s : EmuState) (f : Fault) : Option EmuState :=
  (sigsegvHandler hw bail f.uninit f.instr s f.ctx).map (fun o => o.s)

/-- One signal; `none` where the handler exits, or does not come back. -/
def machineStep (k : Kernel) (hw : Hardware) (bail : BailOut) (s : EmuState) :
    Signal → Option EmuState
  | .sigill e => sigillStep k bail s e
  | .sigsegv f => sigsegvStep hw bail s f
  | .sigalrm mem => if alarmFaults mem s then none else some (sigalrmHandler mem s)

/-- The context that the handler of a signal of the guest returns into. -/
def Signal.resumes (k : Kernel) (hw : Hardware) (bail : BailOut) (s : EmuState) :
    Signal → Option Context
  | .sigill e => (sigillHandler k e.vaddr bail e.val s e.ctx).map (fun r => r.2)
  | .sigsegv f => (sigsegvHandler hw bail f.uninit f.instr s f.ctx).map (fun o => o.ctx)
  | .sigalrm _ => none

/-- The state without what several handlers work on. -/
def EmuState.core (s : EmuState) : EmuState :=
  { s.put EmuState.zero.outside with fatalError := false }

/-- The second state is the first but for the chipset, the log of forwarded accesses and a new
error. -/
structure FaultStep (s t : EmuState) : Prop where
  rest : t = { s with
    chipset := t.chipset
    forward := { s.forward with accesses := t.forward.accesses }
    fatalError := t.fatalError }
  fatal : s.fatalError = true → t.fatalError = true

section

variable {k : Kernel} {hw : Hardware} {bail : BailOut} {s t u : EmuState} {f : Fault}
  {c : ChipsetCall}

lemma core_eq_iff : t.core = s.core ↔ t = { s.put t.outside with fatalError := t.fatalError } := by
  constructor
  · intro h
    have hput := congrArg (fun u : EmuState => { u.put t.outside with fatalError := t.fatalError }) h
    exact hput
  · intro h
    rw [h]
    rfl

lemma TickStep.core (h : TickStep s t) : t.core = s.core := by
  rw [h.rest]
  rfl

lemma FaultStep.core (h : FaultStep s t) : t.core = s.core := by
  rw [h.rest]
  rfl

/-! A faulting access. -/

lemma faultStep_fatal (s : EmuState) : FaultStep s s.fatal := ⟨rfl,fun _ => rfl⟩

lemma faultStep_routeRead (route : Route) (addr : Word) (w : ℤ) :
    FaultStep s (routeRead hw route addr w s).s := by
  cases route with
  | block b =>
    refine ⟨rfl,?_⟩
    intro hs
    change (onBlock b (b.read addr w) s).s.fatalError = true
    rw [onBlock_read, hs]
    rfl
  | forwarded =>
    change FaultStep s (forwardedRead hw addr w s).s
    unfold forwardedRead
    split
    · exact faultStep_fatal s
    · dsimp only
      split_ifs <;> exact ⟨rfl,id⟩
  | fatal => exact faultStep_fatal s
  | nothing => exact ⟨rfl,id⟩

lemma faultStep_routeWrite (route : Route) (addr val : Word) (w : ℤ) :
    FaultStep s (routeWrite route addr val w s).s := by
  cases route with
  | block b =>
    refine ⟨rfl,?_⟩
    intro hs
    change (onBlock b (b.write addr val w) s).s.fatalError = true
    rw [onBlock_write, hs]
    rfl
  | forwarded =>
    change FaultStep s (forwardedWrite addr val w s).s
    unfold forwardedWrite
    split
    · exact faultStep_fatal s
    · split_ifs <;> exact ⟨rfl,id⟩
  | fatal => exact faultStep_fatal s
  | nothing => exact ⟨rfl,id⟩

lemma run_read (h : c.written = none) :
    c.run hw s = (routeRead hw c.route c.addr c.accessWidth s).s := by
  cases c with
  | flipperRead | hollywoodRead => rfl
  | flipperWrite | hollywoodWrite => contradiction

lemma run_write {val : Word} (h : c.written = some val) :
    c.run hw s = (routeWrite c.route c.addr val c.accessWidth s).s := by
  cases c with
  | flipperRead | hollywoodRead => contradiction
  | flipperWrite | hollywoodWrite =>
    obtain rfl := Option.some.inj h
    rfl

lemma loaded_read (h : c.written = none) :
    c.loaded hw s = some (routeRead hw c.route c.addr c.accessWidth s).value := by
  cases c with
  | flipperRead | hollywoodRead => rfl
  | flipperWrite | hollywoodWrite => contradiction

theorem faultStep_run (c : ChipsetCall) : FaultStep s (c.run hw s) := by
  cases hc : c.written with
  | none =>
    rw [run_read hc]
    exact faultStep_routeRead _ _ _
  | some val =>
    rw [run_write hc]
    exact faultStep_routeWrite _ _ _ _

/-- What a fault leaves: the access made, or the error flag raised. -/
def faulted (hw : Hardware) (s : EmuState) (f : Fault) : EmuState :=
  (f.call s).elim s.fatal (fun c => c.run hw s)

lemma faultStep_faulted : FaultStep s (faulted hw s f) := by
  unfold faulted
  cases f.call s with
  | none => exact faultStep_fatal s
  | some c => exact faultStep_run c

theorem sigsegvStep_eq_some : sigsegvStep hw bail s f = some t ↔
    ((f.ctx.isRead || f.ctx.isWrite) = true → s.fatalError = false) ∧ t = faulted hw s f := by
  unfold sigsegvStep faulted Fault.call
  cases hkind : f.ctx.isRead || f.ctx.isWrite with
  | false =>
    have hno : (!f.ctx.isRead && !f.ctx.isWrite) = true := by
      rw [← Bool.not_or, hkind]
      rfl
    have hout : sigsegvHandler hw bail f.uninit f.instr s f.ctx =
        some (segvOut bail f.uninit.locals none s.fatal f.ctx) := if_pos hno
    rw [hout]
    change some s.fatal = some t ↔ _
    rw [Option.some_inj, eq_comm]
    simp
  | true =>
    have hkind' : f.ctx.isRead = true ∨ f.ctx.isWrite = true := by simpa using hkind
    cases hs : s.fatalError with
    | true => simp [sigsegvHandler, known_kind hkind', hs]
    | false =>
      obtain ⟨o,ho⟩ := exists_sigsegvHandler hw bail f.uninit f.instr f.ctx hs
      rw [ho]
      simp only [Option.map_some, Option.some.injEq, if_true, imp_self, true_and]
      have hstate : o.s = (handlerCall f.uninit f.instr s f.ctx).elim s.fatal
          (fun c => c.run hw s) := by
        cases hc : handlerCall f.uninit f.instr s f.ctx with
        | none => exact (sigsegvHandler_of_no_call ho hkind' hc).1
        | some c =>
          obtain ⟨l,-,rfl⟩ := sigsegvHandler_of_call ho hkind' hc
          rfl
      rw [hstate]
      exact eq_comm

/-! Every signal. -/

/-- What a signal does to the state: one of three steps. -/
inductive MachineStep (k : Kernel) (hw : Hardware) (s : EmuState) : Signal → EmuState → Prop
  | sigill (e : Trap) (ok : s.fatalError = false) : MachineStep k hw s (.sigill e) (handled k s e)
  | sigsegv (f : Fault) (ok : (f.ctx.isRead || f.ctx.isWrite) = true → s.fatalError = false) :
    MachineStep k hw s (.sigsegv f) (faulted hw s f)
  | sigalrm (mem : ProcessMem) (back : alarmFaults mem s = false) :
    MachineStep k hw s (.sigalrm mem) (sigalrmHandler mem s)

theorem machineStep_eq_some {e : Signal} :
    machineStep k hw bail s e = some t ↔ MachineStep k hw s e t := by
  cases e with
  | sigill e =>
    constructor
    · intro h
      obtain ⟨hs,rfl⟩ := sigillStep_eq_some.mp h
      exact .sigill e hs
    · rintro ⟨⟩
      exact sigillStep_eq_some.mpr ⟨‹_›,rfl⟩
  | sigsegv f =>
    constructor
    · intro h
      obtain ⟨hs,rfl⟩ := sigsegvStep_eq_some.mp h
      exact .sigsegv f hs
    · rintro ⟨⟩
      exact sigsegvStep_eq_some.mpr ⟨‹_›,rfl⟩
  | sigalrm mem =>
    rw [machineStep]
    constructor
    · intro h
      split_ifs at h with hfaults
      obtain rfl := Option.some.inj h
      exact .sigalrm mem ((Bool.not_eq_true _).mp hfaults)
    · rintro ⟨⟩
      exact if_neg (by simpa using ‹alarmFaults mem s = false›)

/-- No handler takes an error back. -/
lemma MachineStep.fatal {e : Signal} (h : MachineStep k hw s e t) (hs : s.fatalError = true) :
    t.fatalError = true := by
  cases h with
  | sigill e ok =>
    rw [hs] at ok
    contradiction
  | sigsegv f ok => exact faultStep_faulted.fatal hs
  | sigalrm mem back => exact sigalrmHandler_tickStep.fatal hs

/-- What the handlers only read. -/
structure SameSetup (s t : EmuState) : Prop where
  consoleType : t.consoleType = s.consoleType
  hostType : t.hostType = s.hostType
  timersHooks : t.timersHooks = s.timersHooks
  maxBAT : t.maxBAT = s.maxBAT
  size : t.mem.size = s.mem.size
  windows : t.forward.memFlipper = s.forward.memFlipper ∧ t.forward.memHlwd = s.forward.memHlwd

theorem SameSetup.trans (h : SameSetup s t) (h' : SameSetup t u) : SameSetup s u where
  consoleType := h'.consoleType.trans h.consoleType
  hostType := h'.hostType.trans h.hostType
  timersHooks := h'.timersHooks.trans h.timersHooks
  maxBAT := h'.maxBAT.trans h.maxBAT
  size := h'.size.trans h.size
  windows := ⟨h'.windows.1.trans h.windows.1,h'.windows.2.trans h.windows.2⟩

lemma memMapFixups_sameSetup {vaddr oldMsr : Word} :
    SameSetup s (memMapFixups k vaddr oldMsr s) := by
  have hdev : DevicesKept s (memMapFixups k vaddr oldMsr s) := memMapFixups_devicesKept
  have hmap : MapStep (fixupsEntry oldMsr s) (memMapFixups k vaddr oldMsr s) :=
    memMapFixups_mapStep
  exact ⟨hmap.consoleType,hdev.hostType,hdev.timersHooks,hmap.maxBAT,hmap.size,
    congrArg ForwardState.memFlipper hdev.forward,congrArg ForwardState.memHlwd hdev.forward⟩

lemma handled_sameSetup (e : Trap) : SameSetup s (handled k s e) := by
  have hdev : DevicesKept s (emulated s e) := emulate_devicesKept _ s e.ctx
  have hcpu : CpuStep s (emulated s e) := emulate_cpuStep _ s e.ctx
  have hstep : SameSetup s (emulated s e) :=
    ⟨hcpu.consoleType,hdev.hostType,hdev.timersHooks,hcpu.maxBAT,congrArg MemState.size hcpu.mem,
      congrArg ForwardState.memFlipper hdev.forward,congrArg ForwardState.memHlwd hdev.forward⟩
  unfold handled
  split_ifs
  · exact hstep.trans memMapFixups_sameSetup
  · exact hstep

theorem MachineStep.sameSetup {e : Signal} (h : MachineStep k hw s e t) : SameSetup s t := by
  cases h with
  | sigill e ok => exact handled_sameSetup e
  | sigsegv f ok =>
    rw [faultStep_faulted.rest]
    exact ⟨rfl,rfl,rfl,rfl,rfl,rfl,rfl⟩
  | sigalrm mem back =>
    rw [sigalrmHandler_tickStep.rest]
    exact ⟨rfl,rfl,rfl,rfl,rfl,rfl,rfl⟩

/-- No handler changes the set-up that `main` made. -/
theorem sameSetup_of_run {es : List Signal}
    (hrun : Run (machineStep k hw bail) (fun _ _ => True) s es t) : SameSetup s t := by
  apply hrun.invariant
  · exact ⟨rfl,rfl,rfl,rfl,rfl,rfl,rfl⟩
  · intro s' e t' hs' _ hnext
    exact hs'.trans (machineStep_eq_some.mp hnext).sameSetup

/-- The two states differ in what several handlers work on, and the second has no error that
the first has not. -/
structure CoreOf (t u : EmuState) : Prop where
  core : u.core = t.core
  fatal : u.fatalError = true → t.fatalError = true

/-- A whole run is a run of its illegal instructions, as far as they can tell. -/
theorem machine_traps (k : Kernel) (hw : Hardware) (bail : BailOut) :
    Simulation (machineStep k hw bail) (fun _ _ => True) (sigillStep k bail) Signal.trap CoreOf where
  matched := by
    intro s u e e' t h _ he hnext
    cases machineStep_eq_some.mp hnext with
    | sigill e ok =>
      obtain rfl := Option.some.inj he
      have hu : u.fatalError = false := by
        by_contra hu
        rw [h.fatal (by simpa using hu)] at ok
        contradiction
      have hput : u = s.put u.outside := by
        have hrest := core_eq_iff.mp h.core
        rw [hu, ← ok] at hrest
        exact hrest
      refine ⟨handled k u e,sigillStep_eq_some.mpr ⟨hu,rfl⟩,?_⟩
      rw [hput, handled_put]
      exact ⟨rfl,id⟩
    | sigsegv | sigalrm => contradiction
  unseen := by
    intro s u e t h _ he hnext
    have hstep := machineStep_eq_some.mp hnext
    refine ⟨?_,fun hu => hstep.fatal (h.fatal hu)⟩
    cases hstep with
    | sigill => contradiction
    | sigsegv f ok => rw [h.core, faultStep_faulted.core]
    | sigalrm mem back => rw [h.core, sigalrmHandler_tickStep.core]

lemma trapRun {es : List Signal} (hrun : Run (machineStep k hw bail) (fun _ _ => True) s es t) :
    ∃ u, Run (sigillStep k bail) (fun _ _ => True) s (es.filterMap Signal.trap) u ∧ CoreOf t u :=
  (machine_traps k hw bail).run hrun ⟨rfl,id⟩

/-- However faults and alarms come between them, the illegal instructions of a run do to the rest
of the state what they do alone. -/
theorem core_of_run {es : List Signal}
    (hrun : Run (machineStep k hw bail) (fun _ _ => True) s es t) :
    ∃ u, Run (sigillStep k bail) (fun _ _ => True) s (es.filterMap Signal.trap) u ∧
      t = { u with
        chipset := t.chipset
        forward := t.forward
        cpu := { u.cpu with decrementer := t.cpu.decrementer }
        fatalError := t.fatalError } ∧
      (t.fatalError = false → u.fatalError = false) := by
  obtain ⟨u,hu,hcore⟩ := trapRun hrun
  refine ⟨u,hu,core_eq_iff.mp hcore.core.symm,?_⟩
  intro ht
  by_contra hne
  rw [hcore.fatal (by simpa using hne)] at ht
  contradiction

end

/-! A run on a GameCube: the guest maps MEM1 once more and resets the DSP in boot mode, and an
alarm comes. -/

/-- MEM1 at 0x90000000. -/
def setDbat2 : Trap := setDbat2u 0x90001FFF#32

/-- `sth` of 0x801 to CSR. -/
def resetDsp : Fault :=
  ⟨⟨7,0,0⟩,0xB0640000#32,⟨fun _ => 0x801#32,0,0xCC00500A#32,0x42000000#32⟩⟩

/-- A process that finds zeros wherever it loads from. -/
def zeroMem : ProcessMem := ⟨fun _ _ => 0,fun _ => some 0⟩

lemma alarmFaults_zeroMem (s : EmuState) : alarmFaults zeroMem s = false :=
  alarmFaults_of_readable (fun _ => rfl) s

def trialReset : EmuState :=
  faulted zeroHardware (handled consoleKernel (started consoleKernel gcnBoot) setDbat2) resetDsp

lemma trialReset_run : Run (machineStep consoleKernel zeroHardware noBail) (fun _ _ => True)
    (started consoleKernel gcnBoot) [.sigill setDbat2, .sigsegv resetDsp] trialReset :=
  (Run.nil.snoc trivial (machineStep_eq_some.mpr (.sigill setDbat2 (by decide)))).snoc trivial
    (machineStep_eq_some.mpr (.sigsegv resetDsp (by decide)))

def trialEnd : EmuState := sigalrmHandler zeroMem trialReset

lemma trialEnd_run : Run (machineStep consoleKernel zeroHardware noBail) (fun _ _ => True)
    (started consoleKernel gcnBoot) [.sigill setDbat2, .sigsegv resetDsp, .sigalrm zeroMem]
    trialEnd :=
  trialReset_run.snoc trivial (machineStep_eq_some.mpr (.sigalrm zeroMem (alarmFaults_zeroMem _)))

/-- What the host maps is the work of the instruction. -/
theorem core_of_run_trial : ∃ u, Run (sigillStep consoleKernel noBail) (fun _ _ => True)
    (started consoleKernel gcnBoot) [setDbat2] u ∧ trialEnd.host = u.host := by
  obtain ⟨u,hu,hrest,-⟩ := core_of_run trialEnd_run
  refine ⟨u,hu,?_⟩
  rw [hrest]

end DolTools
