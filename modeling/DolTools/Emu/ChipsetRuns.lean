import DolTools.Emu.Ticks
import DolTools.Mmio.DspRuns
import DolTools.Mmio.ReadBack

/-! The devices over whole runs of the emulator. The accesses that the faults of a run come to are
a list; replaying its register writes, with the alarms for the DSP, gives every register of every
block, and its forwarded accesses are what has happened to the real hardware. -/
namespace DolTools
open Runs Views

namespace ChipsetCall

/-- The write of a register block that a call comes to. -/
def blockWrite (c : ChipsetCall) : Option BlockWrite :=
  match c.route, c.written with
  | .block b, some val => some ⟨b,c.addr,val,c.accessWidth⟩
  | _, _ => none

/-- The access of the real hardware that a call comes to. -/
def forwarded (s : EmuState) (c : ChipsetCall) : Option ForwardAccess :=
  match c.route with
  | .forwarded =>
    let ptr := s.forward.ptr c.window + (c.addr - c.window.base)
    match c.written with
    | none => if IsAccessWidth c.accessWidth then some (.read ptr c.accessWidth) else none
    | some val => (cutToWidth val c.accessWidth).map (fun val => .write ptr val c.accessWidth)
  | _ => none

end ChipsetCall

def Signal.calls (s : EmuState) : Signal → List ChipsetCall
  | .sigsegv f => (f.call s).toList
  | _ => []

def BlockWrite.dspEvent (op : BlockWrite) : Option DspEvent :=
  if op.block = .dsp then some (.write op.addr op.val op.accessWidth) else none

/-- What a signal does to the DSP. -/
def Signal.dspEvents (s : EmuState) : Signal → List DspEvent
  | .sigill _ => []
  | .sigsegv f =>
    ((f.call s).toList.filterMap ChipsetCall.blockWrite).filterMap BlockWrite.dspEvent
  | .sigalrm mem => [.tick (hookEnv mem s)]

section

variable (k : Kernel) (hw : Hardware) (bail : BailOut) (s : EmuState) (es : List Signal)

/-- The calls of the dispatchers that a run makes. -/
def callsOf : List ChipsetCall := trace (machineStep k hw bail) (fun s e => e.calls s) s es

def dspEventsOf : List DspEvent := trace (machineStep k hw bail) (fun s e => e.dspEvents s) s es

end

section

variable {k : Kernel} {hw : Hardware} {bail : BailOut} {s t u : EmuState} {es : List Signal}

/-! Calls. -/

lemma routeRead_chipset (route : Route) (addr : Word) (w : ℤ) :
    (routeRead hw route addr w s).s.chipset = s.chipset := by
  cases route with
  | block b =>
    change (onBlock b (b.read addr w) s).s.chipset = s.chipset
    rw [onBlock_read]
  | forwarded =>
    change (forwardedRead hw addr w s).s.chipset = s.chipset
    unfold forwardedRead
    split
    · rfl
    · dsimp only
      split_ifs <;> rfl
  | fatal => rfl
  | nothing => rfl

lemma routeWrite_chipset {route : Route} (h : ∀ b, route ≠ .block b) (addr val : Word) (w : ℤ) :
    (routeWrite route addr val w s).s.chipset = s.chipset := by
  cases route with
  | block b => exact absurd rfl (h b)
  | forwarded =>
    change (forwardedWrite addr val w s).s.chipset = s.chipset
    unfold forwardedWrite
    split
    · rfl
    · split_ifs <;> rfl
  | fatal => rfl
  | nothing => rfl

lemma run_chipset (c : ChipsetCall) :
    (c.run hw s).chipset = (blockWrites c.blockWrite.toList s).chipset := by
  unfold ChipsetCall.blockWrite
  cases hc : c.written with
  | none =>
    rw [run_read hc, routeRead_chipset]
    cases c.route <;> rfl
  | some val =>
    rw [run_write hc]
    cases c.route with
    | block b => rfl
    | _ => exact routeWrite_chipset (by simp) _ _ _

lemma faulted_chipset (f : Fault) : (faulted hw s f).chipset =
    (blockWrites ((f.call s).toList.filterMap ChipsetCall.blockWrite) s).chipset := by
  unfold faulted
  cases f.call s with
  | none => rfl
  | some c =>
    refine (run_chipset c).trans ?_
    rw [Option.toList_some, List.filterMap_cons]
    cases c.blockWrite <;> rfl

/-! The register blocks but for the DSP. -/

/-- A write sees of a block nothing but the block. -/
lemma get_blockWrite_congr (h : ∀ b ≠ .dsp, u.chipset.get b = s.chipset.get b) (op : BlockWrite)
    {b : RegisterBlock} (hb : b ≠ .dsp) :
    (blockWrite u op).chipset.get b = (blockWrite s op).chipset.get b := by
  obtain ⟨b',addr,val,w⟩ := op
  unfold blockWrite
  dsimp only
  rw [onBlock_write, onBlock_write]
  by_cases hbb : b = b'
  · subst hbb
    rw [h b hb]
    cases b <;> rfl
  · have hkeep : ∀ (c : ChipsetState) (r : b'.State), (c.set b' r).get b = c.get b := by
      intro c r
      cases b <;> cases b' <;> first | rfl | exact absurd rfl hbb
    dsimp only
    rw [hkeep, hkeep]
    exact h b hb

lemma get_blockWrites_congr (ops : List BlockWrite)
    (h : ∀ b ≠ .dsp, u.chipset.get b = s.chipset.get b) : ∀ b ≠ .dsp,
      (blockWrites ops u).chipset.get b = (blockWrites ops s).chipset.get b := by
  induction ops generalizing s u with
  | nil => exact h
  | cons op ops ih => exact ih (fun b hb => get_blockWrite_congr h op hb)

lemma blockWrites_append (ops ops' : List BlockWrite) (s : EmuState) :
    blockWrites (ops ++ ops') s = blockWrites ops' (blockWrites ops s) := List.foldl_append

lemma machineStep_chipset {e : Signal} (h : MachineStep k hw s e t) {b : RegisterBlock}
    (hb : b ≠ .dsp) : t.chipset.get b =
      (blockWrites ((e.calls s).filterMap ChipsetCall.blockWrite) s).chipset.get b := by
  cases h with
  | sigill e ok =>
    have hdev : (handled k s e).chipset = s.chipset := handled_devicesKept.chipset
    rw [hdev]
    rfl
  | sigsegv f ok =>
    rw [faulted_chipset]
    rfl
  | sigalrm mem back =>
    rw [sigalrmHandler_tickStep.rest]
    cases b with
    | dsp => exact absurd rfl hb
    | _ => rfl

lemma callsOf_snoc (hrun : Run (machineStep k hw bail) (fun _ _ => True) s es t) (e : Signal) :
    callsOf k hw bail s (es ++ [e]) = callsOf k hw bail s es ++ e.calls t := trace_snoc hrun e

lemma blocks_of_run (hrun : Run (machineStep k hw bail) (fun _ _ => True) s es t) :
    ∀ b ≠ .dsp, t.chipset.get b = (blockWrites
      ((callsOf k hw bail s es).filterMap ChipsetCall.blockWrite) s).chipset.get b := by
  induction hrun with
  | nil => exact fun b _ => rfl
  | @snoc es m e t head ok next ih =>
    intro b hb
    rw [callsOf_snoc head, List.filterMap_append, blockWrites_append,
      machineStep_chipset (machineStep_eq_some.mp next) hb]
    exact get_blockWrites_congr _ ih b hb

/-! The DSP. -/

/-- The registers of the DSP behind one event. -/
def dspRegsStep (r : DspState) (e : DspEvent) : DspState := (dspStep ⟨r,false⟩ e).regs

lemma dspStep_flag (d : Device DspState) (e : DspEvent) :
    (dspStep d e).regs = dspRegsStep d.regs e := by
  cases e with
  | write addr val w =>
    change (dspWrite addr val w d).dev.regs = _
    rw [dspWrite_dev]
    rfl
  | tick t =>
    change (dspTick d t).regs = _
    rw [dspTick_flag]
    rfl

lemma blockWrites_dsp (ops : List BlockWrite) (s : EmuState) : (blockWrites ops s).chipset.dsp =
    (ops.filterMap BlockWrite.dspEvent).foldl dspRegsStep s.chipset.dsp := by
  induction ops generalizing s with
  | nil => rfl
  | cons op ops ih =>
    obtain ⟨b,addr,val,w⟩ := op
    refine (ih _).trans ?_
    unfold blockWrite
    rw [onBlock_write, List.filterMap_cons]
    cases b <;> rfl

lemma machineStep_dsp {e : Signal} (h : MachineStep k hw s e t) (hhooks : s.timersHooks = bootHooks) :
    t.chipset.dsp = (e.dspEvents s).foldl dspRegsStep s.chipset.dsp := by
  cases h with
  | sigill e ok =>
    have hdev : (handled k s e).chipset = s.chipset := handled_devicesKept.chipset
    rw [hdev]
    rfl
  | sigsegv f ok =>
    rw [faulted_chipset]
    exact blockWrites_dsp _ s
  | sigalrm mem back =>
    have hdec : ∀ s : EmuState, (decHook s).chipset = s.chipset := by
      intro s
      unfold decHook
      split_ifs <;> rfl
    rw [sigalrmHandler_ready hhooks back, hdec]
    exact dspStep_flag ⟨s.chipset.dsp,s.fatalError⟩ (.tick (hookEnv mem s))

lemma dspRun_regs (d : Device DspState) (es : List DspEvent) :
    (dspRun d es).regs = es.foldl dspRegsStep d.regs :=
  (List.foldl_hom Device.regs (fun d e => (dspStep_flag d e).symm)).symm

lemma dsp_of_run (hhooks : s.timersHooks = bootHooks)
    (hrun : Run (machineStep k hw bail) (fun _ _ => True) s es t) :
    t.chipset.dsp = (dspRun ⟨s.chipset.dsp,false⟩ (dspEventsOf k hw bail s es)).regs := by
  have hready := hrun.with_invariant hhooks (fun s e t hs _ hnext =>
    (machineStep_eq_some.mp hnext).sameSetup.timersHooks.trans hs)
  rw [dspRun_regs]
  exact view_run (fun s : EmuState => s.chipset.dsp) dspRegsStep
    (fun s e t hs hnext => machineStep_dsp (machineStep_eq_some.mp hnext) hs.1) hready

/-- The devices are what their own accesses and alarms have made of them: the blocks but for the
DSP after the register writes of the run alone, in their order, and the DSP after its writes and
the alarms. -/
theorem chipset_of_run (hhooks : s.timersHooks = bootHooks)
    (hrun : Run (machineStep k hw bail) (fun _ _ => True) s es t) :
    (∀ b ≠ .dsp, t.chipset.get b = (blockWrites
      ((callsOf k hw bail s es).filterMap ChipsetCall.blockWrite) s).chipset.get b) ∧
    t.chipset.dsp = (dspRun ⟨s.chipset.dsp,false⟩ (dspEventsOf k hw bail s es)).regs :=
  ⟨blocks_of_run hrun,dsp_of_run hhooks hrun⟩

/-- The reset of the DSP is in its second stage, and has done nothing to the other blocks. -/
theorem chipset_of_run_trial : trialEnd.chipset.dsp.privResetTimer = 1 ∧
    trialEnd.chipset.mi = (started consoleKernel gcnBoot).chipset.mi := by
  have hboot : boot consoleKernel gcnBoot = some (started consoleKernel gcnBoot) :=
    boot_eq_started (by decide)
  obtain ⟨hblocks,hdsp⟩ := chipset_of_run (boot_hooks hboot) trialEnd_run
  refine ⟨?_,(hblocks .mi (by decide)).trans ?_⟩
  · rw [hdsp]
    decide
  · rfl

/-! The real hardware. -/

lemma forwardedRead_accesses {addr ptr : Word} (w : ℤ) (h : forwardPtr addr s = some ptr) :
    (forwardedRead hw addr w s).s.forward.accesses =
      (if IsAccessWidth w then some (ForwardAccess.read ptr w) else none).toList ++
        s.forward.accesses := by
  rw [forwardedRead, h]
  dsimp only
  split_ifs <;> simp_all [IsAccessWidth, logForward]

lemma forwardedWrite_accesses {addr ptr : Word} (val : Word) (w : ℤ)
    (h : forwardPtr addr s = some ptr) : (forwardedWrite addr val w s).s.forward.accesses =
      ((cutToWidth val w).map (fun val => ForwardAccess.write ptr val w)).toList ++
        s.forward.accesses := by
  rw [forwardedWrite, h]
  unfold cutToWidth
  dsimp only
  split_ifs <;> simp_all [logForward]

lemma routeRead_accesses {route : Route} (h : route ≠ .forwarded) (addr : Word) (w : ℤ) :
    (routeRead hw route addr w s).s.forward.accesses = s.forward.accesses := by
  cases route with
  | forwarded => exact absurd rfl h
  | _ => rfl

lemma routeWrite_accesses {route : Route} (h : route ≠ .forwarded) (addr val : Word) (w : ℤ) :
    (routeWrite route addr val w s).s.forward.accesses = s.forward.accesses := by
  cases route with
  | forwarded => exact absurd rfl h
  | _ => rfl

lemma run_accesses (c : ChipsetCall) :
    (c.run hw s).forward.accesses = (c.forwarded s).toList ++ s.forward.accesses := by
  unfold ChipsetCall.forwarded
  cases hroute : c.route with
  | forwarded =>
    have hptr := forwardPtr_window s (route_forwarded hroute)
    cases hc : c.written with
    | none =>
      rw [run_read hc, hroute]
      exact forwardedRead_accesses _ hptr
    | some val =>
      rw [run_write hc, hroute]
      exact forwardedWrite_accesses _ _ hptr
  | _ =>
    have hne : c.route ≠ .forwarded := by simp [hroute]
    cases hc : c.written with
    | none =>
      rw [run_read hc]
      exact routeRead_accesses hne _ _
    | some val =>
      rw [run_write hc]
      exact routeWrite_accesses hne _ _ _

lemma forwarded_congr (h : SameSetup s t) (c : ChipsetCall) : c.forwarded t = c.forwarded s := by
  have hptr : ∀ w, t.forward.ptr w = s.forward.ptr w := by
    intro w
    cases w with
    | flipper => exact h.windows.1
    | hollywood => exact h.windows.2
  unfold ChipsetCall.forwarded
  rw [hptr]

lemma machineStep_accesses {e : Signal} (h : MachineStep k hw s e t) : t.forward.accesses =
    ((e.calls s).filterMap (ChipsetCall.forwarded s)).reverse ++ s.forward.accesses := by
  cases h with
  | sigill e ok =>
    have hdev : (handled k s e).forward = s.forward := handled_devicesKept.forward
    rw [hdev]
    rfl
  | sigsegv f ok =>
    change (faulted hw s f).forward.accesses =
      ((f.call s).toList.filterMap (ChipsetCall.forwarded s)).reverse ++ s.forward.accesses
    unfold faulted
    cases f.call s with
    | none => rfl
    | some c =>
      refine (run_accesses c).trans ?_
      rw [Option.toList_some, List.filterMap_cons]
      cases c.forwarded s <;> rfl
  | sigalrm mem back =>
    rw [sigalrmHandler_tickStep.rest]
    rfl

/-- The real hardware sees the forwarded accesses of the guest's faults, each once and in their
order, at the same place of its window, and nothing else. -/
theorem accesses_of_run (hrun : Run (machineStep k hw bail) (fun _ _ => True) s es t) :
    t.forward.accesses = ((callsOf k hw bail s es).filterMap (ChipsetCall.forwarded s)).reverse ++
      s.forward.accesses := by
  induction hrun with
  | nil => rfl
  | @snoc es m e t head ok next ih =>
    have hsame : ChipsetCall.forwarded m = ChipsetCall.forwarded s :=
      funext (forwarded_congr (sameSetup_of_run head))
    rw [callsOf_snoc head, List.filterMap_append, List.reverse_append, List.append_assoc, ← ih,
      ← hsame]
    exact machineStep_accesses (machineStep_eq_some.mp next)

end

/-- `lhz` of a register of CP in real mode. -/
def loadCp : Fault :=
  ⟨⟨7,0,0⟩,0xA0640000#32,⟨fun _ => 0,0,0x0C000010#32,0x40000000#32⟩⟩

theorem accesses_of_run_lhz :
    (faulted zeroHardware .zero loadCp).forward.accesses = [.read 0x10#32 2] := by
  have hnil : Run (machineStep consoleKernel zeroHardware noBail) (fun _ _ => True) .zero []
    .zero := .nil
  have hrun := hnil.snoc trivial (machineStep_eq_some.mpr (.sigsegv loadCp (fun _ => rfl)))
  have hcalls : callsOf consoleKernel zeroHardware noBail .zero ([] ++ [.sigsegv loadCp]) =
      [.flipperRead 0x0C000010#32 2] := by
    unfold callsOf
    rw [List.nil_append, trace_singleton]
    decide
  rw [accesses_of_run hrun, hcalls]
  decide

end DolTools
