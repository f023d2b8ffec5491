import DolTools.Emu.ChipsetRuns
import DolTools.Emu.LoadStore

/-! What the guest gets back from the devices, whatever its other faults, its illegal instructions
and the alarms do between: a load of an interface register gives what the last store to it left. -/
namespace DolTools
open Runs Views

/-- A call that reads the register. -/
structure ChipsetCall.Reads (r : InterfaceReg) (c : ChipsetCall) : Prop where
  route : c.route = .block r.block
  off : offset c.addr r.block.mask = r.off
  width : c.accessWidth = r.width
  read : c.written = none

/-- A fault of a load that the handler finishes without an error, on the register. -/
structure LoadsReg (hw : Hardware) (bail : BailOut) (r : InterfaceReg) (s : EmuState) (f : Fault)
    (o : SegvOutcome) : Prop where
  isRead : f.ctx.isRead = true
  call : ∃ c, f.call s = some c ∧ c.route = .block r.block ∧ offset c.addr r.block.mask = r.off
  handled : sigsegvHandler hw bail f.uninit f.instr s f.ctx = some o
  ok : o.s.fatalError = false

/-- Every read of the register gives the value; of the loads, `lwz` the value itself, if the local
that it leaves unassigned holds the width of a word, `lhz` its extension by zeros and `lha` by the
sign. -/
structure ShowsValue (hw : Hardware) (bail : BailOut) (s : EmuState) (r : InterfaceReg) (v : Word) :
    Prop where
  call : ∀ c : ChipsetCall, c.Reads r → c.loaded hw s = some v
  lwz : ∀ f o, LoadsReg hw bail r s f o → r.width = 4 → primaryOpcode f.instr = 32 →
    f.uninit.accessWidth = 4 → o.ctx.gpr (archReg f.instr) = v
  lhz : ∀ f o, LoadsReg hw bail r s f o → r.width = 2 → primaryOpcode f.instr = 40 →
    o.ctx.gpr (archReg f.instr) = (v.setWidth 16).setWidth 32
  lha : ∀ f o, LoadsReg hw bail r s f o → r.width = 2 → primaryOpcode f.instr = 42 →
    o.ctx.gpr (archReg f.instr) = (v.setWidth 16).signExtend 32

section

variable {k : Kernel} {hw : Hardware} {bail : BailOut} {s t m : EmuState} {es : List Signal}
  {r : InterfaceReg} {v : Word}

lemma InterfaceReg.get_congr (h : ∀ b ≠ .dsp, t.chipset.get b = s.chipset.get b) :
    r.get t.chipset = r.get s.chipset := by
  have hpi : t.chipset.pi = s.chipset.pi := h .pi (by decide)
  have hmi : t.chipset.mi = s.chipset.mi := h .mi (by decide)
  have hai : t.chipset.ai = s.chipset.ai := h .ai (by decide)
  cases r <;> simp only [InterfaceReg.get, hpi, hmi, hai]

lemma loaded_reads {c : ChipsetCall} (h : c.Reads r) :
    c.loaded hw s = some (r.get s.chipset) := by
  rw [loaded_read h.read, h.route, h.width]
  exact congrArg some (blockRead_eq h.off)

lemma segvCall_unwritten {paddr : Word} {l : SegvLocals} {ctx : Context} {c : ChipsetCall}
    (h : segvCall paddr l s ctx = some c) (hr : ctx.isWrite = false) : c.written = none := by
  obtain ⟨addr,-,rfl⟩ := Option.map_eq_some_iff.mp h
  simp only [hr, Bool.false_eq_true, if_false]
  split <;> rfl

lemma handlerCall_unwritten {u : SegvUninit} {instr : Word} {ctx : Context} {c : ChipsetCall}
    (h : handlerCall u instr s ctx = some c) (hr : ctx.isRead = true) : c.written = none := by
  unfold handlerCall at h
  split_ifs at h
  obtain ⟨l,-,h⟩ := Option.bind_eq_some_iff.mp h
  obtain ⟨paddr,-,h⟩ := Option.bind_eq_some_iff.mp h
  exact segvCall_unwritten h (isWrite_of_isRead hr)

/-- A load of the register at its width writes what the register shows back. -/
lemma loadsReg_ctx {f : Fault} {o : SegvOutcome} {l : SegvLocals}
    (h : LoadsReg hw bail r s f o) (hl : decodeLoadStore f.uninit f.instr f.ctx = some l)
    (hwidth : l.accessWidth = r.width) (hstore : l.storeMem = false)
    (hupdate : l.updateRegDest = false) :
    o.ctx = writeBackReg { l with val := r.get s.chipset } f.ctx.next := by
  obtain ⟨c,hc,hroute,hoff⟩ := h.call
  have hcall : handlerCall f.uninit f.instr s f.ctx = some c := by
    rwa [Fault.call, h.isRead, Bool.true_or, if_pos rfl] at hc
  obtain ⟨c',val,hc',hw',hval,-,hctx,-⟩ :=
    handledLoad_of_decode h.handled h.ok h.isRead hl hstore hupdate
  obtain rfl := Option.some.inj (hcall.symm.trans hc')
  have hreads : c.Reads r :=
    ⟨hroute,hoff,hw'.trans hwidth,handlerCall_unwritten hcall h.isRead⟩
  rw [loaded_reads hreads] at hval
  obtain rfl := Option.some.inj hval
  exact hctx

lemma loadsReg_half {f : Fault} {o : SegvOutcome} {islha : Bool}
    (h : LoadsReg hw bail r s f o) (hw' : r.width = 2)
    (hl : decodeLoadStore f.uninit f.instr f.ctx = some (halfLoad f.uninit f.instr islha)) :
    o.ctx.gpr (archReg f.instr) = extendHalf islha ((r.get s.chipset).setWidth 16) := by
  rw [loadsReg_ctx h hl hw'.symm rfl rfl, writeBackReg_halfLoad]
  exact gpr_setGpr_next f.ctx _ _

lemma loadsReg_word {f : Fault} {o : SegvOutcome} (h : LoadsReg hw bail r s f o)
    (hw' : r.width = 4) (hop : primaryOpcode f.instr = 32) (huninit : f.uninit.accessWidth = 4) :
    o.ctx.gpr (archReg f.instr) = r.get s.chipset := by
  have hl : decodeLoadStore f.uninit f.instr f.ctx = some { f.uninit.locals with
      regDest := (f.instr &&& 0x03E00000#32) >>> 21 } := by
    simp only [decodeLoadStore, hop]
  rw [loadsReg_ctx h hl (huninit.trans hw'.symm) rfl rfl]
  have hback : writeBackReg { f.uninit.locals with
      regDest := (f.instr &&& 0x03E00000#32) >>> 21
      val := r.get s.chipset } f.ctx.next =
        f.ctx.next.setReg ((f.instr &&& 0x03E00000#32) >>> 21) (r.get s.chipset) := by
    simp [writeBackReg, cutToWidth, SegvUninit.locals, huninit]
  rw [hback, setReg_high]
  exact gpr_setGpr_next f.ctx _ _

lemma showsValue_of_get (h : r.get s.chipset = v) : ShowsValue hw bail s r v where
  call c hc := by
    rw [loaded_reads hc, h]
  lwz f o hf hwidth hop huninit := by
    rw [← h]
    exact loadsReg_word hf hwidth hop huninit
  lhz f o hf hwidth hop := by
    rw [← h]
    exact loadsReg_half hf hwidth (decode_lhz hop)
  lha f o hf hwidth hop := by
    rw [← h]
    exact loadsReg_half hf hwidth (decode_lha hop)

lemma callsOf_cons {e : Signal} (h : machineStep k hw bail s e = some m) (es : List Signal) :
    callsOf k hw bail s (e::es) = e.calls s ++ callsOf k hw bail m es := by
  unfold callsOf
  rw [trace, h]
  rfl

/-- A store to an interface register, then any signals that do not come to a write of it: the
guest loads what the register keeps of the value stored. -/
theorem readBack_of_run {f : Fault} {c : ChipsetCall} {op : BlockWrite} (hcall : f.call s = some c)
    (hop : c.blockWrite = some op) (hto : op.To r) (hwidth : op.accessWidth = r.width)
    (hstore : machineStep k hw bail s (.sigsegv f) = some m)
    (hrun : Run (machineStep k hw bail) (fun _ _ => True) m es t)
    (hes : ∀ o ∈ (callsOf k hw bail m es).filterMap ChipsetCall.blockWrite, ¬ o.To r) :
    ShowsValue hw bail t r (r.kept op.val) := by
  apply showsValue_of_get
  have hnil : Run (machineStep k hw bail) (fun _ _ => True) s [] s := .nil
  have hall := blocks_of_run ((hnil.snoc trivial hstore).append hrun)
  rw [List.nil_append, List.singleton_append, callsOf_cons hstore, List.filterMap_append] at hall
  have hwrites : (Signal.calls s (.sigsegv f)).filterMap ChipsetCall.blockWrite = [op] := by
    simp [Signal.calls, hcall, hop]
  rw [hwrites] at hall
  rw [InterfaceReg.get_congr hall, ← blockRead_eq hto.2]
  change blockRead _ _ _ (blockWrites ([] ++ op::_) s) = _
  exact blockRead_blockWrites hto.2 hto hwidth hes

/-- `stw` of 0xF0 to the interrupt mask of PI. -/
def storeIntmr : Fault :=
  ⟨⟨7,0,0⟩,0x90640000#32,⟨fun _ => 0xF0#32,0,0xCC003004#32,0x42000000#32⟩⟩

/-- `lwz` of it into r3, the width left over from the store. -/
def loadIntmr : Fault :=
  ⟨⟨4,0,0⟩,0x80640000#32,⟨fun _ => 0,0,0xCC003004#32,0x40000000#32⟩⟩

/-- The store, a reset of the DSP and an alarm, and the load. -/
theorem readBack_of_run_lwz : ∃ o, sigsegvHandler zeroHardware noBail loadIntmr.uninit
    loadIntmr.instr (sigalrmHandler zeroMem (faulted zeroHardware (faulted zeroHardware
      (started consoleKernel gcnBoot) storeIntmr) resetDsp)) loadIntmr.ctx = some o ∧
    o.ctx.gpr 3 = 0xF0#32 := by
  have hcall : storeIntmr.call (started consoleKernel gcnBoot) =
      some (.flipperWrite 0x0C003004#32 0xF0#32 4) := by decide
  have hstore : machineStep consoleKernel zeroHardware noBail (started consoleKernel gcnBoot)
      (.sigsegv storeIntmr) =
        some (faulted zeroHardware (started consoleKernel gcnBoot) storeIntmr) :=
    machineStep_eq_some.mpr (.sigsegv _ (by decide))
  have hnil : Run (machineStep consoleKernel zeroHardware noBail) (fun _ _ => True)
    (faulted zeroHardware (started consoleKernel gcnBoot) storeIntmr) [] _ := .nil
  have hreset := hnil.snoc trivial (machineStep_eq_some.mpr (.sigsegv resetDsp (by decide)))
  have hrun := hreset.snoc trivial
    (machineStep_eq_some.mpr (.sigalrm zeroMem (alarmFaults_zeroMem _)))
  have hcalls : ∀ o ∈ (callsOf consoleKernel zeroHardware noBail
      (faulted zeroHardware (started consoleKernel gcnBoot) storeIntmr)
      ([] ++ [.sigsegv resetDsp] ++ [.sigalrm zeroMem])).filterMap ChipsetCall.blockWrite,
      ¬ o.To .intmr := by
    have hreset' : resetDsp.call (faulted zeroHardware (started consoleKernel gcnBoot)
      storeIntmr) = some (.flipperWrite 0x0C00500A#32 0x801#32 2) := by decide
    rw [callsOf_snoc hreset, callsOf_snoc hnil]
    intro o ho
    simp only [callsOf, trace, Signal.calls, hreset'] at ho
    obtain rfl := List.mem_singleton.mp ho
    rintro ⟨hblock,-⟩
    contradiction
  have hshows := readBack_of_run hcall rfl ⟨rfl,rfl⟩ rfl hstore hrun hcalls
  obtain ⟨o,ho⟩ := exists_sigsegvHandler zeroHardware noBail loadIntmr.uninit loadIntmr.instr
    (s := sigalrmHandler zeroMem (faulted zeroHardware (faulted zeroHardware
      (started consoleKernel gcnBoot) storeIntmr) resetDsp)) loadIntmr.ctx (by decide)
  refine ⟨o,ho,hshows.lwz loadIntmr o ⟨rfl,⟨.flipperRead 0x0C003004#32 4,by decide,rfl,
    by decide⟩,ho,?_⟩ rfl (by decide) rfl⟩
  have hok : (sigsegvHandler zeroHardware noBail loadIntmr.uninit loadIntmr.instr
      (sigalrmHandler zeroMem (faulted zeroHardware (faulted zeroHardware
        (started consoleKernel gcnBoot) storeIntmr) resetDsp)) loadIntmr.ctx).map
          (fun o => o.s.fatalError) = some false := by decide
  rw [ho] at hok
  exact Option.some.inj hok

end

end DolTools
