import DolTools.Emu.Machine

/-! After a fatal error. The handler that finds it sends the guest to `emergencyBailOut`; should
the guest trap again all the same, the handlers exit, and until then only the timer works. -/
namespace DolTools
open Runs

/-- The context that the bail-out path leaves: on the emulator's stack, with its small data
pointers, at `emergencyBailOut`. -/
structure BailsOut (bail : BailOut) (ctx : Context) : Prop where
  nip : ctx.nip = bail.emergencyBailOut
  stack : ctx.gpr 1 = bail.sigstk
  sda0 : ctx.gpr 2 = bail.hostSda0
  sda1 : ctx.gpr 13 = bail.hostSda1

/-- Behind an error the second state is the first but for the DSP and the decrementer. -/
structure Stopped (s t : EmuState) : Prop where
  rest : t = { s with
    chipset := { s.chipset with dsp := t.chipset.dsp }
    cpu := { s.cpu with decrementer := t.cpu.decrementer } }
  fatal : t.fatalError = true

section

variable {k : Kernel} {hw : Hardware} {bail : BailOut} {s t u : EmuState} {e : Signal}

lemma recover_bailsOut (bail : BailOut) (ctx : Context) : BailsOut bail (bail.recover ctx) :=
  ⟨rfl,rfl,rfl,rfl⟩

lemma sigillFinish_bailsOut {vaddr msr : Word} {ctx : Context}
    (h : (sigillFinish k vaddr bail msr s ctx).1.fatalError = true) :
    BailsOut bail (sigillFinish k vaddr bail msr s ctx).2 := by
  unfold sigillFinish at h ⊢
  dsimp only at h ⊢
  generalize (if s.needsMemMapUpdate then memMapFixups k vaddr msr s else s) = u at h ⊢
  split_ifs at h ⊢ with hu
  · exact recover_bailsOut bail ctx
  · exact absurd h hu

lemma sigillHandler_bailsOut {vaddr val : Word} {ctx ctx' : Context}
    (h : sigillHandler k vaddr bail val s ctx = some (t,ctx')) (ht : t.fatalError = true) :
    BailsOut bail ctx' := by
  unfold sigillHandler at h
  split_ifs at h
  have hfinish := Option.some.inj h
  rw [show ctx' = (t,ctx').2 from rfl, ← hfinish]
  apply sigillFinish_bailsOut
  rw [hfinish]
  exact ht

lemma segvOut_bailsOut {l : SegvLocals} {width : Option ℤ} {ctx : Context}
    (hs : s.fatalError = true) : BailsOut bail (segvOut bail l width s ctx).ctx := by
  have hctx : (segvOut bail l width s ctx).ctx = bail.recover
      (if ctx.isRead && !l.storeMem then writeBackReg l ctx else ctx) := if_pos hs
  rw [hctx]
  exact recover_bailsOut bail _

lemma sigsegvHandler_segvOut {uninit : SegvUninit} {instr : Word} {ctx : Context}
    {o : SegvOutcome} (h : sigsegvHandler hw bail uninit instr s ctx = some o) :
    ∃ l width ctx', o = segvOut bail l width o.s ctx' := by
  unfold sigsegvHandler at h
  split_ifs at h
  · obtain rfl := Option.some.inj h
    exact ⟨_,_,_,rfl⟩
  · cases hl : decodeLoadStore uninit instr ctx with
    | none =>
      rw [hl] at h
      obtain rfl := Option.some.inj h
      exact ⟨_,_,_,rfl⟩
    | some l =>
      rw [hl] at h
      dsimp only at h
      cases hp : faultPaddr s ctx with
      | none =>
        rw [hp] at h
        obtain rfl := Option.some.inj h
        exact ⟨_,_,_,rfl⟩
      | some paddr =>
        rw [hp] at h
        obtain rfl := Option.some.inj h
        cases hc : segvCall paddr l s ctx with
        | none =>
          rw [segvDispatch_of_no_call hc]
          exact ⟨_,_,_,rfl⟩
        | some c =>
          rw [segvDispatch_of_call hc]
          exact ⟨_,_,_,rfl⟩

/-- A signal of the guest that leaves an error returns into the bail-out. -/
theorem resumes_bailsOut {ctx : Context} (hnext : machineStep k hw bail s e = some t)
    (ht : t.fatalError = true) (hctx : e.resumes k hw bail s = some ctx) : BailsOut bail ctx := by
  cases e with
  | sigill e =>
    obtain ⟨⟨u,ctx'⟩,hr,rfl⟩ := Option.map_eq_some_iff.mp hctx
    have hstate : sigillStep k bail s e = some u := by
      rw [sigillStep, hr]
      rfl
    obtain rfl := Option.some.inj (hnext.symm.trans hstate)
    exact sigillHandler_bailsOut hr ht
  | sigsegv f =>
    obtain ⟨o,ho,rfl⟩ := Option.map_eq_some_iff.mp hctx
    have hstate : sigsegvStep hw bail s f = some o.s := by
      rw [sigsegvStep, ho]
      rfl
    obtain rfl := Option.some.inj (hnext.symm.trans hstate)
    obtain ⟨l,width,ctx',hout⟩ := sigsegvHandler_segvOut ho
    rw [hout]
    exact segvOut_bailsOut ht
  | sigalrm => contradiction

/-! Behind the error. -/

theorem Stopped.trans (h : Stopped s t) (h' : Stopped t u) : Stopped s u where
  rest := by
    rw [h'.rest, h.rest]
  fatal := h'.fatal

/-- A signal is handled behind an error exactly if its handler does not look at the flag, and
comes back. -/
theorem machineStep_isSome_iff (hs : s.fatalError = true) (e : Signal) :
    (machineStep k hw bail s e).isSome = true ↔ e.HandledAfterError ∧ ¬ e.Faults s := by
  rw [Option.isSome_iff_exists]
  constructor
  · rintro ⟨t,ht⟩
    cases machineStep_eq_some.mp ht with
    | sigill e ok => simp [hs] at ok
    | sigsegv f ok =>
      refine ⟨?_,id⟩
      change f.ctx.isRead = false ∧ f.ctx.isWrite = false
      rw [← Bool.or_eq_false_iff]
      by_contra hkind
      rw [ok (by simpa only [Bool.not_eq_false] using hkind)] at hs
      contradiction
    | sigalrm mem back => exact ⟨trivial,(Bool.not_eq_true _).mpr back⟩
  · rintro ⟨he,hback⟩
    cases e with
    | sigill => exact he.elim
    | sigsegv f =>
      refine ⟨_,machineStep_eq_some.mpr (.sigsegv f ?_)⟩
      simp [he.1, he.2]
    | sigalrm mem =>
      exact ⟨_,machineStep_eq_some.mpr (.sigalrm mem ((Bool.not_eq_true _).mp hback))⟩

lemma machineStep_stopped (hs : s.fatalError = true)
    (hnext : machineStep k hw bail s e = some t) : Stopped s t := by
  have hstep := machineStep_eq_some.mp hnext
  refine ⟨?_,hstep.fatal hs⟩
  cases hstep with
  | sigill e ok => simp [hs] at ok
  | sigsegv f ok =>
    have hkind : f.ctx.isRead = false ∧ f.ctx.isWrite = false :=
      ((machineStep_isSome_iff hs (.sigsegv f)).mp (Option.isSome_iff_exists.mpr ⟨_,hnext⟩)).1
    have hcall : f.call s = none := by
      simp [Fault.call, hkind.1, hkind.2]
    have hfatal : s.fatal = s := by
      rw [EmuState.fatal, ← hs]
    rw [faulted, hcall]
    exact hfatal
  | sigalrm mem back =>
    have htick : TickStep s (sigalrmHandler mem s) := sigalrmHandler_tickStep
    have hrest := htick.rest
    rw [htick.fatal hs] at hrest
    rw [hrest, hs]

/-- The emulator is fail-stop: the signal that leaves an error sends the guest to the bail-out,
nothing but the timer works from then on, and every other signal of the guest exits, as does an
alarm that does not come back. -/
theorem failStop {es : List Signal} (hnext : machineStep k hw bail s e = some t)
    (ht : t.fatalError = true)
    (hrun : Run (machineStep k hw bail) (fun _ _ => True) t es u) :
    (∀ ctx, e.resumes k hw bail s = some ctx → BailsOut bail ctx) ∧
      (∀ e ∈ es, e.HandledAfterError) ∧ Stopped t u ∧
      ∀ e, machineStep k hw bail u e = none ↔ ¬ e.HandledAfterError ∨ e.Faults u := by
  have hall : Stopped t u ∧ ∀ e ∈ es, e.HandledAfterError := by
    induction hrun with
    | nil => exact ⟨⟨rfl,ht⟩,fun _ he => absurd he List.not_mem_nil⟩
    | @snoc es m e u head ok next ih =>
      obtain ⟨hm,hes⟩ := ih
      refine ⟨hm.trans (machineStep_stopped hm.fatal next),?_⟩
      intro f hf
      rcases List.mem_append.mp hf with hf | hf
      · exact hes f hf
      · rw [List.mem_singleton.mp hf]
        exact ((machineStep_isSome_iff hm.fatal e).mp (Option.isSome_iff_exists.mpr ⟨u,next⟩)).1
  refine ⟨fun ctx => resumes_bailsOut hnext ht,hall.2,hall.1,?_⟩
  intro e
  have halive : (machineStep k hw bail u e).isSome = true ↔ e.HandledAfterError ∧ ¬ e.Faults u :=
    machineStep_isSome_iff hall.1.fatal e
  rw [← Option.not_isSome_iff_eq_none, halive, not_and_or, not_not]

end

/-- Behind the reset of the DSP an instruction that nothing emulates, and an alarm: the next
instruction exits. -/
theorem failStop_unhandled : machineStep consoleKernel zeroHardware noBail
    (sigalrmHandler zeroMem (handled consoleKernel trialReset (trapWith 0 0)))
    (.sigill (trapWith 0 0)) = none := by
  have hnext : machineStep consoleKernel zeroHardware noBail trialReset (.sigill (trapWith 0 0)) =
      some (handled consoleKernel trialReset (trapWith 0 0)) :=
    machineStep_eq_some.mpr (.sigill _ (by decide))
  have hnil : Run (machineStep consoleKernel zeroHardware noBail) (fun _ _ => True)
    (handled consoleKernel trialReset (trapWith 0 0)) [] _ := .nil
  have hrun := hnil.snoc trivial
    (machineStep_eq_some.mpr (.sigalrm zeroMem (alarmFaults_zeroMem _)))
  exact ((failStop hnext (by decide) hrun).2.2.2 _).mpr (.inl id)

end DolTools
