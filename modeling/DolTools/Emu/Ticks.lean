import DolTools.Emu.FailStop

/-! Alarms between the signals of the guest. Dropping them from a run changes the DSP, the
decrementer and the error flag at its end; what the guest gets back is the same, unless it asks
for one of the first two. -/
namespace DolTools
open Runs Views

namespace Signal

/-- A signal that the guest causes. -/
def guest : Signal → Option Signal
  | sigill e => some (sigill e)
  | sigsegv f => some (sigsegv f)
  | sigalrm _ => none

/-- A read of the decrementer or of the DSP. -/
def ReadsTimed (s : EmuState) : Signal → Prop
  | sigill e => ∃ regDest, decodeIllegal e.val = .mfspr regDest sprDec
  | sigsegv f => ∃ c, f.call s = some c ∧ c.written = none ∧ c.route = .block .dsp
  | sigalrm _ => False

end Signal

/-- The state at another time, as far as alarms tell. -/
def EmuState.timed (s : EmuState) (dsp : DspState) (dec : Word) : EmuState :=
  { s with
    chipset := { s.chipset with dsp := dsp }
    cpu := { s.cpu with decrementer := dec } }

section

variable {k : Kernel} {hw : Hardware} {bail : BailOut} {s t u : EmuState} {dsp : DspState}
  {dec : Word}

lemma timed_tickStep : TickStep s (s.timed dsp dec) := ⟨rfl,id⟩

/-- Without an error the alarms have left nothing else. -/
lemma TickStep.eq_timed (h : TickStep s t) (ht : t.fatalError = false) :
    s.fatalError = false ∧ t = s.timed t.chipset.dsp t.cpu.decrementer := by
  have hs : s.fatalError = false := by
    by_contra hs
    rw [h.fatal (by simpa using hs)] at ht
    contradiction
  have hrest := h.rest
  rw [ht, ← hs] at hrest
  exact ⟨hs,hrest⟩

/-! Illegal instructions. -/

variable (s dsp dec) in
lemma handled_timed (e : Trap) : ∃ dec', handled k (s.timed dsp dec) e =
    (handled k s e).timed dsp dec' := by
  have hput := handled_put (k := k) (s := s) (o := (s.timed dsp dec).outside) e
  have hout := handled_outside (k := k) (s := s) e
  refine ⟨e.decrementer dec,hput.trans ?_⟩
  have hchipset : (handled k s e).chipset = s.chipset := congrArg Outside.chipset hout
  have hforward : (handled k s e).forward = s.forward := congrArg Outside.forward hout
  unfold EmuState.timed EmuState.put
  rw [hchipset, hforward]
  rfl

lemma mfspr_timed {spr : ℕ} (h : spr ≠ sprDec) :
    (mfspr spr (s.timed dsp dec)).1 = (mfspr spr s).1 := by
  have hite : ∀ {c : Prop} [Decidable c] {r r' x x' : Word × EmuState}, r.1 = x.1 → r'.1 = x'.1 →
      (if c then r else r').1 = (if c then x else x').1 := by
    intro c _ r r' x x' hr hr'
    split_ifs
    · exact hr
    · exact hr'
  cases hbat : batSpr spr with
  | none =>
    simp only [mfspr, hbat, mfsprOther, if_neg h]
    repeat' apply hite
    all_goals rfl
  | some x =>
    obtain ⟨reg,high⟩ := x
    simp only [mfspr, hbat, mfsprBat]
    refine hite rfl ?_
    cases reg <;> rfl

lemma emulate_timed (op : Emulated) (ctx : Context)
    (h : ∀ regDest, op ≠ .mfspr regDest sprDec) :
    (emulate op (s.timed dsp dec) ctx).2 = (emulate op s ctx).2 := by
  cases op with
  | mfspr regDest spr =>
    have hspr : spr ≠ sprDec := by
      rintro rfl
      exact h regDest rfl
    change (ctx.setGpr regDest (mfspr spr (s.timed dsp dec)).1).next = _
    rw [mfspr_timed hspr]
    rfl
  | _ => rfl

/-- Without an earlier error the handler returns, to where the instruction goes on or to the
bail-out. -/
lemma sigillHandler_eq (vaddr val : Word) (ctx : Context) (hs : s.fatalError = false) :
    sigillHandler k vaddr bail val s ctx =
      some (handled k s ⟨val,ctx,vaddr⟩,if (handled k s ⟨val,ctx,vaddr⟩).fatalError then
        bail.recover (emulate (decodeIllegal val) s ctx).2
        else (emulate (decodeIllegal val) s ctx).2) := by
  rw [sigillHandler, hs, if_neg Bool.false_ne_true]
  unfold sigillFinish handled emulated
  dsimp only
  rw [apply_ite (Prod.mk _)]

lemma sigillHandler_ctx (vaddr val : Word) (ctx : Context) (hs : s.fatalError = false) :
    (sigillHandler k vaddr bail val s ctx).map (fun r => r.2) =
      some (if (handled k s ⟨val,ctx,vaddr⟩).fatalError then
        bail.recover (emulate (decodeIllegal val) s ctx).2
        else (emulate (decodeIllegal val) s ctx).2) := by
  rw [sigillHandler_eq vaddr val ctx hs]
  rfl

/-! Faulting accesses. -/

lemma routeRead_timed (route : Route) (addr : Word) (w : ℤ) :
    (routeRead hw route addr w (s.timed dsp dec)).s =
      (routeRead hw route addr w s).s.timed dsp dec := by
  cases route with
  | block b =>
    change (onBlock b (b.read addr w) (s.timed dsp dec)).s =
      (onBlock b (b.read addr w) s).s.timed dsp dec
    rw [onBlock_read, onBlock_read]
    rfl
  | forwarded =>
    have hptr : forwardPtr addr (s.timed dsp dec) = forwardPtr addr s := rfl
    change (forwardedRead hw addr w (s.timed dsp dec)).s = (forwardedRead hw addr w s).s.timed dsp dec
    unfold forwardedRead
    rw [hptr]
    cases forwardPtr addr s with
    | none => rfl
    | some ptr =>
      dsimp only
      split_ifs <;> rfl
  | fatal => rfl
  | nothing => rfl

lemma routeRead_value (route : Route) (addr : Word) (w : ℤ) (h : route ≠ .block .dsp) :
    (routeRead hw route addr w (s.timed dsp dec)).value = (routeRead hw route addr w s).value := by
  cases route with
  | block b =>
    cases b with
    | dsp => exact absurd rfl h
    | _ => rfl
  | forwarded =>
    have hptr : forwardPtr addr (s.timed dsp dec) = forwardPtr addr s := rfl
    change (forwardedRead hw addr w (s.timed dsp dec)).value = (forwardedRead hw addr w s).value
    unfold forwardedRead
    rw [hptr]
    cases forwardPtr addr s with
    | none => rfl
    | some ptr =>
      dsimp only
      split_ifs <;> rfl
  | fatal => rfl
  | nothing => rfl

lemma routeWrite_timed (route : Route) (addr val : Word) (w : ℤ) :
    ∃ dsp', (routeWrite route addr val w (s.timed dsp dec)).s =
      (routeWrite route addr val w s).s.timed dsp' dec := by
  cases route with
  | block b =>
    change ∃ dsp', (onBlock b (b.write addr val w) (s.timed dsp dec)).s =
      (onBlock b (b.write addr val w) s).s.timed dsp' dec
    rw [onBlock_write, onBlock_write]
    cases b with
    | dsp => exact ⟨_,rfl⟩
    | _ => exact ⟨dsp,rfl⟩
  | forwarded =>
    have hptr : forwardPtr addr (s.timed dsp dec) = forwardPtr addr s := rfl
    change ∃ dsp', (forwardedWrite addr val w (s.timed dsp dec)).s =
      (forwardedWrite addr val w s).s.timed dsp' dec
    refine ⟨dsp,?_⟩
    unfold forwardedWrite
    rw [hptr]
    cases forwardPtr addr s with
    | none => rfl
    | some ptr =>
      dsimp only
      split_ifs <;> rfl
  | fatal => exact ⟨dsp,rfl⟩
  | nothing => exact ⟨dsp,rfl⟩

variable (s dsp dec) in
lemma run_timed (c : ChipsetCall) :
    ∃ dsp', c.run hw (s.timed dsp dec) = (c.run hw s).timed dsp' dec := by
  cases hc : c.written with
  | none =>
    rw [run_read hc, run_read hc]
    exact ⟨dsp,routeRead_timed _ _ _⟩
  | some val =>
    rw [run_write hc, run_write hc]
    exact routeWrite_timed _ _ _ _

lemma loaded_timed (c : ChipsetCall) (h : c.written = none → c.route ≠ .block .dsp) :
    c.loaded hw (s.timed dsp dec) = c.loaded hw s := by
  cases hc : c.written with
  | none =>
    rw [loaded_read hc, loaded_read hc]
    exact congrArg some (routeRead_value _ _ _ (h hc))
  | some val =>
    cases c with
    | flipperRead | hollywoodRead => contradiction
    | flipperWrite | hollywoodWrite => rfl

lemma call_timed (f : Fault) : f.call (s.timed dsp dec) = f.call s := rfl

lemma faulted_timed (f : Fault) :
    ∃ dsp', faulted hw (s.timed dsp dec) f = (faulted hw s f).timed dsp' dec := by
  unfold faulted
  rw [call_timed]
  cases f.call s with
  | none => exact ⟨dsp,rfl⟩
  | some c => exact run_timed s dsp dec c

lemma sigsegvHandler_timed {f : Fault} (hs : s.fatalError = false)
    (h : ¬ (Signal.sigsegv f).ReadsTimed s) :
    (sigsegvHandler hw bail f.uninit f.instr (s.timed dsp dec) f.ctx).map (fun o => o.ctx) =
      (sigsegvHandler hw bail f.uninit f.instr s f.ctx).map (fun o => o.ctx) := by
  have hs' : (s.timed dsp dec).fatalError = false := hs
  unfold sigsegvHandler
  cases hkind : !f.ctx.isRead && !f.ctx.isWrite with
  | true => rfl
  | false =>
    rw [hs, hs', if_neg Bool.false_ne_true, if_neg Bool.false_ne_true]
    cases hl : decodeLoadStore f.uninit f.instr f.ctx with
    | none => rfl
    | some l =>
      have hpaddr : faultPaddr (s.timed dsp dec) f.ctx = faultPaddr s f.ctx := rfl
      dsimp only
      rw [hpaddr]
      cases hp : faultPaddr s f.ctx with
      | none => rfl
      | some paddr =>
        have hsegv : segvCall paddr l (s.timed dsp dec) f.ctx = segvCall paddr l s f.ctx := rfl
        cases hc : segvCall paddr l s f.ctx with
        | none =>
          dsimp only
          rw [segvDispatch_of_no_call hc, segvDispatch_of_no_call (hsegv.trans hc)]
          rfl
        | some c =>
          have hcall : f.call s = some c := by
            have hor : (f.ctx.isRead || f.ctx.isWrite) = true := by
              rwa [← Bool.not_or, Bool.not_eq_false'] at hkind
            rw [Fault.call, if_pos hor, handlerCall, if_neg (by simp [hs]), hl]
            simp [hp, hc]
          have hloaded : c.loaded hw (s.timed dsp dec) = c.loaded hw s :=
            loaded_timed c (fun hw hroute => h ⟨c,hcall,hw,hroute⟩)
          obtain ⟨dsp',hrun⟩ : ∃ dsp', c.run hw (s.timed dsp dec) = (c.run hw s).timed dsp' dec :=
            run_timed s dsp dec c
          dsimp only
          rw [segvDispatch_of_call hc, segvDispatch_of_call (hsegv.trans hc), hloaded, hrun]
          rfl

/-- Signals that read nothing timed return into the same context. -/
theorem resumes_timed {e : Signal} (hs : s.fatalError = false) (h : ¬ e.ReadsTimed s) :
    e.resumes k hw bail (s.timed dsp dec) = e.resumes k hw bail s := by
  cases e with
  | sigill e =>
    obtain ⟨dec',hhandled⟩ := handled_timed (k := k) s dsp dec e
    have hs' : (s.timed dsp dec).fatalError = false := hs
    change (sigillHandler k e.vaddr bail e.val _ e.ctx).map (fun r => r.2) = _
    rw [sigillHandler_ctx _ _ _ hs', hhandled, emulate_timed _ _ (fun r hr => h ⟨r,hr⟩)]
    exact (sigillHandler_ctx _ _ _ hs).symm
  | sigsegv f => exact sigsegvHandler_timed hs h
  | sigalrm => rfl

/-! Runs. -/

/-- A run with its alarms stays ahead of the run without them by alarms alone. -/
theorem machine_untimed (k : Kernel) (hw : Hardware) (bail : BailOut) :
    Simulation (machineStep k hw bail) (fun _ _ => True) (machineStep k hw bail) Signal.guest
      (fun s u => TickStep u s) where
  matched := by
    intro s u e e' t h _ he hnext
    cases machineStep_eq_some.mp hnext with
    | sigill e ok =>
      obtain rfl := Option.some.inj he
      obtain ⟨hu,htimed⟩ := h.eq_timed ok
      refine ⟨_,machineStep_eq_some.mpr (.sigill e hu),?_⟩
      rw [htimed]
      obtain ⟨dec',hhandled⟩ := handled_timed (k := k) u s.chipset.dsp s.cpu.decrementer e
      rw [hhandled]
      exact timed_tickStep
    | sigsegv f ok =>
      obtain rfl := Option.some.inj he
      cases hkind : f.ctx.isRead || f.ctx.isWrite with
      | true =>
        obtain ⟨hu,htimed⟩ := h.eq_timed (ok hkind)
        refine ⟨_,machineStep_eq_some.mpr (.sigsegv f (fun _ => hu)),?_⟩
        rw [htimed]
        obtain ⟨dsp',hfaulted⟩ := faulted_timed f
        rw [hfaulted]
        exact timed_tickStep
      | false =>
        refine ⟨_,machineStep_eq_some.mpr (.sigsegv f (by simp [hkind])),?_⟩
        have hcall : ∀ s : EmuState, f.call s = none := by simp [Fault.call, hkind]
        unfold faulted
        rw [hcall, hcall]
        refine ⟨?_,fun _ => rfl⟩
        change s.fatal = _
        rw [h.rest]
        rfl
    | sigalrm => contradiction
  unseen := by
    intro s u e t h _ he hnext
    cases machineStep_eq_some.mp hnext with
    | sigill | sigsegv => contradiction
    | sigalrm mem back => exact h.trans sigalrmHandler_tickStep

/-- Alarms, at whatever points of a run and however many, are seen in the DSP, the decrementer
and the error flag alone; a signal that reads none of them returns into the same context. -/
theorem ticks_invisible {es fs : List Signal}
    (hsame : es.filterMap Signal.guest = fs.filterMap Signal.guest)
    (ht : Run (machineStep k hw bail) (fun _ _ => True) s es t)
    (hu : Run (machineStep k hw bail) (fun _ _ => True) s fs u) :
    u = { t with
      chipset := { t.chipset with dsp := u.chipset.dsp }
      cpu := { t.cpu with decrementer := u.cpu.decrementer }
      fatalError := u.fatalError } ∧
    ∀ e : Signal, t.fatalError = false → u.fatalError = false → ¬ e.ReadsTimed t →
      e.resumes k hw bail u = e.resumes k hw bail t := by
  obtain ⟨m,hmt,hmu⟩ := (machine_untimed k hw bail).agree hsame ht hu (.refl s)
  have hrest : u = { t with
      chipset := { t.chipset with dsp := u.chipset.dsp }
      cpu := { t.cpu with decrementer := u.cpu.decrementer }
      fatalError := u.fatalError } := by
    rw [hmt.rest]
    exact hmu.rest
  refine ⟨hrest,?_⟩
  intro e hto huo he
  have htimed : u = t.timed u.chipset.dsp u.cpu.decrementer := by
    rw [huo, ← hto] at hrest
    exact hrest
  rw [htimed]
  exact resumes_timed hto he

/-! The decrementer. -/

/-- The value that an instruction writes to the decrementer. -/
def Signal.setsDec : Signal → Option Word
  | .sigill e =>
    match decodeIllegal e.val with
    | .mtspr spr regSrc => if spr = sprDec then some (e.ctx.gpr regSrc) else none
    | _ => none
  | _ => none

lemma decrementer_sigill (e : Trap) : (handled k s e).cpu.decrementer =
    (Signal.sigill e).setsDec.getD s.cpu.decrementer := by
  have hout := congrArg Outside.decrementer (handled_outside (k := k) (s := s) e)
  refine hout.trans ?_
  change (decodeIllegal e.val).decrementer e.ctx s.cpu.decrementer = _
  unfold Signal.setsDec
  dsimp only
  cases decodeIllegal e.val with
  | mtspr spr regSrc =>
    dsimp only [Emulated.decrementer, sprDecrementer]
    split_ifs <;> rfl
  | _ => rfl

/-- Signals that set nothing count the decrementer down, alarm by alarm. -/
lemma decrementer_step {e : Signal} (h : MachineStep k hw s e t) (hhooks : s.timersHooks = bootHooks)
    (hset : e.setsDec = none) : t.cpu.decrementer.toNat =
      s.cpu.decrementer.toNat - ticksOf [e] * (decTicks s.consoleType).toNat := by
  cases h with
  | sigill e ok =>
    rw [decrementer_sigill, hset]
    simp [ticksOf, Signal.isTick]
  | sigsegv f ok =>
    have hcpu : (faulted hw s f).cpu = s.cpu := by
      rw [faultStep_faulted.rest]
    rw [hcpu]
    simp [ticksOf, Signal.isTick]
  | sigalrm mem back =>
    rw [sigalrmHandler_ready hhooks back, decHook_decrementer]
    simp [ticksOf, Signal.isTick, dspHook]

lemma ticksOf_append (es fs : List Signal) : ticksOf (es ++ fs) = ticksOf es + ticksOf fs :=
  List.countP_append

lemma decrementer_count {es : List Signal}
    (hrun : Run (machineStep k hw bail) (fun _ _ => True) s es t)
    (hhooks : s.timersHooks = bootHooks) (hset : ∀ e ∈ es, e.setsDec = none) :
    t.cpu.decrementer.toNat =
      s.cpu.decrementer.toNat - ticksOf es * (decTicks s.consoleType).toNat := by
  induction hrun with
  | nil => simp [ticksOf]
  | @snoc es m e t head ok next ih =>
    have hsetup := sameSetup_of_run head
    have hm := ih (fun f hf => hset f (List.mem_append_left _ hf))
    have hstep := decrementer_step (machineStep_eq_some.mp next)
      (hsetup.timersHooks.trans hhooks) (hset e (List.mem_append_right _ (List.mem_singleton_self e)))
    rw [hstep, hm, hsetup.consoleType, ticksOf_append, Nat.add_mul, Nat.sub_sub]

/-- What the guest reads from the decrementer: the value it wrote last, counted down by every
alarm since then, and zero from where that would pass it. -/
theorem decrementer_of_run {env : BootEnv} {pre post : List Signal} {e : Signal} {v : Word}
    (hboot : boot k env = some s)
    (hrun : Run (machineStep k hw bail) (fun _ _ => True) s (pre ++ e::post) t)
    (he : e.setsDec = some v) (hpost : ∀ f ∈ post, f.setsDec = none) (regDest : Fin 32)
    (ctx : Context) : ((emulate (.mfspr regDest sprDec) t ctx).2.gpr regDest).toNat =
      v.toNat - ticksOf post * (decTicks s.consoleType).toNat := by
  obtain ⟨m,m',hpre,-,hnext,htail⟩ := hrun.at_event
  have hsetup := sameSetup_of_run (hpre.snoc trivial hnext)
  have hm' : m'.cpu.decrementer = v := by
    cases machineStep_eq_some.mp hnext with
    | sigill e ok =>
      rw [decrementer_sigill, he]
      rfl
    | sigsegv | sigalrm => contradiction
  have hcount := decrementer_count htail (hsetup.timersHooks.trans (boot_hooks hboot)) hpost
  rw [hm', hsetup.consoleType] at hcount
  have hgpr : (emulate (.mfspr regDest sprDec) t ctx).2.gpr regDest = t.cpu.decrementer :=
    Function.update_self regDest _ ctx.gpr
  rw [hgpr, hcount]

end

/-- While a reset of the DSP is pending, one alarm before an instruction against two behind it. -/
theorem ticks_invisible_mtmsr :
    (sigalrmHandler zeroMem (sigalrmHandler zeroMem
      (handled consoleKernel trialReset (trapWith 0x7C000124#32 msrPow)))).cpu.msr =
    (handled consoleKernel (sigalrmHandler zeroMem trialReset)
      (trapWith 0x7C000124#32 msrPow)).cpu.msr := by
  have hnil : Run (machineStep consoleKernel zeroHardware noBail) (fun _ _ => True) trialReset []
    trialReset := .nil
  have halarm : ∀ s, machineStep consoleKernel zeroHardware noBail s (.sigalrm zeroMem) =
      some (sigalrmHandler zeroMem s) :=
    fun s => machineStep_eq_some.mpr (.sigalrm zeroMem (alarmFaults_zeroMem s))
  have ht := (hnil.snoc trivial (halarm _)).snoc trivial
    (machineStep_eq_some.mpr (.sigill (trapWith 0x7C000124#32 msrPow) (by decide)))
  have hu := ((hnil.snoc trivial
    (machineStep_eq_some.mpr (.sigill (trapWith 0x7C000124#32 msrPow) (by decide)))).snoc trivial
    (halarm _)).snoc trivial (halarm _)
  have hsame : List.filterMap Signal.guest
      [.sigalrm zeroMem,.sigill (trapWith 0x7C000124#32 msrPow)] =
    List.filterMap Signal.guest [.sigill (trapWith 0x7C000124#32 msrPow),.sigalrm zeroMem,
      .sigalrm zeroMem] := rfl
  have hrest := (ticks_invisible hsame ht hu).1
  rw [hrest]

/-- `mtdec` of 2000000 on a GameCube, and one alarm. -/
theorem decrementer_of_run_mtdec : ((emulate (.mfspr 3 sprDec) (sigalrmHandler zeroMem
    (handled consoleKernel (started consoleKernel gcnBoot) (trapWith 0x7C7603A6#32 2000000)))
      ⟨fun _ => 0,0,0,0⟩).2.gpr 3).toNat = 2000000 -
        1 * (decTicks (started consoleKernel gcnBoot).consoleType).toNat := by
  have hboot : boot consoleKernel gcnBoot = some (started consoleKernel gcnBoot) :=
    boot_eq_started (by decide)
  have hnil : Run (machineStep consoleKernel zeroHardware noBail) (fun _ _ => True)
    (started consoleKernel gcnBoot) [] _ := .nil
  have hrun : Run (machineStep consoleKernel zeroHardware noBail) (fun _ _ => True)
      (started consoleKernel gcnBoot)
      ([] ++ .sigill (trapWith 0x7C7603A6#32 2000000)::[.sigalrm zeroMem]) _ :=
    (hnil.snoc trivial (machineStep_eq_some.mpr
      (.sigill (trapWith 0x7C7603A6#32 2000000) (by decide)))).snoc trivial
        (machineStep_eq_some.mpr (.sigalrm zeroMem (alarmFaults_zeroMem _)))
  have hset : (Signal.sigill (trapWith 0x7C7603A6#32 2000000)).setsDec = some 2000000 := by decide
  exact decrementer_of_run hboot hrun hset (by simp [Signal.setsDec]) 3 _

end DolTools
