import DolTools.Emu.Timer

/-! What an illegal instruction depends on. Emulating it and fixing up the map behind it read
nothing of the chipset, the windows of the real hardware and the decrementer: exchanging them
before the handler is exchanging them behind it. -/
namespace DolTools

/-- What the other handlers work on. -/
structure Outside where
  chipset : ChipsetState
  forward : ForwardState
  decrementer : Word

namespace EmuState

def outside (s : EmuState) : Outside := ⟨s.chipset,s.forward,s.cpu.decrementer⟩

def put (s : EmuState) (o : Outside) : EmuState :=
  { s with
    chipset := o.chipset
    forward := o.forward
    cpu := { s.cpu with decrementer := o.decrementer } }

@[simp] theorem put_put (s : EmuState) (o o' : Outside) : (s.put o).put o' = s.put o' := rfl
@[simp] theorem put_fatalError (s : EmuState) (o : Outside) :
    (s.put o).fatalError = s.fatalError := rfl
@[simp] theorem put_outside (s : EmuState) (o : Outside) : (s.put o).outside = o := rfl
@[simp] theorem put_host (s : EmuState) (o : Outside) : (s.put o).host = s.host := rfl
@[simp] theorem put_mem (s : EmuState) (o : Outside) : (s.put o).mem = s.mem := rfl
@[simp] theorem put_maxBAT (s : EmuState) (o : Outside) : (s.put o).maxBAT = s.maxBAT := rfl
@[simp] theorem put_consoleType (s : EmuState) (o : Outside) :
    (s.put o).consoleType = s.consoleType := rfl
@[simp] theorem put_msr (s : EmuState) (o : Outside) : (s.put o).cpu.msr = s.cpu.msr := rfl
@[simp] theorem put_hid0 (s : EmuState) (o : Outside) : (s.put o).cpu.hid0 = s.cpu.hid0 := rfl
@[simp] theorem put_bat (s : EmuState) (o : Outside) (isData : Bool) (i : Fin 8) :
    (s.put o).bat isData i = s.bat isData i := by cases isData <;> rfl

end EmuState

def ReloadLoop.put (l : ReloadLoop) (o : Outside) : ReloadLoop := { l with s := l.s.put o }

section

variable {k : Kernel} {s : EmuState} {o : Outside}

/-! The map. -/

lemma mapWindow_put (ram : Ram) (i : Fin 8) (v : Word) (exec fatal : Bool) :
    mapWindow k ram i v exec fatal (s.put o) = (mapWindow k ram i v exec fatal s).put o := by
  unfold mapWindow
  change (if (s.host.mmap k ram v (s.mem.size ram) exec).1 = mapFailed ∧ fatal then _ else _) =
    ReloadLoop.put (if _ then _ else _) o
  split_ifs <;> rfl

lemma reloadIbat_put (path : ReloadPath) (i : Fin 8) (l : ReloadLoop) :
    reloadIbat k path i (l.put o) = (reloadIbat k path i l).put o := by
  have hbat : (l.put o).s.bat false i = l.s.bat false i := rfl
  have hslot : ∀ ram, slotI (l.put o).s ram (l.put o).vaddr = slotI l.s ram l.vaddr := fun _ => rfl
  cases hz : (l.s.bat false i).isZero with
  | true => simp only [reloadIbat, hbat, hz, if_true]
  | false =>
    simp only [reloadIbat, hbat, hz, Bool.false_eq_true, if_false]
    cases path.ramOf (l.s.bat false i).bprn with
    | none => rfl
    | some ram =>
      cases hs : slotI l.s ram l.vaddr with
      | true => simp only [hslot, hs, if_true]
      | false =>
        simp only [hslot, hs, Bool.false_eq_true, if_false]
        exact mapWindow_put _ _ _ _ _

lemma reloadDbat_put (path : ReloadPath) (i : Fin 8) (l : ReloadLoop) :
    reloadDbat k path i (l.put o) = (reloadDbat k path i l).put o := by
  have hbat : (l.put o).s.bat true i = l.s.bat true i := rfl
  have hslot : ∀ ram v, slotD (l.put o).s ram v = slotD l.s ram v := fun _ _ => rfl
  cases hz : (l.s.bat true i).isZero with
  | true => simp only [reloadDbat, hbat, hz, if_true]
  | false =>
    simp only [reloadDbat, hbat, hz, Bool.false_eq_true, if_false]
    cases path.ramOf (l.s.bat true i).bprn with
    | none => rfl
    | some ram =>
      cases hs : slotD l.s ram (l.s.bat true i).bepi with
      | true =>
        simp only [hslot, hs, if_true]
        rfl
      | false =>
        simp only [hslot, hs, Bool.false_eq_true, if_false]
        exact mapWindow_put _ _ _ _ _

lemma reloadBoth_put (path : ReloadPath) (i : Fin 8) (l : ReloadLoop) :
    reloadBoth k path i (l.put o) = (reloadBoth k path i l).put o := by
  have hret : ∀ l : ReloadLoop, (l.put o).returned = l.returned := fun _ => rfl
  simp only [reloadBoth, reloadIbat_put, hret]
  cases (reloadIbat k path i l).returned with
  | true => rfl
  | false => exact reloadDbat_put path i _

lemma reloadBat_put (l : ReloadLoop) (i : Fin 8) :
    reloadBat k (l.put o) i = (reloadBat k l i).put o := by
  have hret : (l.put o).returned = l.returned := rfl
  have hbat : ∀ isData, (l.put o).s.bat isData i = l.s.bat isData i :=
    fun isData => EmuState.put_bat _ _ isData i
  have htype : (l.put o).s.consoleType = l.s.consoleType := rfl
  simp only [reloadBat, hret, hbat, htype]
  cases l.returned with
  | true => rfl
  | false =>
    cases (l.s.bat false i).isZero && (l.s.bat true i).isZero with
    | true => rfl
    | false =>
      cases l.s.consoleType with
      | gamecube => exact reloadBoth_put gcnPath i l
      | wii => exact reloadBoth_put wiiPath i l
      | other => rfl

lemma memReloadMap_put (vaddr : Word) :
    memReloadMap k vaddr (s.put o) = (memReloadMap k vaddr s).put o := by
  have hloop : (batIndices s.maxBAT).foldl (reloadBat k) (ReloadLoop.put ⟨s,vaddr,false⟩ o) =
      ((batIndices s.maxBAT).foldl (reloadBat k) ⟨s,vaddr,false⟩).put o :=
    List.foldl_hom (fun l : ReloadLoop => l.put o) reloadBat_put
  exact congrArg ReloadLoop.s hloop

lemma unmapAll_put : unmapAll (s.put o) = (unmapAll s).put o :=
  List.foldl_hom (fun s : EmuState => s.put o) (fun _ _ => rfl)

lemma mapPhys_put (ram : Ram) : mapPhys k ram (s.put o) = (mapPhys k ram s).put o := by
  unfold mapPhys
  change (if (s.host.mmap k ram (ramPaddr ram) (s.mem.size ram) true).1 = mapFailed then _ else _) =
    EmuState.put (if _ then _ else _) o
  split_ifs <;> rfl

lemma mapReal_put : mapReal k (s.put o) = (mapReal k s).put o := by
  simp only [mapReal, EmuState.put_consoleType, mapPhys_put, EmuState.put_mem]
  cases s.consoleType with
  | gamecube => rfl
  | wii =>
    dsimp only
    split_ifs <;> rfl
  | other => rfl

lemma fixupsEntry_put (oldMsr : Word) :
    fixupsEntry oldMsr (s.put o) = (fixupsEntry oldMsr s).put o := rfl

theorem memMapFixups_put (vaddr oldMsr : Word) :
    memMapFixups k vaddr oldMsr (s.put o) = (memMapFixups k vaddr oldMsr s).put o := by
  simp only [memMapFixups, reloadStart, fixupsEntry_put, EmuState.put_msr, unmapAll_put,
    mapReal_put]
  split_ifs
  · rfl
  · rfl
  · exact memReloadMap_put vaddr
  · exact memReloadMap_put vaddr
  · rfl

/-! The instructions: their conditions read nothing of what is outside. -/

lemma ite_put {c c' : Prop} [Decidable c] [Decidable c'] {t u t' u' : EmuState} (hc : c ↔ c')
    (ht : t = t'.put o) (hu : u = u'.put o) :
    (if c then t else u) = (if c' then t' else u').put o := by
  by_cases h : c
  · rw [if_pos h, if_pos (hc.mp h), ht]
  · rw [if_neg h, if_neg (fun h' => h (hc.mpr h')), hu]

lemma ite_snd_put {c c' : Prop} [Decidable c] [Decidable c'] {t u t' u' : Word × EmuState}
    (hc : c ↔ c') (ht : t.2 = t'.2.put o) (hu : u.2 = u'.2.put o) :
    (if c then t else u).2 = (if c' then t' else u').2.put o := by
  rw [apply_ite Prod.snd, apply_ite Prod.snd]
  exact ite_put hc ht hu

lemma validateMsr_put : validateMsr (s.put o) = (validateMsr s).put o :=
  ite_put Iff.rfl rfl (ite_put Iff.rfl rfl rfl)

/-- The decrementer behind a write of an SPR. -/
def sprDecrementer (spr : ℕ) (val old : Word) : Word := if spr = sprDec then val else old

lemma mtsprOther_put (spr : ℕ) (val : Word) : mtsprOther spr val (s.put o) =
    (mtsprOther spr val s).put
      { o with decrementer := sprDecrementer spr val o.decrementer } := by
  unfold sprDecrementer
  by_cases hdec : spr = sprDec
  · subst hdec
    rfl
  · rw [if_neg hdec]
    unfold mtsprOther
    dsimp only
    rw [if_neg hdec, if_neg hdec]
    repeat' apply ite_put Iff.rfl
    all_goals rfl

lemma mtspr_put (spr : ℕ) (val : Word) : mtspr spr val (s.put o) =
    (mtspr spr val s).put { o with decrementer := sprDecrementer spr val o.decrementer } := by
  cases hbat : batSpr spr with
  | none =>
    simp only [mtspr, hbat]
    exact mtsprOther_put spr val
  | some x =>
    obtain ⟨reg,high⟩ := x
    have hdec : spr ≠ sprDec := by
      rintro rfl
      contradiction
    simp only [mtspr, hbat, sprDecrementer, if_neg hdec]
    refine ite_put Iff.rfl rfl ?_
    cases reg <;> rfl

lemma mfspr_put (spr : ℕ) : (mfspr spr (s.put o)).2 = (mfspr spr s).2.put o := by
  cases hbat : batSpr spr with
  | none =>
    simp only [mfspr, hbat, mfsprOther]
    repeat' apply ite_snd_put Iff.rfl
    all_goals rfl
  | some x =>
    obtain ⟨reg,high⟩ := x
    simp only [mfspr, hbat]
    exact ite_snd_put Iff.rfl rfl rfl

/-- The decrementer behind an instruction. -/
def Emulated.decrementer (ctx : Context) (old : Word) : Emulated → Word
  | .mtspr spr regSrc => sprDecrementer spr (ctx.gpr regSrc) old
  | _ => old

theorem emulate_put (op : Emulated) (ctx : Context) : (emulate op (s.put o) ctx).1 =
    (emulate op s ctx).1.put { o with decrementer := op.decrementer ctx o.decrementer } := by
  cases op with
  | mfspr regDest spr => exact mfspr_put spr
  | mtspr spr regSrc => exact mtspr_put spr _
  | mtmsr regSrc => exact validateMsr_put (s := { s with cpu := { s.cpu with msr := _ } })
  | rfi =>
    exact validateMsr_put
      (s := { s with cpu := { s.cpu with msr := rfiMsr s.cpu }, needsMemMapUpdate := true })
  | _ => rfl

/-- The decrementer behind the handler. -/
def Trap.decrementer (e : Trap) (old : Word) : Word := (decodeIllegal e.val).decrementer e.ctx old

theorem handled_put (e : Trap) : handled k (s.put o) e =
    (handled k s e).put { o with decrementer := e.decrementer o.decrementer } := by
  have hemulated : emulated (s.put o) e =
      (emulated s e).put { o with decrementer := e.decrementer o.decrementer } :=
    emulate_put _ e.ctx
  simp only [handled, hemulated, EmuState.put_msr]
  change (if (emulated s e).needsMemMapUpdate then _ else _) = _
  split_ifs
  · exact memMapFixups_put _ _
  · rfl

/-- Of what is outside, an instruction changes the decrementer alone. -/
theorem handled_outside (e : Trap) : (handled k s e).outside =
    { s.outside with decrementer := e.decrementer s.cpu.decrementer } := by
  have h := congrArg EmuState.outside (handled_put (k := k) (s := s) (o := s.outside) e)
  exact h

end

end DolTools
