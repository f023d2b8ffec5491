import DolTools.Emu.Machine
import DolTools.Library.MapLog
import DolTools.Mem.Slots

/-! The address space of the process in the runs of the emulator: it is what the calls of `mmap`
and `munmap` so far have made of it, and every window is a whole RAM of the console. -/
namespace DolTools
open MapLog Runs

/-- What a call does to the address space, behind older ones. -/
def HostCall.effect (k : Kernel) (older : List HostCall) : HostCall → Option (Op Backing)
  | .mmap ram addr size exec =>
    if k.mmapSucceeds older (.mmap ram addr size exec) then
      some (.map addr.toNat size.toNat (fun o => ⟨ram,o,exec⟩))
    else none
  | .munmap addr size => some (.unmap addr.toNat size.toNat)
  | .fixups _ _ => none

def effects (k : Kernel) : List HostCall → List (Op Backing)
  | [] => []
  | call::older => (call.effect k older).toList ++ effects k older

/-- The address space is that of the log, and each `mmap` in it is of a whole RAM. -/
structure Logged (k : Kernel) (rams : List Ram) (size : Ram → Word) (h : Host) : Prop where
  space : h.space = replay (effects k h.calls)
  whole : ∀ ram addr len exec, .mmap ram addr len exec ∈ h.calls → ram ∈ rams ∧ len = size ram

/-- A mapping operation comes from a call of `mmap`. -/
lemma mem_effects {k : Kernel} {calls : List HostCall} {base len : ℕ} {item : ℕ → Backing}
    (h : .map base len item ∈ effects k calls) : ∃ ram addr size exec,
      .mmap ram addr size exec ∈ calls ∧ base = addr.toNat ∧ len = size.toNat ∧
        item = fun o => ⟨ram,o,exec⟩ := by
  induction calls with
  | nil => contradiction
  | cons call older ih =>
    rcases List.mem_append.mp h with hcall | holder
    · cases call with
      | mmap ram addr size exec =>
        rw [HostCall.effect] at hcall
        split_ifs at hcall
        · obtain ⟨rfl,rfl,rfl⟩ := Op.map.inj (List.mem_singleton.mp hcall)
          exact ⟨ram,addr,size,exec,List.mem_cons_self,rfl,rfl,rfl⟩
        · contradiction
      | munmap addr size =>
        have heq := List.mem_singleton.mp hcall
        contradiction
      | fixups oldMsr msr => contradiction
    · obtain ⟨ram,addr,size,exec,hcall,hrest⟩ := ih holder
      exact ⟨ram,addr,size,exec,List.mem_cons_of_mem _ hcall,hrest⟩

def EmuState.Logged (k : Kernel) (s : EmuState) : Prop :=
  DolTools.Logged k (consoleRams s.consoleType) s.mem.size s.host

section

variable {k : Kernel} {rams : List Ram} {size : Ram → Word} {h : Host} {ram : Ram}
  {addr len : Word} {exec : Bool}

lemma Logged.mmap (hl : Logged k rams size h) (hram : ram ∈ rams) :
    Logged k rams size (h.mmap k ram addr (size ram) exec).2 := by
  constructor
  · rw [Host.mmap_calls, effects, HostCall.effect]
    by_cases hk : k.mmapSucceeds h.calls (.mmap ram addr (size ram) exec)
    · rw [(Host.mmap_of_succeeds hk).2, if_pos hk, hl.space]
      rfl
    · rw [(Host.mmap_of_fails hk).2, if_neg hk, hl.space]
      rfl
  · intro ram' addr' len' exec' hcall
    rw [Host.mmap_calls] at hcall
    rcases List.mem_cons.mp hcall with heq | hcall
    · obtain ⟨rfl,-,rfl,-⟩ := HostCall.mmap.inj heq
      exact ⟨hram,rfl⟩
    · exact hl.whole _ _ _ _ hcall

lemma Logged.munmapSlot (hl : Logged k rams size h) :
    Logged k rams size (munmapSlot addr len h) := by
  unfold DolTools.munmapSlot
  split
  · constructor
    · change h.space.unmapRange _ _ = _
      rw [hl.space]
      rfl
    · intro ram' addr' len' exec' hcall
      rcases List.mem_cons.mp hcall with heq | hcall
      · contradiction
      · exact hl.whole _ _ _ _ hcall
  · exact hl

lemma Logged.fixups {oldMsr msr : Word} (hl : Logged k rams size h) :
    Logged k rams size (h.log (.fixups oldMsr msr)) := by
  constructor
  · exact hl.space
  · intro ram' addr' len' exec' hcall
    rcases List.mem_cons.mp hcall with heq | hcall
    · contradiction
    · exact hl.whole _ _ _ _ hcall

end

section

variable {k : Kernel} {hw : Hardware} {bail : BailOut} {env : BootEnv} {s t : EmuState}
  {vaddr oldMsr : Word} {ram : Ram} {i : Fin 8} {exec fatal : Bool} {es : List Signal}

lemma EmuState.Logged.congr (h : s.Logged k) (hc : t.consoleType = s.consoleType)
    (hsize : t.mem.size = s.mem.size) (hhost : t.host = s.host) : t.Logged k := by
  rw [EmuState.Logged, hc, hsize, hhost]
  exact h

/-! A call of `E_MemMapFixups`. -/

lemma logged_mapWindow (h : s.Logged k) (hram : ram ∈ consoleRams s.consoleType) :
    (mapWindow k ram i vaddr exec fatal s).s.Logged k := by
  have hstep : MapStep s (mapWindow k ram i vaddr exec fatal s).s := mapWindow_mapStep
  have hhost : (mapWindow k ram i vaddr exec fatal s).s.host =
      (s.host.mmap k ram vaddr (s.mem.size ram) exec).2 := by
    simp only [mapWindow]
    split <;> rfl
  rw [EmuState.Logged, hstep.consoleType, hstep.size, hhost]
  exact Logged.mmap h hram

lemma logged_mapPhys (h : s.Logged k) (hram : ram ∈ consoleRams s.consoleType) :
    (mapPhys k ram s).Logged k := by
  have hstep : MapStep s (mapPhys k ram s) := mapPhys_mapStep
  have hhost : (mapPhys k ram s).host =
      (s.host.mmap k ram (ramPaddr ram) (s.mem.size ram) true).2 := by
    simp only [mapPhys]
    split <;> rfl
  rw [EmuState.Logged, hstep.consoleType, hstep.size, hhost]
  exact Logged.mmap h hram

lemma logged_mapReal (h : s.Logged k) : (mapReal k s).Logged k := by
  unfold mapReal
  cases hc : s.consoleType with
  | gamecube => exact logged_mapPhys h (by simp [hc, consoleRams])
  | wii =>
    have hfirst : (mapPhys k .mem1 s).Logged k := logged_mapPhys h (by simp [hc, consoleRams])
    dsimp only
    split
    · exact hfirst
    · have hstep : MapStep s (mapPhys k .mem1 s) := mapPhys_mapStep
      refine logged_mapPhys hfirst ?_
      rw [hstep.consoleType, hc]
      simp [consoleRams]
  | other => exact h.congr rfl rfl rfl

lemma logged_unmapAll (h : s.Logged k) : (unmapAll s).Logged k := by
  unfold unmapAll
  generalize batIndices s.maxBAT = is
  induction is generalizing s with
  | nil => exact h
  | cons i is ih =>
    apply ih
    exact Logged.munmapSlot (Logged.munmapSlot (Logged.munmapSlot (Logged.munmapSlot h)))

lemma logged_memReloadMap (h : s.Logged k) : (memReloadMap k vaddr s).Logged k := by
  apply memReloadMap_invariant h
  intro l e _ _ hl
  rcases reloadEntry_cases k l e with ⟨ram,htarget,heq⟩ | ⟨-,heq,-⟩ | ⟨-,heq,-⟩
  · obtain ⟨-,-,hram,-⟩ := reloadTarget_eq_some.mp htarget
    rw [heq]
    exact logged_mapWindow hl (ramOf_spec hram).1
  · rwa [heq]
  · rw [heq]
    exact hl.congr rfl rfl rfl

lemma logged_fixupsEntry (h : s.Logged k) : (fixupsEntry oldMsr s).Logged k := Logged.fixups h

theorem logged_memMapFixups (h : s.Logged k) : (memMapFixups k vaddr oldMsr s).Logged k := by
  have hentry : (fixupsEntry oldMsr s).Logged k := logged_fixupsEntry h
  unfold memMapFixups
  split_ifs
  · exact hentry.congr rfl rfl rfl
  · exact logged_mapReal (logged_unmapAll hentry)
  · apply logged_memReloadMap
    unfold reloadStart
    split_ifs
    · exact logged_unmapAll hentry
    · exact hentry
  · exact hentry

/-! From `main` on. -/

lemma logged_memInit (k : Kernel) (env : BootEnv) :
    (memInit k env.vaddr env.mem (bootStart env)).2.Logged k := by
  have hfresh : (bootStart env).host = Host.fresh := by
    unfold bootStart timerInit
    cases env.timer <;> rfl
  have hregions : (memRegions env.mem (bootStart env)).2.Logged k := by
    rw [EmuState.Logged, (memRegions_step env.mem (bootStart env)).host, hfresh]
    exact ⟨rfl,fun _ _ _ _ hcall => absurd hcall List.not_mem_nil⟩
  by_cases h : MemInitSucceeds k env
  · rw [memInit_of_succeeds h]
    exact logged_memMapFixups hregions
  · rwa [memInit_of_fails h]

lemma InitStep.logged (h : InitStep s t) (hs : s.Logged k) : t.Logged k :=
  hs.congr h.map.consoleType h.map.size h.map.host

theorem logged_boot (h : boot k env = some s) : s.Logged k := by
  obtain ⟨u,hu,-,-,hs⟩ := boot_eq_some h
  have hlogged : u.Logged k := hu.logged (logged_memInit k env)
  apply hs.logged
  unfold bootRemap
  split_ifs
  · exact logged_memMapFixups (hlogged.congr rfl rfl rfl)
  · exact hlogged

lemma logged_handled (e : Trap) (h : s.Logged k) : (handled k s e).Logged k := by
  have hstep := emulate_cpuStep (decodeIllegal e.val) s e.ctx
  have hemulated : (emulated s e).Logged k :=
    h.congr hstep.consoleType (congrArg MemState.size hstep.mem) hstep.host
  unfold handled
  split_ifs
  · exact logged_memMapFixups hemulated
  · exact hemulated

/-- A byte that is shown belongs to a window that was mapped as a whole. -/
lemma EmuState.Logged.shown {a : ℕ} {x : Backing} (h : s.Logged k)
    (hx : s.host.space a = some x) : x.ram ∈ consoleRams s.consoleType ∧
      x.offset < (s.mem.size x.ram).toNat ∧ ∃ addr,
        .mmap x.ram addr (s.mem.size x.ram) x.exec ∈ s.host.calls ∧ a = addr.toNat + x.offset := by
  rw [Logged.space h] at hx
  obtain ⟨newer,base,len,item,older,heq,hlow,hhigh,rfl,-⟩ := replay_eq_some.mp hx
  have hmem : .map base len item ∈ effects k s.host.calls := by
    rw [heq]
    exact List.mem_append_right _ List.mem_cons_self
  obtain ⟨ram,addr,size,exec,hcall,rfl,rfl,rfl⟩ := mem_effects hmem
  obtain ⟨hram,rfl⟩ := Logged.whole h _ _ _ _ hcall
  exact ⟨hram,by dsimp only; omega,addr,hcall,by dsimp only; omega⟩

theorem logged_of_run (h : s.Logged k)
    (hrun : Run (machineStep k hw bail) (fun _ _ => True) s es t) : t.Logged k := by
  apply hrun.invariant h
  intro s' e t' hs' _ hnext
  cases machineStep_eq_some.mp hnext with
  | sigill e ok => exact logged_handled e hs'
  | sigsegv f ok =>
    rw [faultStep_faulted.rest]
    exact hs'.congr rfl rfl rfl
  | sigalrm mem back =>
    rw [sigalrmHandler_tickStep.rest]
    exact hs'.congr rfl rfl rfl

/-- In every state of every run from `main` on, an address shows what the newest call that covers
it has mapped there. The calls map whole RAMs of the console, so no byte of the guest lies
outside them. -/
theorem host_of_run (hboot : boot k env = some s)
    (hrun : Run (machineStep k hw bail) (fun _ _ => True) s es t) :
    (∀ a x, t.host.space a = some x ↔ ∃ newer base len item older,
      effects k t.host.calls = newer ++ .map base len item::older ∧ base ≤ a ∧ a < base + len ∧
        item (a - base) = x ∧ ∀ op ∈ newer, ¬ op.Covers a) ∧
    (∀ ram addr len exec, .mmap ram addr len exec ∈ t.host.calls →
      ram ∈ consoleRams t.consoleType ∧ len = t.mem.size ram) ∧
    ∀ a x, t.host.space a = some x → x.ram ∈ consoleRams t.consoleType ∧
      x.offset < (t.mem.size x.ram).toNat ∧ ∃ addr,
        .mmap x.ram addr (t.mem.size x.ram) x.exec ∈ t.host.calls ∧
          a = addr.toNat + x.offset := by
  have ht : t.Logged k := logged_of_run (logged_boot hboot) hrun
  refine ⟨?_,Logged.whole ht,fun a x => ht.shown⟩
  intro a x
  rw [Logged.space ht]
  exact replay_eq_some

end

/-- On a GameCube nothing shows MEM2, also behind a BAT that maps MEM1 once more. -/
theorem host_of_run_trial : ¬ ∃ a x, trialEnd.host.space a = some x ∧ x.ram = .mem2 := by
  rintro ⟨a,x,hx,hram⟩
  obtain ⟨-,-,hshown⟩ := host_of_run (boot_eq_started (by decide)) trialEnd_run
  have hmem := (hshown a x hx).1
  rw [hram] at hmem
  revert hmem
  decide

end DolTools
