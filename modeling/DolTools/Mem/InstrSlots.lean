import DolTools.Mem.Init
import DolTools.Mem.PassStart

/-! Whether a data mapping replaces an instruction mapping. The guard of a data BAT looks for its
base among the slots of the RAM it names, while `mmap` replaces a window of the size of that
RAM. -/
namespace DolTools
open Runs AddressMap

/-- A byte of the live mapping that the slot of an instruction BAT records. -/
def EmuState.LiveInstr (s : EmuState) (ram : Ram) (j : Fin 8) (a : ℕ) : Prop :=
  s.InSlot ram (j,false) a ∧
    s.host.space a = some ⟨ram,a - (s.mem.slot ram (j,false)).toNat,true⟩

/-- No `mmap` that the entry issues, if it is a data BAT, covers such a byte. -/
def KeepsInstr (k : Kernel) (l : ReloadLoop) (e : BatRef) : Prop :=
  e.2 = true → ∀ new, (reloadEntry k l e).s.host.calls = new ++ l.s.host.calls →
    ∀ ram addr size exec, HostCall.mmap ram addr size exec ∈ new →
      ∀ a, addr.toNat ≤ a ∧ a < addr.toNat + size.toNat → ∀ ram' j, ¬ l.s.LiveInstr ram' j a

/-- A call of `E_MemReloadMap`, each entry in the state in which the loop comes to it. -/
def PassKeepsInstr (k : Kernel) (vaddr : Word) (s : EmuState) : Prop :=
  LoopGuard (reloadEntry k) (KeepsInstr k) ⟨s,vaddr,false⟩ (reloadOrder s.maxBAT)

/-- The entry is no data BAT, or is not mapped anew, or the window from its base on has no byte
of a live instruction mapping. -/
def WindowClear (l : ReloadLoop) (e : BatRef) : Prop :=
  e.2 = true → ∀ ram, reloadTarget l e = some ram →
    ∀ a, (l.s.batOf e).bepi.toNat ≤ a ∧ a < (l.s.batOf e).bepi.toNat + (l.s.mem.size ram).toNat →
      ∀ ram' j, ¬ l.s.LiveInstr ram' j a

section

variable {k : Kernel} {l : ReloadLoop} {e : BatRef} {ram : Ram}

/-- The calls of an entry: one `mmap` of the RAM that it maps anew. -/
theorem reloadEntry_calls (k : Kernel) (l : ReloadLoop) (e : BatRef) :
    (reloadEntry k l e).s.host.calls = ((reloadTarget l e).map (fun ram =>
      HostCall.mmap ram (l.s.batOf e).bepi (l.s.mem.size ram) (!e.2))).toList ++
        l.s.host.calls := by
  rcases reloadEntry_cases k l e with ⟨ram,htarget,heq⟩ | ⟨htarget,heq,-⟩ | ⟨htarget,heq,-⟩
  · rw [heq, htarget, mapWindow_calls]
    rfl
  · rw [heq, htarget]
    rfl
  · rw [heq, htarget]
    rfl

theorem keepsInstr_iff : KeepsInstr k l e ↔ WindowClear l e := by
  unfold KeepsInstr WindowClear
  rw [reloadEntry_calls]
  constructor
  · intro h hdata ram htarget
    apply h hdata _ rfl ram _ _ (!e.2)
    rw [htarget]
    exact List.mem_singleton_self _
  · intro h hdata new hnew ram addr size exec hmem
    obtain rfl := List.append_cancel_right hnew
    obtain ⟨ram',htarget,hcall⟩ := Option.map_eq_some_iff.mp (Option.mem_toList.mp hmem)
    obtain ⟨rfl,rfl,rfl,-⟩ := HostCall.mmap.inj hcall
    exact h hdata ram' htarget

end

/-- The data BAT may be mapped anew: no slot of its RAM keeps its base. -/
def MapsData (s : EmuState) (i : Fin 8) (ram : Ram) : Prop :=
  NamesRam s (i,true) ram ∧ ∀ e, ¬ Keeps s s.mem.slot ram e (s.batOf (i,true)).bepi

/-- In the tables and slots as they are before a pass, the window of a data BAT that may be mapped
anew is apart from those of the instruction BATs that have their turn before, and clear of the live
instruction mappings, but for those of its own RAM at its own base, which its test sees. -/
structure DataApart (s : EmuState) : Prop where
  live : ∀ i ram, MapsData s i ram → ∀ a, (s.batOf (i,true)).bepi.toNat ≤ a ∧
    a < (s.batOf (i,true)).bepi.toNat + (s.mem.size ram).toNat → ∀ ram' j, s.LiveInstr ram' j a →
      ram' = ram ∧ s.HasBat j ∧ s.mem.slot ram' (j,false) = (s.batOf (i,true)).bepi
  table : ∀ i ram, MapsData s i ram → ∀ j ≤ i, ∀ ram', NamesRam s (j,false) ram' →
    (ram' = ram ∧ (s.batOf (j,false)).bepi = (s.batOf (i,true)).bepi) ∨
      Apart (s.batOf (i,true)).bepi.toNat (s.mem.size ram).toNat
        (s.batOf (j,false)).bepi.toNat (s.mem.size ram').toNat

/-- The byte lies in the window of an instruction BAT that has been mapped in this pass, and
whose slot records it. -/
def MappedByPass (start : EmuState) (pre : List BatRef) (s : EmuState) (ram : Ram) (a : ℕ) : Prop :=
  ∃ j, (j,false) ∈ pre ∧ NamesRam start (j,false) ram ∧
    s.mem.slot ram (j,false) = (start.batOf (j,false)).bepi ∧
    (start.batOf (j,false)).bepi.toNat ≤ a ∧
    a < (start.batOf (j,false)).bepi.toNat + (start.mem.size ram).toNat

/-- The invariant of a pass: executable bytes are old, or come from the instruction BATs done so
far. -/
def InstrLoop (start : EmuState) (pre : List BatRef) (l : ReloadLoop) : Prop :=
  ∀ a x, l.s.host.space a = some x → x.exec = true →
    start.host.space a = some x ∨ MappedByPass start pre l.s x.ram a

section

variable {k : Kernel} {l : ReloadLoop} {e : BatRef} {ram : Ram} {s start : EmuState}
  {pre post : List BatRef} {vaddr : Word}

/-- A byte mapped by an entry of the pass stays so: no other entry writes its slot. -/
lemma MappedByPass.snoc {t : EmuState} {a : ℕ} (h : MappedByPass start pre s ram a)
    (he : e ∉ pre) (hslot : ∀ ram' e', e' ≠ e → t.mem.slot ram' e' = s.mem.slot ram' e') :
    MappedByPass start (pre ++ [e]) t ram a := by
  obtain ⟨j,hj,hnames,hbase,hin⟩ := h
  have hne : (j,false) ≠ e := fun heq => he (heq ▸ hj)
  exact ⟨j,List.mem_append_left _ hj,hnames,(hslot ram _ hne).trans hbase,hin⟩

lemma instrLoop_of_no_target (h : InstrLoop start pre l) (he : e ∉ pre)
    (htarget : reloadTarget l e = none) : InstrLoop start (pre ++ [e]) (reloadEntry k l e) := by
  have hmem := reloadEntry_keeps_of_no_target (k := k) htarget
  intro a x hx hexec
  rw [reloadEntry_space_of_no_target htarget] at hx
  refine (h a x hx hexec).imp_right (fun hp => hp.snoc he ?_)
  intro _ _ _
  rw [hmem]

lemma instrLoop_of_target (hstep : MapStep start l.s) (h : InstrLoop start pre l)
    (hbat : start.HasBat e.1) (he : e ∉ pre) (htarget : reloadTarget l e = some ram) :
    InstrLoop start (pre ++ [e]) (reloadEntry k l e) := by
  have hnames := names_of_target hstep hbat htarget
  obtain ⟨v,hslot,hwindow⟩ := reloadEntry_window (k := k) htarget
  have hother : ∀ ram' e', e' ≠ e →
      (reloadEntry k l e).s.mem.slot ram' e' = l.s.mem.slot ram' e' := by
    intro ram' e' hne
    rw [hslot, if_neg (fun heq => hne heq.2)]
  rw [hstep.batOf, hstep.size] at hwindow
  intro a x hx hexec
  have hold : l.s.host.space a = some x → start.host.space a = some x ∨
      MappedByPass start (pre ++ [e]) (reloadEntry k l e).s x.ram a :=
    fun hx => (h a x hx hexec).imp_right (fun hp => hp.snoc he hother)
  rcases hwindow with ⟨-,hspace⟩ | ⟨hv,hspace⟩
  · exact hold (hspace ▸ hx)
  · rw [hspace] at hx
    rcases mapRange_eq_some hx with ⟨⟨hlow,hhigh⟩,rfl⟩ | hx
    · -- a byte of the new window, which is executable only for an instruction BAT
      obtain ⟨j,isData⟩ := e
      cases isData with
      | true => contradiction
      | false =>
        refine .inr ⟨j,by simp,hnames,?_,hlow,hhigh⟩
        rw [hslot, if_pos ⟨rfl,rfl⟩, hv]
    · exact hold hx

lemma instrLoop_before (h : reloadOrder s.maxBAT = pre ++ post) :
    InstrLoop s pre (pre.foldl (reloadEntry k) ⟨s,vaddr,false⟩) := by
  have hnodup := reloadOrder_nodup s.maxBAT
  refine foldl_invariant (P := fun _ _ => True) (fun _ _ _ _ => trivial)
    (fun a x hx _ => .inl hx) ?_
  intro es e rest hes hloop _
  have horder : reloadOrder s.maxBAT = es ++ (e::rest ++ post) := by
    rw [h, hes, List.append_assoc]
  have hstart : StartLoop s vaddr es (es.foldl (reloadEntry k) ⟨s,vaddr,false⟩) :=
    startLoop_before horder
  have hbat : s.HasBat e.1 := mem_reloadOrder.mp (by rw [h, hes]; simp)
  rw [h, hes, List.append_assoc, List.nodup_append] at hnodup
  have he : e ∉ es := fun he => hnodup.2.2 e he e (by simp) rfl
  cases htarget : reloadTarget (es.foldl (reloadEntry k) ⟨s,vaddr,false⟩) e with
  | none => exact instrLoop_of_no_target hloop he htarget
  | some ram => exact instrLoop_of_target hstart.step hloop hbat he htarget

/-- The test of a data BAT sees its base in the slots of its RAM: where it maps anew, no
instruction BAT of that RAM is recorded there. -/
lemma slot_ne_of_target {i j : Fin 8} (hstep : MapStep start l.s)
    (htarget : reloadTarget l (i,true) = some ram) (hj : start.HasBat j) :
    l.s.mem.slot ram (j,false) ≠ (start.batOf (i,true)).bepi := by
  intro heq
  have hfound : alreadyMapped l (i,true) ram = true :=
    alreadyMapped_data_of_slot (b := (j,false)) hstep hj heq
  exact no_target_of_alreadyMapped hfound htarget

/-- A data BAT that is mapped anew was so to be expected. -/
lemma mapsData_of_target {i : Fin 8} (h : StartLoop start vaddr pre l) (hbat : start.HasBat i)
    (htarget : reloadTarget l (i,true) = some ram) : MapsData start i ram := by
  obtain ⟨hret,-,-,-⟩ := reloadTarget_eq_some.mp htarget
  refine ⟨names_of_target h.step hbat htarget,?_⟩
  intro e hkeeps
  have hfound : alreadyMapped l (i,true) ram = true :=
    alreadyMapped_data_of_slot h.step hkeeps.bat (h.keeps hret hkeeps)
  exact no_target_of_alreadyMapped hfound htarget

/-- The window of a data BAT that is mapped anew does not meet that of a recorded instruction
BAT. -/
lemma not_meets_of_table {i j : Fin 8} {ram' : Ram} {a : ℕ} (h : DataApart start)
    (hstep : MapStep start l.s) (hmaps : MapsData start i ram)
    (htarget : reloadTarget l (i,true) = some ram) (hji : j ≤ i)
    (hnames : NamesRam start (j,false) ram')
    (hbase : l.s.mem.slot ram' (j,false) = (start.batOf (j,false)).bepi)
    (hin : (start.batOf (i,true)).bepi.toNat ≤ a ∧
      a < (start.batOf (i,true)).bepi.toNat + (start.mem.size ram).toNat) :
    ¬ ((start.batOf (j,false)).bepi.toNat ≤ a ∧
      a < (start.batOf (j,false)).bepi.toNat + (start.mem.size ram').toNat) := by
  rcases h.table i ram hmaps j hji ram' hnames with ⟨rfl,heq⟩ | hapart
  · exact absurd (hbase.trans heq) (slot_ne_of_target hstep htarget hnames.bat)
  · rintro ⟨hlow,hhigh⟩
    rcases hapart with hapart | hapart <;> omega

lemma windowClear_of_dataApart (h : DataApart start) (hstart : StartLoop start vaddr pre l)
    (hloop : InstrLoop start pre l) (horder : reloadOrder start.maxBAT = pre ++ e::post) :
    WindowClear l e := by
  intro hdata ram htarget a hin ram' j hlive
  obtain ⟨i,isData⟩ := e
  obtain rfl : isData = true := hdata
  have hbat : start.HasBat i := mem_reloadOrder.mp
    (show (i,true) ∈ reloadOrder start.maxBAT by rw [horder]; simp)
  have hmaps := mapsData_of_target hstart hbat htarget
  have hdone : ∀ j', (j',false) ∈ pre → j' ≤ i := by
    intro j' hj'
    obtain ⟨-,hlt | ⟨heq,-⟩⟩ := (mem_pre_iff horder).mp hj'
    · exact hlt.le
    · exact heq.le
  obtain ⟨⟨hne,hslot⟩,hspace⟩ := hlive
  rw [hstart.step.batOf, hstart.step.size] at hin
  rw [hstart.step.size] at hslot
  rcases hloop a _ hspace rfl with hold | ⟨j',hj',hnames',hbase,hwindow⟩
  · rcases hstart.slot ram' (j,false) with hkept | ⟨hj,hnames',hbase | ⟨hfailed,-⟩⟩
    · rw [hkept] at hne hslot hold
      obtain ⟨rfl,hj,heq⟩ := h.live i ram hmaps a hin ram' j ⟨⟨hne,hslot⟩,hold⟩
      exact slot_ne_of_target hstart.step htarget hj (hkept.trans heq)
    · rw [hbase] at hslot
      exact not_meets_of_table h hstart.step hmaps htarget (hdone j hj) hnames' hbase hin hslot
    · exact hne hfailed
  · exact not_meets_of_table h hstart.step hmaps htarget (hdone j' hj') hnames' hbase hin hwindow

end

/-- The windows of the data BATs are apart from those of all instruction BATs, with the same
exception. -/
def TablesApart (s : EmuState) : Prop :=
  ∀ i ram, NamesRam s (i,true) ram → ∀ j ram', NamesRam s (j,false) ram' →
    (ram' = ram ∧ (s.batOf (j,false)).bepi = (s.batOf (i,true)).bepi) ∨
      Apart (s.batOf (i,true)).bepi.toNat (s.mem.size ram).toNat
        (s.batOf (j,false)).bepi.toNat (s.mem.size ram').toNat

/-- The default tables are such, before anything is mapped. -/
theorem dataApart_of_regions {msr : Word} {s : EmuState}
    (h : Regions { CpuState.zero with msr := msr } s) (hspace : ∀ a, s.host.space a = none) :
    DataApart s := by
  have hcongr : ∀ {t : EmuState}, SameTables t s → TablesApart t → TablesApart s := by
    intro t hsame ht i ram hi j ram' hj
    rw [hsame.batOf, hsame.batOf, hsame.size]
    exact ht i ram (hsame.namesRam.mp hi) j ram' (hsame.namesRam.mp hj)
  refine ⟨?_,?_⟩
  · intro i ram _ a _ ram' j hlive
    have hmapped := hlive.2
    rw [hspace] at hmapped
    contradiction
  · suffices htables : TablesApart s from
      fun i ram hmaps j _ ram' hnames => htables i ram hmaps.1 j ram' hnames
    rcases h.sameTables with hsame | hsame
    · refine hcongr hsame (fun i ram hi j ram' hj => ?_)
      cases ram <;> cases ram' <;> revert i j <;> decide
    · refine hcongr hsame (fun i ram hi j ram' hj => ?_)
      cases ram <;> cases ram' <;> revert i j <;> decide

/-- A GameCube with nothing mapped, the default instruction BAT, and a data BAT for 16 MiB of MEM1
inside its window. -/
def overlapTables : EmuState :=
  { EmuState.zero with
    consoleType := .gamecube
    maxBAT := 4
    mem := ⟨fun _ _ => mapFailed,fun _ _ => mapFailed,fun _ => 0x01800000#32,fun _ => 3,0⟩
    cpu := { CpuState.zero with
      ibatu := Function.update (fun _ => 0) 0 0x80001FFF#32
      ibatl := Function.update (fun _ => 0) 0 0x00000002#32
      dbatu := Function.update (fun _ => 0) 0 0x810001FF#32
      dbatl := Function.update (fun _ => 0) 0 0x00000002#32 } }

/-- The default BATs of MEM1 with its instruction mapping live, and a further data BAT. -/
def thirdTables : EmuState :=
  { overlapTables with
    mem := overlapTables.mem.setMapI .mem1 0 0x80000000#32
    host := ⟨AddressMap.empty.mapRange 0x80000000 0x01800000 (fun o => ⟨.mem1,o,true⟩),[]⟩
    cpu := { overlapTables.cpu with
      dbatu := Function.update (Function.update (fun _ => 0) 0 0x80001FFF#32) 2 0x90001FFF#32
      dbatl := Function.update (Function.update (fun _ => 0) 0 0x00000002#32) 2 0x00000002#32 } }

end DolTools
