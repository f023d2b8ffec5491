import DolTools.Library.LastWrite
import DolTools.Mem.ConsolePaths

/-! Where the two console cases agree, read off the tables and slots before a pass. The test of an
instruction BAT can fail only if no BAT is set before it, or a data BAT was the last one; behind
another instruction BAT it finds what that one has left in `vaddr`. -/
namespace DolTools
open Runs LastWrite

/-- An instruction BAT from the limit on that the host refuses. Where it is mapped anew, the
GameCube stops and the Wii goes on. -/
structure RefusedHigh (grants : Word → Bool) (s : EmuState) (i : Fin 8) : Prop where
  set : (s.batOf (i,false)).isZero = false
  high : maxAllowedVaddr ≤ (s.batOf (i,false)).bepi
  refused : grants (s.batOf (i,false)).bepi = false

/-- A BAT below the limit that the host refuses. Where it is mapped anew, both stop. -/
structure RefusedLow (grants : Word → Bool) (s : EmuState) (e : BatRef) : Prop where
  set : (s.batOf e).isZero = false
  low : (s.batOf e).bepi < maxAllowedVaddr
  refused : grants (s.batOf e).bepi = false

/-- What an instruction BAT finds in `vaddr` if no BAT is set before it, or a data BAT was the
last one. -/
inductive Leads (s : EmuState) (vaddr : Word) (i : Fin 8) : Word → Prop
  | first (h : ∀ e, Precedes e (i,false) → (s.batOf e).isZero = true) : Leads s vaddr i vaddr
  | data {j : Fin 8} (before : Precedes (j,true) (i,false))
      (set : (s.batOf (j,true)).isZero = false)
      (last : ∀ e, Precedes (j,true) e → Precedes e (i,false) → (s.batOf e).isZero = true) :
    Leads s vaddr i (s.batOf (j,true)).bepi

/-- The test of the BAT is sure to fail: what it looks for is in no slot before the pass, and is
the base of no earlier instruction BAT. -/
def SurelyNew (s : EmuState) (vaddr : Word) : BatRef → Prop
  | (i,true) => ∀ e, s.mem.slot .mem1 e ≠ (s.batOf (i,true)).bepi
  | (i,false) => ∃ v, Leads s vaddr i v ∧ ∀ j, s.mem.slot .mem1 (j,false) ≠ v ∧
    (j < i → (s.batOf (j,false)).isZero = false → (s.batOf (j,false)).bepi ≠ v)

/-- The test of the BAT is sure to succeed: what it looks for is in a slot that keeps it, or is the
base of an earlier instruction BAT that is granted and sure to be new. -/
def SurelyPassed (grants : Word → Bool) (s : EmuState) (vaddr : Word) : BatRef → Prop
  | (i,true) => ∃ e, Keeps s.onWii s.mem.slot .mem1 e (s.batOf (i,true)).bepi
  | (i,false) => ∀ v, Leads s vaddr i v →
    (∃ j, Keeps s.onWii s.mem.slot .mem1 (j,false) v) ∨
      ∃ j < i, (s.batOf (j,false)).isZero = false ∧ (s.batOf (j,false)).bepi = v ∧
        grants v = true ∧ SurelyNew s vaddr (j,false)

/-- The loop of the Wii behind the entries. -/
def wiiLoop (grants : Word → Bool) (vaddr : Word) (s : EmuState) (pre : List BatRef) :
    ReloadLoop :=
  pre.foldl (reloadEntry (addressKernel grants)) ⟨s.onWii,vaddr,false⟩

/-- The GameCube stops at none of the entries. -/
def NoStop (grants : Word → Bool) (l : ReloadLoop) (es : List BatRef) : Prop :=
  LoopGuard (reloadEntry (addressKernel grants)) (fun l e => ¬ StopsGcn grants l e) l es

section

variable {grants : Word → Bool} {s : EmuState} {vaddr v : Word} {l : ReloadLoop} {e : BatRef}
  {es pre post : List BatRef} {i : Fin 8}

lemma addressKernel_byAddress (grants : Word → Bool) : (addressKernel grants).ByAddress grants :=
  fun _ _ _ _ _ => rfl

lemma namesRam_onWii (htab : Mem1Tables s) (hset : (s.batOf e).isZero = false) :
    NamesRam s.onWii e .mem1 :=
  have hall : ∀ i : Fin 8, s.onWii.HasBat i := by
    change ∀ i : Fin 8, i ∈ batIndices 8
    decide
  ⟨hall e.1,hset,ramOf_onWii htab hset⟩

lemma wiiLoop_start (grants : Word → Bool) (vaddr : Word) (s : EmuState)
    (h : reloadOrder 8 = pre ++ post) :
    StartLoop s.onWii vaddr pre (wiiLoop grants vaddr s pre) := startLoop_before h

lemma wiiLoop_append (pre es : List BatRef) : wiiLoop grants vaddr s (pre ++ es) =
    es.foldl (reloadEntry (addressKernel grants)) (wiiLoop grants vaddr s pre) :=
  List.foldl_append

/-- A loop that has not returned had not before. -/
lemma wiiLoop_not_returned (h : (wiiLoop grants vaddr s (pre ++ es)).returned = false) :
    (wiiLoop grants vaddr s pre).returned = false := by
  by_contra hret
  rw [wiiLoop_append, reloadEntries_of_returned ((Bool.not_eq_false _).mp hret)] at h
  exact hret h

/-- The entries that the Wii has done. -/
lemma mem_done_iff (h : reloadOrder 8 = pre ++ e::post) {a : BatRef} :
    a ∈ pre ↔ Precedes a e := by
  have hall : ∀ i : Fin 8, i ∈ batIndices 8 := by decide
  rw [mem_pre_iff (s := EmuState.zero.onWii) h]
  exact and_iff_right (hall a.1)

/-- What leads to the entry is in `vaddr` at its turn. -/
lemma vaddr_of_leads (h : StartLoop s.onWii vaddr pre l) (hret : l.returned = false)
    (horder : reloadOrder 8 = pre ++ (i,false)::post) (hleads : Leads s vaddr i v) :
    l.vaddr = v := by
  have hpre : ∀ a, a ∈ pre ↔ Precedes a (i,false) := fun a => mem_done_iff horder
  rcases h.vaddr hret with ⟨hv,-,hunset⟩ | ⟨pre₁,e,pre₂,hsplit,hset,hv,hunset⟩
  · cases hleads with
    | first => exact hv
    | data before set =>
      exact absurd ((hunset _ ((hpre _).mpr before) rfl).symm.trans set) (by decide)
  · have he : Precedes e (i,false) := (hpre e).mp (by rw [hsplit]; simp)
    cases hleads with
    | first hno => exact absurd ((hno e he).symm.trans hset) (by decide)
    | @data j before set last =>
      have hsorted := reloadOrder_precedes 8
      rw [horder, hsplit, List.append_assoc, List.pairwise_append] at hsorted
      have hj : (j,true) ∈ pre₁ ++ e::pre₂ := hsplit ▸ (hpre _).mpr before
      rcases List.mem_append.mp hj with hj | hj
      · exact absurd ((last e (hsorted.2.2 _ hj e (by simp)) he).symm.trans hset) (by decide)
      · rcases List.mem_cons.mp hj with rfl | hj
        · exact hv
        · exact absurd ((hunset _ hj rfl).symm.trans set) (by decide)

/-- A base that the pass writes into a slot is granted. -/
lemma wiiLoop_slot (grants : Word → Bool) (vaddr : Word) (s : EmuState) (pre : List BatRef)
    (ram : Ram) (e : BatRef) :
    (wiiLoop grants vaddr s pre).s.mem.slot ram e = s.mem.slot ram e ∨
      (wiiLoop grants vaddr s pre).s.mem.slot ram e = mapFailed ∨
      grants ((wiiLoop grants vaddr s pre).s.mem.slot ram e) = true := by
  revert ram e
  apply reloadEntries_invariant (P := fun t => ∀ ram e, t.mem.slot ram e = s.mem.slot ram e ∨
    t.mem.slot ram e = mapFailed ∨ grants (t.mem.slot ram e) = true)
  · exact fun _ _ => .inl rfl
  · intro l e _ _ h ram e'
    cases htarget : reloadTarget l e with
    | none =>
      rw [reloadEntry_keeps_of_no_target htarget]
      exact h ram e'
    | some ram' =>
      obtain ⟨v,hslot,-⟩ := reloadEntry_window (k := addressKernel grants) htarget
      by_cases heq : ram = ram' ∧ e' = e
      · obtain ⟨rfl,rfl⟩ := heq
        right
        rw [(reloadEntry_byAddress (addressKernel_byAddress grants) htarget).1, answerAt]
        by_cases hgr : grants (l.s.batOf e').bepi = true
        · exact .inr (by rw [if_pos hgr, hgr])
        · exact .inl (if_neg hgr)
      · rw [hslot, if_neg heq]
        exact h ram e'

/-- A BAT that is sure to be new is mapped anew at its turn. -/
lemma target_of_new (htab : Mem1Tables s) (horder : reloadOrder 8 = pre ++ e::post)
    (hret : (wiiLoop grants vaddr s pre).returned = false) (hset : (s.batOf e).isZero = false)
    (hrefused : e.2 = true → grants (s.batOf e).bepi = false) (hnew : SurelyNew s vaddr e) :
    reloadTarget (wiiLoop grants vaddr s pre) e = some .mem1 := by
  have hstart := wiiLoop_start grants vaddr s horder
  have hnames := namesRam_onWii htab hset
  refine target_of_not_mapped hstart.step hret hnames ?_
  by_contra hfound
  obtain ⟨⟨j,isData'⟩,hj,hkind,hslot⟩ :=
    exists_slot_of_alreadyMapped hstart.step ((Bool.not_eq_false _).mp hfound)
  obtain ⟨i,isData⟩ := e
  cases isData with
  | true =>
    have hslot' : (wiiLoop grants vaddr s pre).s.mem.slot .mem1 (j,isData') =
      (s.batOf (i,true)).bepi := hslot
    rcases wiiLoop_slot grants vaddr s pre .mem1 (j,isData') with hsame | hfailed | hgranted
    · exact hnew (j,isData') (hsame.symm.trans hslot')
    · exact Bat.bepi_ne_mapFailed _ (hslot'.symm.trans hfailed)
    · rw [hslot', hrefused rfl] at hgranted
      contradiction
  | false =>
    obtain rfl : isData' = false := hkind rfl
    obtain ⟨v,hleads,hno⟩ := hnew
    have hslot' : (wiiLoop grants vaddr s pre).s.mem.slot .mem1 (j,false) = v :=
      Eq.trans hslot (vaddr_of_leads hstart hret horder hleads)
    obtain ⟨hold,hearlier⟩ := hno j
    rcases hstart.slot .mem1 (j,false) with hsame | ⟨hmem,hset',hwritten⟩
    · exact hold (hsame.symm.trans hslot')
    · have hprec : Precedes (j,false) (i,false) := (mem_done_iff horder).mp hmem
      rcases hwritten with hbase | ⟨hfailed,-⟩
      · obtain hlt | ⟨-,-,hdata⟩ := hprec
        · exact hearlier hlt hset'.set (hbase.symm.trans hslot')
        · contradiction
      · cases hleads with
        | first hunset => exact absurd ((hunset _ hprec).symm.trans hset'.set) (by decide)
        | data => exact Bat.bepi_ne_mapFailed _ (hslot'.symm.trans hfailed)

/-- An earlier instruction BAT that is granted and sure to be new has its base in its slot. -/
lemma slot_of_new {j : Fin 8} (htab : Mem1Tables s)
    (horder : reloadOrder 8 = pre ++ (i,false)::post)
    (hret : (wiiLoop grants vaddr s pre).returned = false) (hji : j < i)
    (hset : (s.batOf (j,false)).isZero = false) (hgr : grants (s.batOf (j,false)).bepi = true)
    (hnew : SurelyNew s vaddr (j,false)) :
    (wiiLoop grants vaddr s pre).s.mem.slot .mem1 (j,false) = (s.batOf (j,false)).bepi := by
  have hmem : (j,false) ∈ pre := (mem_done_iff horder).mpr (.inl hji)
  obtain ⟨pre₁,pre₂,rfl⟩ := List.append_of_mem hmem
  have horder₁ : reloadOrder 8 = pre₁ ++ (j,false)::(pre₂ ++ (i,false)::post) := by
    rw [horder, List.append_assoc]
    rfl
  have htarget := target_of_new htab horder₁ (wiiLoop_not_returned hret) hset
    (fun h => absurd h Bool.false_ne_true) hnew
  -- no entry behind its own writes the slot
  have hnodup := reloadOrder_nodup 8
  rw [horder₁, List.nodup_append, List.nodup_cons] at hnodup
  have hpre₂ : (j,false) ∉ pre₂ := fun hmem => hnodup.2.1.1 (List.mem_append_left _ hmem)
  rw [wiiLoop_append, List.foldl_cons, reloadEntries_slot_of_not_mem hpre₂,
    (reloadEntry_byAddress (addressKernel_byAddress grants) htarget).1,
    (wiiLoop_start grants vaddr s horder₁).step.batOf]
  exact if_pos hgr

/-- The last set one among the entries done is no data BAT, or leads to the next. -/
lemma leads_or_instr (s : EmuState) (vaddr : Word)
    (horder : reloadOrder 8 = pre ++ (i,false)::post) :
    (∃ v, Leads s vaddr i v) ∨ ∃ pre₁ j pre₂, pre = pre₁ ++ (j,false)::pre₂ ∧
      (s.batOf (j,false)).isZero = false ∧ ∀ c ∈ pre₂, (s.batOf c).isZero = true := by
  have hpre : ∀ a, a ∈ pre ↔ Precedes a (i,false) := fun a => mem_done_iff horder
  by_cases hset : ∃ e ∈ pre, (s.batOf e).isZero = false
  · obtain ⟨pre₁,⟨j,isData⟩,pre₂,hsplit,hj,hlast⟩ :=
      exists_last (fun e => (s.batOf e).isZero = false) hset
    have hlast' : ∀ c ∈ pre₂, (s.batOf c).isZero = true :=
      fun c hc => (Bool.not_eq_false _).mp (hlast c hc)
    cases isData with
    | false => exact .inr ⟨pre₁,j,pre₂,hsplit,hj,hlast'⟩
    | true =>
      refine .inl ⟨_,.data ((hpre _).mp (by rw [hsplit]; simp)) hj (fun e he hei => ?_)⟩
      have hmem : e ∈ pre₁ ++ (j,true)::pre₂ := hsplit ▸ (hpre e).mpr hei
      have hsorted := reloadOrder_precedes 8
      rw [horder, hsplit, List.append_assoc, List.pairwise_append] at hsorted
      rcases List.mem_append.mp hmem with hmem | hmem
      · exact absurd (hsorted.2.2 _ hmem (j,true) (by simp)) he.asymm
      · rcases List.mem_cons.mp hmem with rfl | hmem
        · exact absurd he Precedes.irrefl
        · exact hlast' e hmem
  · push Not at hset
    exact .inl ⟨vaddr,.first (fun e he =>
      (Bool.not_eq_false _).mp (hset e ((hpre e).mpr he)))⟩

/-- Behind an instruction BAT the next one finds the base that it has left, unless the GameCube
stops there. -/
lemma mapped_of_instr {pre₁ pre₂ : List BatRef} {j : Fin 8} (htab : Mem1Tables s)
    (horder : reloadOrder 8 = (pre₁ ++ (j,false)::pre₂) ++ (i,false)::post)
    (hj : (s.batOf (j,false)).isZero = false) (hlast : ∀ c ∈ pre₂, (s.batOf c).isZero = true)
    (hret : (wiiLoop grants vaddr s (pre₁ ++ (j,false)::pre₂)).returned = false)
    (hstop : ¬ StopsGcn grants (wiiLoop grants vaddr s pre₁) (j,false)) :
    alreadyMapped (wiiLoop grants vaddr s (pre₁ ++ (j,false)::pre₂)) (i,false) .mem1 = true := by
  have hstart₁ : StartLoop s.onWii vaddr pre₁ (wiiLoop grants vaddr s pre₁) :=
    wiiLoop_start grants vaddr s (by rw [horder, List.append_assoc])
  have hret₁ := wiiLoop_not_returned hret
  have hnames := namesRam_onWii htab hj
  have hzero : wiiLoop grants vaddr s (pre₁ ++ (j,false)::pre₂) =
      reloadEntry (addressKernel grants) (wiiLoop grants vaddr s pre₁) (j,false) := by
    rw [wiiLoop_append, List.foldl_cons]
    refine reloadEntries_of_zero (fun c hc => ?_)
    rw [reloadEntry_mapStep.batOf, hstart₁.step.batOf]
    exact hlast c hc
  rw [hzero] at hret ⊢
  generalize wiiLoop grants vaddr s pre₁ = l at hstart₁ hret₁ hret hstop ⊢
  have hset : (l.s.batOf (j,false)).isZero = false := by
    rw [hstart₁.step.batOf]
    exact hj
  have hram : l.s.ramOf (j,false) = some .mem1 := (hstart₁.step.ramOf _).trans hnames.names
  cases hmapped : alreadyMapped l (j,false) .mem1 with
  | true =>
    rw [reloadEntry_of_ram hret₁ hset hram, hmapped, if_pos rfl]
    exact hmapped
  | false =>
    have htarget := reloadTarget_eq_some.mpr ⟨hret₁,hset,hram,hmapped⟩
    have hslot := (reloadEntry_byAddress (addressKernel_byAddress grants) htarget).1
    have hgr : grants (l.s.batOf (j,false)).bepi = true := by
      by_contra hno
      rw [answerAt, if_neg hno] at hslot
      by_cases hlow : (l.s.batOf (j,false)).bepi < maxAllowedVaddr
      · rw [returned_of_refused htarget hslot hlow] at hret
        contradiction
      · exact hstop ⟨rfl,by rw [htarget]; rfl,BitVec.not_lt.mp hlow,Bool.not_eq_true _ ▸ hno⟩
    refine alreadyMapped_of_slot (b := (j,false)) (.refl _) ?_ (fun _ => rfl) ?_
    · rw [EmuState.HasBat, reloadEntry_mapStep.maxBAT, hstart₁.step.maxBAT]
      exact hnames.bat
    · rw [hslot, answerAt, if_pos hgr, reloadEntry_of_target htarget, mapWindow_vaddr]
      rfl

/-- A BAT that is sure to be passed is not mapped anew. -/
lemma no_target_of_passed (htab : Mem1Tables s) (horder : reloadOrder 8 = pre ++ e::post)
    (hguard : NoStop grants ⟨s.onWii,vaddr,false⟩ pre) (hpassed : SurelyPassed grants s vaddr e) :
    reloadTarget (wiiLoop grants vaddr s pre) e = none := by
  have hstart := wiiLoop_start grants vaddr s horder
  by_contra hne
  obtain ⟨ram,htarget⟩ := Option.ne_none_iff_exists'.mp hne
  obtain ⟨hret,hset,-,-⟩ := reloadTarget_eq_some.mp htarget
  rw [hstart.step.batOf] at hset
  have hnames := namesRam_onWii htab hset
  obtain rfl := ram_of_target hstart.step hnames.names htarget
  have hmapped : alreadyMapped (wiiLoop grants vaddr s pre) e .mem1 = true := by
    obtain ⟨i,isData⟩ := e
    cases isData with
    | true =>
      obtain ⟨b,hb⟩ := hpassed
      exact alreadyMapped_data_of_slot hstart.step hb.bat (hstart.keeps hret hb)
    | false =>
      rcases leads_or_instr s vaddr horder with ⟨v,hleads⟩ | hinstr
      · have hv := vaddr_of_leads hstart hret horder hleads
        rcases hpassed v hleads with ⟨j,hj⟩ | ⟨j,hji,hsetj,hbase,hgr,hnew⟩
        · refine alreadyMapped_of_slot (b := (j,false)) hstart.step hj.bat (fun _ => rfl) ?_
          rw [if_neg Bool.false_ne_true, hv]
          exact hstart.keeps hret hj
        · refine alreadyMapped_of_slot (b := (j,false)) hstart.step
            (namesRam_onWii htab hsetj).bat (fun _ => rfl) ?_
          rw [if_neg Bool.false_ne_true, hv,
            slot_of_new htab horder hret hji hsetj (hbase ▸ hgr) hnew]
          exact hbase
      · obtain ⟨pre₁,j,pre₂,rfl,hsetj,hlast⟩ := hinstr
        exact mapped_of_instr htab horder hsetj hlast hret (hguard pre₁ (j,false) pre₂ rfl)
  exact no_target_of_alreadyMapped hmapped htarget

lemma stopHarmless_of_noStop (h : NoStop grants l es) : StopHarmless grants l es := by
  induction es generalizing l with
  | nil => trivial
  | cons e es ih =>
    obtain ⟨hstop,hrest⟩ := loopGuard_cons.mp h
    exact (stopHarmless_cons hstop es).mpr (ih hrest)

/-- The error flag is raised only where the pass ends. -/
lemma not_fatal_next (h : l.returned = false → l.s.fatalError = false)
    (hret : (reloadEntry (addressKernel grants) l e).returned = false) :
    (reloadEntry (addressKernel grants) l e).s.fatalError = false := by
  rcases reloadEntry_cases (addressKernel grants) l e with ⟨ram,htarget,heq⟩ | ⟨-,hs,hret'⟩ |
    ⟨-,heq,-⟩
  · have hne := Bat.bepi_ne_mapFailed (l.s.batOf e)
    rw [heq, (mapWindow_stops hne).1] at hret
    rw [heq, (mapWindow_stops hne).2, h (reloadTarget_eq_some.mp htarget).1, hret]
    rfl
  · rw [hs]
    exact h (hret' ▸ hret)
  · rw [heq] at hret
    contradiction

/-- In a pass without an error so far no stop is harmless. -/
lemma noStop_of_stopHarmless (hok : l.returned = false → l.s.fatalError = false)
    (h : StopHarmless grants l es) : NoStop grants l es := by
  induction es generalizing l with
  | nil => exact loopGuard_nil _ _ _
  | cons e es ih =>
    have hstop : ¬ StopsGcn grants l e := by
      intro hstop
      rw [StopHarmless, if_pos hstop] at h
      obtain ⟨ram,htarget⟩ := Option.isSome_iff_exists.mp hstop.2.1
      rw [hok (reloadTarget_eq_some.mp htarget).1] at h
      exact absurd h.1 Bool.false_ne_true
    exact loopGuard_cons.mpr
      ⟨hstop,ih (not_fatal_next hok) ((stopHarmless_cons hstop es).mp h)⟩

/-- The GameCube stops nowhere alone, if each refused instruction BAT from the limit on is sure to
be passed, or comes behind a BAT where both stop. -/
theorem noStop_of_tables (htab : Mem1Tables s) (h : ∀ i, RefusedHigh grants s i →
      SurelyPassed grants s vaddr (i,false) ∨
        ∃ e, Precedes e (i,false) ∧ RefusedLow grants s e ∧ SurelyNew s vaddr e) :
    NoStop grants ⟨s.onWii,vaddr,false⟩ (reloadOrder 8) := by
  suffices hall : ∀ pre post, reloadOrder 8 = pre ++ post →
      NoStop grants ⟨s.onWii,vaddr,false⟩ pre from hall _ [] (List.append_nil _).symm
  intro pre
  induction pre using List.reverseRecOn with
  | nil => exact fun _ _ => loopGuard_nil _ _ _
  | append_singleton pre e ih =>
    intro post horder
    rw [List.append_assoc, List.singleton_append] at horder
    have hguard := ih _ horder
    refine loopGuard_snoc.mpr ⟨hguard,?_⟩
    change ¬ StopsGcn grants (wiiLoop grants vaddr s pre) e
    rintro ⟨hinstr,htarget,hhigh,hrefused⟩
    obtain ⟨i,isData⟩ := e
    obtain rfl : isData = false := hinstr
    have hstart := wiiLoop_start grants vaddr s horder
    obtain ⟨ram,hram⟩ := Option.isSome_iff_exists.mp htarget
    obtain ⟨hret,hset,-⟩ := reloadTarget_eq_some.mp hram
    rw [hstart.step.batOf] at hset hhigh hrefused
    rcases h i ⟨hset,hhigh,hrefused⟩ with hpassed | ⟨e,hprec,hlow,hnew⟩
    · rw [no_target_of_passed htab horder hguard hpassed] at htarget
      contradiction
    · have hmem : e ∈ pre := (mem_done_iff horder).mpr hprec
      obtain ⟨pre₁,pre₂,rfl⟩ := List.append_of_mem hmem
      have horder₁ : reloadOrder 8 = pre₁ ++ e::(pre₂ ++ (i,false)::post) := by
        rw [horder, List.append_assoc]
        rfl
      have hend := target_of_new htab horder₁ (wiiLoop_not_returned hret) hlow.set
        (fun _ => hlow.refused) hnew
      have hbat : (wiiLoop grants vaddr s pre₁).s.batOf e = s.batOf e :=
        (wiiLoop_start grants vaddr s horder₁).step.batOf e
      have hslot := (reloadEntry_byAddress (addressKernel_byAddress grants) hend).1
      rw [hbat, answerAt, hlow.refused, if_neg Bool.false_ne_true] at hslot
      have hreturned := returned_of_refused hend hslot (by rw [hbat]; exact hlow.low)
      rw [wiiLoop_append, List.foldl_cons, reloadEntries_of_returned hreturned] at hret
      exact absurd (hreturned.symm.trans hret) (by decide)

/-- If every BAT where both stop is sure to be passed, the loop of the Wii goes on. -/
lemma wiiLoop_goes_on (htab : Mem1Tables s) (horder : reloadOrder 8 = pre ++ post)
    (hguard : NoStop grants ⟨s.onWii,vaddr,false⟩ (reloadOrder 8))
    (h : ∀ e ∈ pre, RefusedLow grants s e → SurelyPassed grants s vaddr e) :
    (wiiLoop grants vaddr s pre).returned = false := by
  induction pre using List.reverseRecOn generalizing post with
  | nil => rfl
  | append_singleton pre e ih =>
    rw [List.append_assoc, List.singleton_append] at horder
    have hret := ih horder (fun e' he' => h e' (List.mem_append_left _ he'))
    have hstart := wiiLoop_start grants vaddr s horder
    have hprefix : NoStop grants ⟨s.onWii,vaddr,false⟩ pre := fun pre' e' post' hsplit =>
      hguard pre' e' (post' ++ e::post) (by rw [horder, hsplit, List.append_assoc]; rfl)
    rw [wiiLoop_append, List.foldl_cons, List.foldl_nil]
    rcases reloadEntry_cases (addressKernel grants) (wiiLoop grants vaddr s pre) e with
      ⟨ram,htarget,heq⟩ | ⟨-,-,hret'⟩ | ⟨-,-,hset,hnone⟩
    · obtain ⟨-,hset,-⟩ := reloadTarget_eq_some.mp htarget
      have hne := Bat.bepi_ne_mapFailed ((wiiLoop grants vaddr s pre).s.batOf e)
      by_contra hreturned
      rw [heq, (mapWindow_stops hne).1, windowFatal_onWii hstart.step,
        hstart.step.batOf] at hreturned
      have hboth := (Bool.not_eq_false _).mp hreturned
      rw [Bool.and_eq_true, Bool.not_eq_true', decide_eq_true_iff] at hboth
      rw [hstart.step.batOf] at hset
      have hpassed := h e (by simp) ⟨hset,hboth.2,hboth.1⟩
      rw [no_target_of_passed htab horder hprefix hpassed] at htarget
      contradiction
    · rw [hret', hret]
    · rw [hstart.step.batOf] at hset
      rw [hstart.step.ramOf, ramOf_onWii htab hset] at hnone
      contradiction

/-- If the GameCube stops nowhere alone, each refused instruction BAT from the limit on that is sure
to be new comes behind a BAT where both may stop. -/
theorem tables_of_noStop (htab : Mem1Tables s)
    (hguard : NoStop grants ⟨s.onWii,vaddr,false⟩ (reloadOrder 8)) (hhigh : RefusedHigh grants s i)
    (hnew : SurelyNew s vaddr (i,false)) :
    ∃ e, Precedes e (i,false) ∧ RefusedLow grants s e ∧ ¬ SurelyPassed grants s vaddr e := by
  by_contra hnone
  push Not at hnone
  obtain ⟨pre,post,horder,-⟩ := reloadOrder_split i
  have hret : (wiiLoop grants vaddr s pre).returned = false :=
    wiiLoop_goes_on htab horder hguard (fun e he => hnone e ((mem_done_iff horder).mp he))
  have htarget := target_of_new htab horder hret hhigh.set
    (fun h => absurd h Bool.false_ne_true) hnew
  have hbat : (wiiLoop grants vaddr s pre).s.batOf (i,false) = s.batOf (i,false) :=
    (wiiLoop_start grants vaddr s horder).step.batOf (i,false)
  refine hguard pre (i,false) post horder ⟨rfl,?_,?_,?_⟩
  · change (reloadTarget (wiiLoop grants vaddr s pre) (i,false)).isSome = true
    rw [htarget]
    rfl
  · change maxAllowedVaddr ≤ ((wiiLoop grants vaddr s pre).s.batOf (i,false)).bepi
    rw [hbat]
    exact hhigh.high
  · change grants ((wiiLoop grants vaddr s pre).s.batOf (i,false)).bepi = false
    rw [hbat]
    exact hhigh.refused

end

/-- The default BATs of MEM1 with no slot taken, and an instruction BAT that the host refuses. -/
def passedTables : EmuState :=
  { overlapTables with
    cpu := { CpuState.zero with
      ibatu := Function.update (Function.update (fun _ => 0) 0 0x80001FFF#32) 1 0xC0001FFF#32
      ibatl := Function.update (Function.update (fun _ => 0) 0 0x00000002#32) 1 0x00000002#32
      dbatu := Function.update (fun _ => 0) 0 0x80001FFF#32
      dbatl := Function.update (fun _ => 0) 0 0x00000002#32 } }

/-- A table of one BAT, with no slot taken. -/
def oneInstrBat (upper : Word) : EmuState :=
  { overlapTables with
    cpu := { CpuState.zero with
      ibatu := Function.update (fun _ => 0) 0 upper
      ibatl := Function.update (fun _ => 0) 0 0x00000002#32 } }

end DolTools
