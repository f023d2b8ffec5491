import DolTools.Emu.HighBats
import DolTools.Emu.SigillFrame

/-! The two switches on the SPR number against each other. They know the same registers, each
with a cell of its own, but for the counters: those cannot be read, and two share a cell. -/
namespace DolTools

/-- A number that has just been written without an error can be read without one. -/
def Readable (s : EmuState) (spr : ℕ) : Prop :=
  ∀ val, (mtspr spr val s).fatalError = false →
    (mfspr spr (mtspr spr val s)).2.fatalError = false

/-- A write to the number can change the cell. -/
def StoresInto (spr : ℕ) (cell : CpuCell) : Prop :=
  ∃ s val, (mtspr spr val s).fatalError = false ∧
    cell.get (mtspr spr val s).cpu ≠ cell.get s.cpu

/-- No cell is common to two numbers. -/
def CellsApart (spr spr' : ℕ) : Prop :=
  spr ≠ spr' → ∀ cell, ¬ (StoresInto spr cell ∧ StoresInto spr' cell)

/-- The number of a counter, PMC1 being the first. -/
def pmcSpr : Fin 4 → ℕ
  | 0 => sprPmc1
  | 1 => sprPmc2
  | 2 => sprPmc3
  | 3 => sprPmc4

/-- Where the switch of `mtspr` puts a counter. -/
def pmcSlot : Fin 4 → Fin 4
  | 0 | 2 => 0
  | 1 | 3 => 1

/-- A write to a counter sets its own entry. -/
def UpdatesOwn (i : Fin 4) : Prop :=
  ∀ s val, (mtspr (pmcSpr i) val s).fatalError = false →
    (mtspr (pmcSpr i) val s).cpu.pmc = Function.update s.cpu.pmc i val

/-- The two pairs of counters that share an entry. -/
def SharesPmc (spr spr' : ℕ) : Prop :=
  (spr,spr') ∈ [(sprPmc1,sprPmc3),(sprPmc3,sprPmc1),(sprPmc2,sprPmc4),(sprPmc4,sprPmc2)]

instance (spr spr' : ℕ) : Decidable (SharesPmc spr spr') :=
  inferInstanceAs (Decidable (_ ∈ _))

section

variable {s : EmuState} {spr : ℕ} {val : Word} {r : SprReg} {i j : Fin 4} {cell : CpuCell}

/-- A register that is not closed reads without an error. -/
lemma mfspr_of_open (h : r.closed s = false) : mfspr r.spr s = (r.get s.cpu,s) := by
  cases r with
  | bat reg =>
    change mfspr reg.spr s = _
    rw [mfspr, batSpr_spr]
    exact if_neg (by rw [show (reg.high && highBatIllegal s) = false from h]; decide)
  | hid4 =>
    have hc : s.consoleType ≠ .gamecube := of_decide_eq_false h
    exact if_neg hc
  | sprg i => fin_cases i <;> rfl
  | _ => rfl

lemma highBatIllegal_congr {t : EmuState} (hc : t.consoleType = s.consoleType)
    (hhid4 : t.cpu.hid4 = s.cpu.hid4) : highBatIllegal t = highBatIllegal s := by
  simp only [highBatIllegal, hc, hhid4]

/-- A write does not close its own register. -/
lemma closed_mtspr (hok : (mtspr r.spr val s).fatalError = false) :
    r.closed (mtspr r.spr val s) = r.closed s := by
  have hc : (mtspr r.spr val s).consoleType = s.consoleType :=
    (mtspr_spec r.spr val s).1.consoleType
  cases r with
  | hid4 => simp only [SprReg.closed, hc]
  | bat reg =>
    have hhid4 : (mtspr (SprReg.bat reg).spr val s).cpu.hid4 = s.cpu.hid4 := by
      have hget := get_mtspr .hid4 hok
      have hne : SprReg.hid4.spr ≠ (SprReg.bat reg).spr :=
        fun heq => SprReg.noConfusion (SprReg.spr_injective heq)
      rw [if_neg hne] at hget
      exact hget
    simp only [SprReg.closed, highBatIllegal_congr hc hhid4]
  | _ => rfl

lemma mtspr_pmc (i : Fin 4) (s : EmuState) : mtspr (pmcSpr i) 0 s =
    { s with cpu := { s.cpu with pmc := Function.update s.cpu.pmc (pmcSlot i) 0 } } := by
  fin_cases i <;> rfl

lemma mtspr_pmc_val (hok : (mtspr (pmcSpr i) val s).fatalError = false) : val = 0 := by
  by_contra hne
  have hfatal : mtspr (pmcSpr i) val s = s.fatal := by
    fin_cases i <;> exact if_pos hne
  rw [hfatal] at hok
  contradiction

lemma pmcSpr_eq (h : spr = sprPmc1 ∨ spr = sprPmc2 ∨ spr = sprPmc3 ∨ spr = sprPmc4) :
    ∃ i, spr = pmcSpr i := by
  rcases h with rfl | rfl | rfl | rfl
  · exact ⟨0,rfl⟩
  · exact ⟨1,rfl⟩
  · exact ⟨2,rfl⟩
  · exact ⟨3,rfl⟩

lemma mfspr_pmc (i : Fin 4) (s : EmuState) : (mfspr (pmcSpr i) s).2 = s.fatal := by
  fin_cases i <;> rfl

/-- What `mtspr` accepts beyond the registers that `mfspr` knows are the counters. -/
lemma pmcSpr_of_accepted (hno : ∀ r : SprReg, r.spr ≠ spr)
    (hok : (mtspr spr val s).fatalError = false) : ∃ i, spr = pmcSpr i := by
  have hb : batSpr spr = none := by
    cases hb : batSpr spr with
    | none => rfl
    | some x => exact absurd (batSpr_inverse hb).1 (hno (.bat x.1))
  have hsprg : ¬ (sprSprg0 ≤ spr ∧ spr ≤ sprSprg3) := by
    rintro ⟨hl,hu⟩
    apply hno (.sprg (Fin.ofNat 4 (spr - sprSprg0)))
    change sprSprg0 + (spr - sprSprg0) % 4 = spr
    unfold sprSprg0 sprSprg3 at *
    omega
  rw [mtspr, hb] at hok
  change (mtsprOther spr val s).fatalError = false at hok
  unfold mtsprOther at hok
  dsimp only at hok
  have hne : ∀ r : SprReg, spr ≠ r.spr := fun r => (hno r).symm
  rw [if_neg (show spr ≠ sprDec from hne .dec), if_neg (show spr ≠ sprTbl from hne .tbl),
    if_neg (show spr ≠ sprTbu from hne .tbu), if_neg (show spr ≠ sprSrr0 from hne .srr0),
    if_neg (show spr ≠ sprSrr1 from hne .srr1), if_neg (show spr ≠ sprHid0 from hne .hid0),
    if_neg (show spr ≠ sprHid1 from hne .hid1), if_neg (show spr ≠ sprHid2 from hne .hid2),
    if_neg (show spr ≠ sprHid4 from hne .hid4), if_neg hsprg,
    if_neg (show spr ≠ sprL2cr from hne .l2cr)] at hok
  split_ifs at hok with hummcr hmmcr0 hz hmmcr1 hz hupmc hpmc
  · contradiction
  · exact absurd hmmcr0 (hne .mmcr0)
  · exact absurd hmmcr0 (hne .mmcr0)
  · exact absurd hmmcr1 (hne .mmcr1)
  · exact absurd hmmcr1 (hne .mmcr1)
  · contradiction
  · contradiction
  · exact pmcSpr_eq hpmc
  · exact pmcSpr_eq hpmc
  · contradiction

/-- A number that `mtspr` accepts is the one of a register or of a counter. -/
lemma accepted_cases (hok : (mtspr spr val s).fatalError = false) :
    (∃ r : SprReg, spr = r.spr) ∨ ∃ i, spr = pmcSpr i := by
  by_cases hreg : ∃ r : SprReg, spr = r.spr
  · exact .inl hreg
  · exact .inr (pmcSpr_of_accepted (fun r hr => hreg ⟨r,hr.symm⟩) hok)

/-- All numbers but those of the counters are readable. -/
theorem readable_iff (s : EmuState) (spr : ℕ) :
    Readable s spr ↔ s.fatalError = true ∨ ∀ i, spr ≠ pmcSpr i := by
  constructor
  · intro h
    by_contra hcon
    push Not at hcon
    obtain ⟨hfatal,i,rfl⟩ := hcon
    have hok : (mtspr (pmcSpr i) 0 s).fatalError = false := by
      rw [mtspr_pmc]
      exact (Bool.not_eq_true _).mp hfatal
    have hread := h 0 hok
    rw [mfspr_pmc] at hread
    contradiction
  · intro h val hok
    have hfatal : s.fatalError = false := mtspr_ok hok
    have hno : ∀ i, spr ≠ pmcSpr i := h.resolve_left (by rw [hfatal]; decide)
    rcases accepted_cases hok with ⟨r,rfl⟩ | ⟨i,hi⟩
    · have hopen : r.closed (mtspr r.spr val s) = false := by
        rw [closed_mtspr hok]
        by_contra hclosed
        rw [(mtspr_closed ((Bool.not_eq_false _).mp hclosed) val).2] at hok
        contradiction
      rw [mfspr_of_open hopen]
      exact hok
    · exact absurd hi (hno i)

/-- The cell that an accepted write can change. -/
lemma storesInto_cases (h : StoresInto spr cell) : (∃ r : SprReg, spr = r.spr ∧ cell = .spr r) ∨
    ∃ i, spr = pmcSpr i ∧ cell = .pmc (pmcSlot i) := by
  obtain ⟨s,val,hok,hne⟩ := h
  rcases accepted_cases hok with ⟨r,rfl⟩ | ⟨i,rfl⟩
  · refine .inl ⟨r,rfl,?_⟩
    cases mtspr_sprWrite r.spr val s with
    | refused fatal cpu =>
      rw [cpu] at hne
      contradiction
    | lowPower fatal cpu =>
      rw [fatal] at hok
      contradiction
    | stored r' number takes cpu fatal =>
      rw [SprReg.spr_injective number]
      by_contra hcell
      rw [cpu] at hne
      exact hne (CpuCell.get_spr hcell)
    | counter i number cpu fatal => exact absurd rfl (number r)
  · refine .inr ⟨i,rfl,?_⟩
    obtain rfl := mtspr_pmc_val hok
    by_contra hcell
    rw [mtspr_pmc] at hne
    exact hne (CpuCell.get_pmc hcell)

lemma storesInto_pmc (i : Fin 4) : StoresInto (pmcSpr i) (.pmc (pmcSlot i)) := by
  refine ⟨{ EmuState.zero with cpu := { CpuState.zero with pmc := fun _ => 1 } },0,?_,?_⟩
  · rw [mtspr_pmc]
    rfl
  · rw [mtspr_pmc]
    fin_cases i <;> decide

lemma sharesPmc_of_slot (hne : pmcSpr i ≠ pmcSpr j) (h : pmcSlot i = pmcSlot j) :
    SharesPmc (pmcSpr i) (pmcSpr j) := by
  revert i j
  decide

/-- Two numbers have a cell in common just when they are the counters that share an entry. -/
theorem cellsApart_iff (spr spr' : ℕ) : CellsApart spr spr' ↔ ¬ SharesPmc spr spr' := by
  constructor
  · intro h hshares
    have hpair : ∃ i j, i ≠ j ∧ spr = pmcSpr i ∧ spr' = pmcSpr j ∧ pmcSlot i = pmcSlot j := by
      simp only [SharesPmc, List.mem_cons, Prod.mk.injEq, List.not_mem_nil, or_false] at hshares
      rcases hshares with ⟨rfl,rfl⟩ | ⟨rfl,rfl⟩ | ⟨rfl,rfl⟩ | ⟨rfl,rfl⟩
      · exact ⟨0,2,by decide,rfl,rfl,rfl⟩
      · exact ⟨2,0,by decide,rfl,rfl,rfl⟩
      · exact ⟨1,3,by decide,rfl,rfl,rfl⟩
      · exact ⟨3,1,by decide,rfl,rfl,rfl⟩
    obtain ⟨i,j,hij,rfl,rfl,hslot⟩ := hpair
    have hne : ∀ i j, i ≠ j → pmcSpr i ≠ pmcSpr j := by decide
    refine h (hne i j hij) (.pmc (pmcSlot i)) ⟨storesInto_pmc i,?_⟩
    rw [hslot]
    exact storesInto_pmc j
  · rintro hno hne cell ⟨h,h'⟩
    rcases storesInto_cases h with ⟨r,rfl,rfl⟩ | ⟨i,rfl,rfl⟩
    · rcases storesInto_cases h' with ⟨r',rfl,hcell⟩ | ⟨j,-,hcell⟩
      · exact hne (congrArg SprReg.spr (CpuCell.spr.inj hcell))
      · contradiction
    · rcases storesInto_cases h' with ⟨r',-,hcell⟩ | ⟨j,rfl,hcell⟩
      · contradiction
      · exact hno (sharesPmc_of_slot hne (CpuCell.pmc.inj hcell))

/-- The first two counters set their own entries. -/
theorem updatesOwn_iff (i : Fin 4) : UpdatesOwn i ↔ i.val < 2 := by
  have hslot : pmcSlot i = i ↔ i.val < 2 := by
    revert i
    decide
  rw [← hslot]
  constructor
  · intro h
    let s : EmuState := { EmuState.zero with cpu := { CpuState.zero with pmc := fun _ => 1 } }
    have hpmc := h s 0 (by rw [mtspr_pmc]; rfl)
    rw [mtspr_pmc] at hpmc
    have hentry : Function.update s.cpu.pmc (pmcSlot i) 0 i = Function.update s.cpu.pmc i 0 i :=
      congrFun hpmc i
    by_contra hne
    rw [Function.update_self, Function.update_of_ne (Ne.symm hne)] at hentry
    have hone : (1 : Word) = 0 := hentry
    exact absurd hone (by decide)
  · intro h s val hok
    obtain rfl := mtspr_pmc_val hok
    rw [mtspr_pmc, h]

end

/-- The switches agree but for the counters: these cannot be read, PMC3 and PMC4 are stored in
the entries of PMC1 and PMC2. -/
theorem sprsAgree_iff (s : EmuState) (spr spr' : ℕ) (i : Fin 4) :
    (Readable s spr ↔ s.fatalError = true ∨ ∀ j, spr ≠ pmcSpr j) ∧
    (CellsApart spr spr' ↔ ¬ SharesPmc spr spr') ∧
    (UpdatesOwn i ↔ i.val < 2) :=
  ⟨readable_iff s spr,cellsApart_iff spr spr',updatesOwn_iff i⟩

/-- PMC1 is written and cannot be read, it shares its entry with PMC3, and a write to PMC3 does
not set the third. -/
theorem pmc_disagrees : (¬ ∀ s spr, Readable s spr) ∧ (¬ ∀ spr spr', CellsApart spr spr') ∧
    ¬ ∀ i, UpdatesOwn i := by
  refine ⟨?_,?_,?_⟩
  · intro h
    exact absurd ((readable_iff .zero sprPmc1).mp (h .zero sprPmc1)) (by decide)
  · intro h
    exact (cellsApart_iff sprPmc1 sprPmc3).mp (h sprPmc1 sprPmc3) (by decide)
  · intro h
    exact absurd ((updatesOwn_iff 2).mp (h 2)) (by decide)

end DolTools
