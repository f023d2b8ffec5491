import DolTools.Cpu.Spr
import DolTools.Library.LastWrite

/-! The SPRs as a file of independent registers: every number that `mfspr` knows names one
register, `mtspr` changes that register alone, and so a register shows the last write to it
after its bit rules. -/
namespace DolTools
open LastWrite

namespace BatReg

/-- The SPR number of a BAT register. -/
def spr : BatReg → ℕ
  | ibatu i => (if i.val < 4 then sprIbat0u else sprIbat4u - 8) + 2*i.val
  | ibatl i => (if i.val < 4 then sprIbat0l else sprIbat4l - 8) + 2*i.val
  | dbatu i => (if i.val < 4 then sprDbat0u else sprDbat4u - 8) + 2*i.val
  | dbatl i => (if i.val < 4 then sprDbat0l else sprDbat4l - 8) + 2*i.val

/-- Whether the register belongs to one of the BATs 4 to 7. -/
def high : BatReg → Bool
  | ibatu i | ibatl i | dbatu i | dbatl i => decide (4 ≤ i.val)

theorem get_set (r r' : BatReg) (val : Word) (c : CpuState) :
    r.get (r'.set val c) = if r = r' then val else r.get c := by
  cases r with
  | ibatu i => cases r' <;> simp [get, set, Function.update_apply]
  | ibatl i => cases r' <;> simp [get, set, Function.update_apply]
  | dbatu i => cases r' <;> simp [get, set, Function.update_apply]
  | dbatl i => cases r' <;> simp [get, set, Function.update_apply]

end BatReg

theorem batSpr_spr (r : BatReg) : batSpr r.spr = some (r,r.high) := by
  cases r with
  | ibatu i => revert i; decide
  | ibatl i => revert i; decide
  | dbatu i => revert i; decide
  | dbatl i => revert i; decide

/-- The four ranges lie side by side. -/
lemma batSpr_range {spr : ℕ} {x : BatReg × Bool} (h : batSpr spr = some x) :
    sprIbat0u ≤ spr ∧ spr < sprIbat0u + 48 := by
  unfold batSpr at h
  unfold sprDbat0u sprDbat3l sprDbat4u sprDbat7l sprIbat0u sprIbat3l sprIbat4u sprIbat7l at *
  split_ifs at h <;> omega

/-- The parity and index arithmetic of the four ranges finds the register of each number. -/
theorem batSpr_inverse {spr : ℕ} {r : BatReg} {high : Bool}
    (h : batSpr spr = some (r,high)) : r.spr = spr ∧ r.high = high := by
  have hall : ∀ n : Fin 48, ∀ x ∈ batSpr (sprIbat0u + n),
      x.1.spr = sprIbat0u + n ∧ x.1.high = x.2 := by decide
  obtain ⟨hl,hu⟩ := batSpr_range h
  obtain ⟨n,rfl⟩ := Nat.exists_eq_add_of_le hl
  exact hall ⟨n,by omega⟩ (r,high) h

/-- The registers behind the readable SPR numbers. -/
inductive SprReg
  | dec
  | tbl
  | tbu
  | srr0
  | srr1
  | hid0
  | hid1
  | hid2
  | hid4
  | sprg (i : Fin 4)
  | l2cr
  | mmcr0
  | mmcr1
  | bat (reg : BatReg)
  deriving DecidableEq

namespace SprReg

def spr : SprReg → ℕ
  | dec => sprDec
  | tbl => sprTbl
  | tbu => sprTbu
  | srr0 => sprSrr0
  | srr1 => sprSrr1
  | hid0 => sprHid0
  | hid1 => sprHid1
  | hid2 => sprHid2
  | hid4 => sprHid4
  | sprg i => sprSprg0 + i.val
  | l2cr => sprL2cr
  | mmcr0 => sprMmcr0
  | mmcr1 => sprMmcr1
  | bat reg => reg.spr

def get (c : CpuState) : SprReg → Word
  | dec => c.decrementer
  | tbl => c.tbl
  | tbu => c.tbu
  | srr0 => c.srr0
  | srr1 => c.srr1
  | hid0 => c.hid0
  | hid1 => c.hid1
  | hid2 => c.hid2
  | hid4 => c.hid4
  | sprg i => c.sprg i
  | l2cr => c.l2cr
  | mmcr0 => c.mmcr0
  | mmcr1 => c.mmcr1
  | bat reg => reg.get c

def set (val : Word) (c : CpuState) : SprReg → CpuState
  | dec => { c with decrementer := val }
  | tbl => { c with tbl := val }
  | tbu => { c with tbu := val }
  | srr0 => { c with srr0 := val }
  | srr1 => { c with srr1 := val }
  | hid0 => { c with hid0 := val }
  | hid1 => { c with hid1 := val }
  | hid2 => { c with hid2 := val }
  | hid4 => { c with hid4 := val }
  | sprg i => { c with sprg := Function.update c.sprg i val }
  | l2cr => { c with l2cr := val }
  | mmcr0 => { c with mmcr0 := val }
  | mmcr1 => { c with mmcr1 := val }
  | bat reg => reg.set val c

/-- The bit rules: what a register keeps of a value written to it. -/
def rule (val : Word) (c : CpuState) : SprReg → Word
  | hid2 =>
    let val := val &&& 0xFFFF0000#32
    if val &&& hid2Dmaql ≠ 0 then (val &&& ~~~hid2Dmaql) ||| (c.hid2 &&& hid2Dmaql) else val
  | hid4 => (val ||| hid4Rsrvd1) &&& ~~~hid4Rsrvd0
  | l2cr => val &&& ~~~l2crRsrvd0
  | _ => val

/-- The values a register accepts without an error. -/
def Takes (val : Word) (c : CpuState) : SprReg → Prop
  | hid0 => ¬ (asksLowPower val ∧ c.msr &&& msrPow ≠ 0)
  | hid1 => False
  | mmcr0 | mmcr1 => val = 0
  | _ => True

theorem get_set (r r' : SprReg) (val : Word) (c : CpuState) :
    r.get (r'.set val c) = if r = r' then val else r.get c := by
  cases r' with
  | bat reg' =>
    cases r with
    | bat reg => simpa [get, set] using BatReg.get_set reg reg' val c
    | _ => cases reg' <;> rfl
  | sprg j =>
    cases r with
    | sprg i => simp [get, set, Function.update_apply]
    | bat reg => cases reg <;> rfl
    | _ => rfl
  | _ =>
    cases r with
    | bat reg => cases reg <;> rfl
    | _ => rfl

@[simp] theorem set_msr (r : SprReg) (val : Word) (c : CpuState) : (r.set val c).msr = c.msr := by
  cases r with
  | bat reg => cases reg <;> rfl
  | _ => rfl

end SprReg

/-- The register of a number. -/
def sprReg (spr : ℕ) : Option SprReg :=
  match batSpr spr with
  | some (reg,_) => some (.bat reg)
  | none =>
    if spr = sprDec then some .dec
    else if spr = sprTbl then some .tbl
    else if spr = sprTbu then some .tbu
    else if spr = sprSrr0 then some .srr0
    else if spr = sprSrr1 then some .srr1
    else if spr = sprHid0 then some .hid0
    else if spr = sprHid1 then some .hid1
    else if spr = sprHid2 then some .hid2
    else if spr = sprHid4 then some .hid4
    else if sprSprg0 ≤ spr ∧ spr ≤ sprSprg3 then some (.sprg (Fin.ofNat 4 (spr - sprSprg0)))
    else if spr = sprL2cr then some .l2cr
    else if spr = sprMmcr0 then some .mmcr0
    else if spr = sprMmcr1 then some .mmcr1
    else none

lemma sprReg_spr (r : SprReg) : sprReg r.spr = some r := by
  cases r with
  | bat reg =>
    change sprReg reg.spr = _
    rw [sprReg, batSpr_spr]
  | sprg i => revert i; decide
  | _ => rfl

/-- No two registers share a number. -/
theorem SprReg.spr_injective : Function.Injective SprReg.spr := by
  intro r r' h
  have hr := sprReg_spr r
  rw [h, sprReg_spr r'] at hr
  exact (Option.some.inj hr).symm

lemma clear_eq (val mask : Word) :
    (if val &&& mask ≠ 0 then val &&& ~~~mask else val) = val &&& ~~~mask := by
  split
  · rfl
  · rename_i h
    rw [not_not] at h
    calc val = val &&& (mask ||| ~~~mask) := by rw [BitVec.or_not_self, BitVec.and_allOnes]
      _ = (val &&& mask) ||| (val &&& ~~~mask) := BitVec.and_or_distrib_left
      _ = val &&& ~~~mask := by
        rw [h]
        exact BitVec.zero_or

lemma hid2Value_eq (val : Word) (c : CpuState) :
    hid2Value val c.hid2 = SprReg.hid2.rule val c := by
  rw [hid2Value, clear_eq]
  rfl

lemma hid4Rsrvd1_getLsbD : ∀ i : Fin 32, hid4Rsrvd1.getLsbD i = decide (i = 31) := by
  decide

lemma set_top_eq (val : Word) :
    (if (val &&& hid4Rsrvd1) >>> 31 ≠ 1 then val ||| hid4Rsrvd1 else val) =
      val ||| hid4Rsrvd1 := by
  split
  · rfl
  · rename_i h
    rw [not_not] at h
    have htop : val.getLsbD 31 = true := by
      have hbit := congrArg (fun x => BitVec.getLsbD x 0) h
      simp only [BitVec.getLsbD_ushiftRight, BitVec.getLsbD_and] at hbit
      exact ((Bool.and_eq_true _ _).mp hbit).1
    apply BitVec.eq_of_getLsbD_eq
    intro i hi
    rw [BitVec.getLsbD_or, hid4Rsrvd1_getLsbD ⟨i,hi⟩]
    by_cases hi31 : i = 31
    · subst hi31
      rw [htop]
      rfl
    · have hne : (⟨i,hi⟩ : Fin 32) ≠ 31 := fun he => hi31 (congrArg Fin.val he)
      rw [decide_eq_false hne, Bool.or_false]

lemma hid4Value_eq (val : Word) (c : CpuState) :
    hid4Value val = SprReg.hid4.rule val c := by
  rw [hid4Value, set_top_eq]
  exact clear_eq _ _

/-- What a write can do: it is refused, or its register takes what the bit rules keep, or
HID0 is stored although that is an error, or a counter is cleared. -/
inductive SprWrite (spr : ℕ) (val : Word) (s t : EmuState) : Prop
  | refused (fatal : t.fatalError = true) (cpu : t.cpu = s.cpu)
  | stored (r : SprReg) (number : spr = r.spr) (takes : r.Takes val s.cpu)
      (cpu : t.cpu = r.set (r.rule val s.cpu) s.cpu) (fatal : t.fatalError = s.fatalError)
  | lowPower (fatal : t.fatalError = true) (cpu : t.cpu = { s.cpu with hid0 := val })
  | counter (i : Fin 4) (number : ∀ r : SprReg, r.spr ≠ spr)
      (cpu : t.cpu = { s.cpu with pmc := Function.update s.cpu.pmc i 0 })
      (fatal : t.fatalError = s.fatalError)

lemma SprWrite.ite {spr : ℕ} {val : Word} {s t u : EmuState} {c : Prop} [Decidable c]
    (ht : c → SprWrite spr val s t) (hu : ¬ c → SprWrite spr val s u) :
    SprWrite spr val s (if c then t else u) := by
  split
  · rename_i h
    exact ht h
  · rename_i h
    exact hu h

lemma not_counter_spr {spr : ℕ}
    (h : spr = sprPmc1 ∨ spr = sprPmc2 ∨ spr = sprPmc3 ∨ spr = sprPmc4) (r : SprReg) :
    r.spr ≠ spr := by
  intro hr
  have hreg := sprReg_spr r
  rw [hr] at hreg
  rcases h with rfl | rfl | rfl | rfl <;> contradiction

lemma mtsprOther_sprWrite (spr : ℕ) (val : Word) (s : EmuState) :
    SprWrite spr val s (mtsprOther spr val s) := by
  unfold mtsprOther
  dsimp only
  refine .ite (fun h => .stored .dec h trivial rfl rfl) (fun _ => ?_)
  refine .ite (fun h => .stored .tbl h trivial rfl rfl) (fun _ => ?_)
  refine .ite (fun h => .stored .tbu h trivial rfl rfl) (fun _ => ?_)
  refine .ite (fun h => .stored .srr0 h trivial rfl rfl) (fun _ => ?_)
  refine .ite (fun h => .stored .srr1 h trivial rfl rfl) (fun _ => ?_)
  refine .ite (fun h => .ite (fun _ => .lowPower rfl rfl)
    (fun hpow => .stored .hid0 h hpow rfl rfl)) (fun _ => ?_)
  refine .ite (fun _ => .refused rfl rfl) (fun _ => ?_)
  refine .ite (fun h => .stored .hid2 h trivial ?_ rfl) (fun _ => ?_)
  · rw [hid2Value_eq]
    rfl
  refine .ite (fun h => .ite (fun _ => .refused rfl rfl)
    (fun _ => .stored .hid4 h trivial ?_ rfl)) (fun _ => ?_)
  · rw [hid4Value_eq val s.cpu]
    rfl
  refine .ite (fun h => .stored (.sprg (Fin.ofNat 4 (spr - sprSprg0))) ?_ trivial rfl rfl)
    (fun _ => ?_)
  · change spr = sprSprg0 + (spr - sprSprg0) % 4
    unfold sprSprg0 sprSprg3 at *
    omega
  refine .ite (fun h => .stored .l2cr h trivial ?_ rfl) (fun _ => ?_)
  · rw [clear_eq]
    rfl
  refine .ite (fun _ => .refused rfl rfl) (fun _ => ?_)
  refine .ite (fun h => .ite (fun _ => .refused rfl rfl)
    (fun hz => .stored .mmcr0 h (not_not.mp hz) rfl rfl)) (fun _ => ?_)
  refine .ite (fun h => .ite (fun _ => .refused rfl rfl)
    (fun hz => .stored .mmcr1 h (not_not.mp hz) rfl rfl)) (fun _ => ?_)
  refine .ite (fun _ => .refused rfl rfl) (fun _ => ?_)
  refine .ite (fun h => .ite (fun _ => .refused rfl rfl) (fun hz => ?_))
    (fun _ => .refused rfl rfl)
  obtain rfl := not_not.mp hz
  exact .counter _ (not_counter_spr h) rfl rfl

theorem mtspr_sprWrite (spr : ℕ) (val : Word) (s : EmuState) :
    SprWrite spr val s (mtspr spr val s) := by
  unfold mtspr
  cases hb : batSpr spr with
  | none => exact mtsprOther_sprWrite spr val s
  | some x =>
    obtain ⟨reg,high⟩ := x
    exact .ite (fun _ => .refused rfl rfl)
      (fun _ => .stored (.bat reg) (batSpr_inverse hb).1.symm trivial rfl rfl)

section

variable {spr : ℕ} {val : Word} {s : EmuState}

/-- A write that is not an error changes the register of its number and no other. -/
theorem get_mtspr (r : SprReg) (hok : (mtspr spr val s).fatalError = false) :
    r.get (mtspr spr val s).cpu = if r.spr = spr then r.rule val s.cpu else r.get s.cpu := by
  cases mtspr_sprWrite spr val s with
  | refused fatal cpu => simp [fatal] at hok
  | lowPower fatal cpu => simp [fatal] at hok
  | stored r' number takes cpu fatal =>
    rw [cpu, SprReg.get_set, number]
    by_cases heq : r = r'
    · rw [heq, if_pos rfl, if_pos rfl]
    · rw [if_neg heq, if_neg (fun h => heq (SprReg.spr_injective h))]
  | counter i number cpu fatal =>
    rw [cpu, if_neg (number r)]
    cases r with
    | bat reg => cases reg <;> rfl
    | _ => rfl

lemma mtspr_ok (hok : (mtspr spr val s).fatalError = false) : s.fatalError = false := by
  cases mtspr_sprWrite spr val s with
  | refused fatal cpu => simp [fatal] at hok
  | lowPower fatal cpu => simp [fatal] at hok
  | stored r number takes cpu fatal => rw [← fatal, hok]
  | counter i number cpu fatal => rw [← fatal, hok]

end

/-- The cases of the switch in `E_PPC_Emulate_mfspr`. -/
def mfsprCases : List ℕ :=
  [sprDec,sprTbl,sprTbu,sprSrr0,sprSrr1,sprHid0,sprHid1,sprHid2,sprHid4] ++
    List.range' sprSprg0 4 ++ [sprL2cr,sprUmmcr0,sprMmcr0,sprUmmcr1,sprMmcr1] ++
    List.range' sprDbat0u 8 ++ List.range' sprDbat4u 8 ++
    List.range' sprIbat0u 8 ++ List.range' sprIbat4u 8

/-- The user-mode numbers of the monitor control registers show the same registers. -/
def sprSource (spr : ℕ) : ℕ :=
  if spr = sprUmmcr0 then sprMmcr0 else if spr = sprUmmcr1 then sprMmcr1 else spr

/-- What the console must be, and HID4 allow, for a number to be accessible at all. -/
def SprAccessible (s : EmuState) (spr : ℕ) : Prop :=
  (spr = sprHid4 → s.consoleType = .wii) ∧
    ∀ reg, batSpr spr = some (reg,true) → s.consoleType = .wii ∧ s.cpu.hid4 &&& hid4Sbe ≠ 0

lemma exists_sprReg {spr : ℕ} (h : spr ∈ mfsprCases) : ∃ r : SprReg, r.spr = sprSource spr := by
  have hall : ∀ n ∈ mfsprCases, (sprReg (sprSource n)).map SprReg.spr = some (sprSource n) := by
    decide
  obtain ⟨r,-,hr⟩ := Option.map_eq_some_iff.mp (hall spr h)
  exact ⟨r,hr⟩

lemma sprSource_eq {spr n : ℕ} (h : n = sprSource spr) :
    spr = n ∨ spr = sprUmmcr0 ∧ n = sprMmcr0 ∨ spr = sprUmmcr1 ∧ n = sprMmcr1 := by
  unfold sprSource at h
  split_ifs at h with h0 h1
  · exact .inr (.inl ⟨h0,h⟩)
  · exact .inr (.inr ⟨h1,h⟩)
  · exact .inl h.symm

lemma highBatIllegal_of_sbe {s : EmuState} (hc : s.consoleType = .wii)
    (hsbe : s.cpu.hid4 &&& hid4Sbe ≠ 0) : highBatIllegal s = false := by
  rw [highBatIllegal, hc]
  exact beq_eq_false_iff_ne.mpr hsbe

lemma mfspr_spr {s : EmuState} {r : SprReg} (ha : SprAccessible s r.spr) :
    mfspr r.spr s = (r.get s.cpu,s) := by
  obtain ⟨hhid4,hhigh⟩ := ha
  cases r with
  | bat reg =>
    change mfspr reg.spr s = _
    rw [mfspr, batSpr_spr]
    apply if_neg
    rw [Bool.and_eq_true]
    rintro ⟨hreg,hillegal⟩
    obtain ⟨hc,hsbe⟩ := hhigh reg (hreg ▸ batSpr_spr reg)
    rw [highBatIllegal_of_sbe hc hsbe] at hillegal
    contradiction
  | hid4 =>
    have hne : s.consoleType ≠ .gamecube := by
      rw [hhid4 rfl]
      decide
    exact if_neg hne
  | sprg i => fin_cases i <;> rfl
  | _ => rfl

theorem mfspr_of_accessible {s : EmuState} {spr : ℕ} {r : SprReg} (hr : r.spr = sprSource spr)
    (ha : SprAccessible s (sprSource spr)) : mfspr spr s = (r.get s.cpu,s) := by
  rw [← hr] at ha
  rcases sprSource_eq hr with rfl | ⟨rfl,h0⟩ | ⟨rfl,h1⟩
  · exact mfspr_spr ha
  · obtain rfl : r = .mmcr0 := SprReg.spr_injective h0
    rfl
  · obtain rfl : r = .mmcr1 := SprReg.spr_injective h1
    rfl

lemma batReg_spr_mem (reg : BatReg) : reg.spr ∈ mfsprCases := by
  cases reg with
  | ibatu i => revert i; decide
  | ibatl i => revert i; decide
  | dbatu i => revert i; decide
  | dbatl i => revert i; decide

/-- Every other number is an unknown SPR. -/
theorem mfspr_of_not_mem {s : EmuState} {spr : ℕ} (h : spr ∉ mfsprCases) :
    mfspr spr s = (sprError,s.fatal) := by
  have hb : batSpr spr = none := by
    cases hb : batSpr spr with
    | none => rfl
    | some x => exact absurd ((batSpr_inverse hb).1 ▸ batReg_spr_mem x.1) h
  have hne : ∀ n ∈ mfsprCases, spr ≠ n := fun n hn he => h (he ▸ hn)
  have hsprg : ¬ (sprSprg0 ≤ spr ∧ spr ≤ sprSprg3) := by
    rintro ⟨hl,hu⟩
    unfold sprSprg0 at hl
    unfold sprSprg3 at hu
    interval_cases spr <;> exact h (by decide)
  have hor : ∀ {m n : ℕ}, m ∈ mfsprCases → n ∈ mfsprCases → ¬ (spr = m ∨ spr = n) :=
    fun hm hn he => he.elim (hne _ hm) (hne _ hn)
  rw [mfspr, hb]
  change mfsprOther spr s = _
  unfold mfsprOther
  dsimp only
  rw [if_neg (hne sprDec (by decide)), if_neg (hne sprTbl (by decide)),
    if_neg (hne sprTbu (by decide)), if_neg (hne sprSrr0 (by decide)),
    if_neg (hne sprSrr1 (by decide)), if_neg (hne sprHid0 (by decide)),
    if_neg (hne sprHid1 (by decide)), if_neg (hne sprHid2 (by decide)),
    if_neg (hne sprHid4 (by decide)), if_neg hsprg, if_neg (hne sprL2cr (by decide)),
    if_neg (hor (by decide) (by decide)), if_neg (hor (by decide) (by decide))]

/-- A sequence of calls of `E_PPC_Emulate_mtspr`. -/
def mtsprAll (ops : List (ℕ × Word)) (s : EmuState) : EmuState :=
  ops.foldl (fun s op => mtspr op.1 op.2 s) s

section

variable {s : EmuState} {ops pre post : List (ℕ × Word)} {r : SprReg} {val : Word}

lemma get_mtspr_of_ne (r : SprReg) (s : EmuState) (op : ℕ × Word)
    (hok : (mtspr op.1 op.2 s).fatalError = false) (hne : ¬ op.1 = r.spr) :
    r.get (mtspr op.1 op.2 s).cpu = r.get s.cpu := by
  rw [get_mtspr r hok, if_neg (fun h => hne h.symm)]

/-- A register that nothing writes keeps its value. -/
theorem get_mtsprAll_of_not_written (hok : (mtsprAll ops s).fatalError = false)
    (hops : ∀ op ∈ ops, op.1 ≠ r.spr) : r.get (mtsprAll ops s).cpu = r.get s.cpu :=
  foldl_frame (fun s : EmuState => s.fatalError = false) (fun s => r.get s.cpu)
    (fun op : ℕ × Word => op.1 = r.spr) (fun _ _ => mtspr_ok) (get_mtspr_of_ne r) hok hops

/-- A register shows its last write, after its bit rules. -/
theorem get_mtsprAll_of_last (hok : (mtsprAll (pre ++ (r.spr,val)::post) s).fatalError = false)
    (hpost : ∀ op ∈ post, op.1 ≠ r.spr) :
    r.get (mtsprAll (pre ++ (r.spr,val)::post) s).cpu = r.rule val (mtsprAll pre s).cpu := by
  refine foldl_last (fun s : EmuState => s.fatalError = false) (fun s => r.get s.cpu)
    (fun op : ℕ × Word => op.1 = r.spr) (fun s op => r.rule op.2 s.cpu)
    (fun _ _ => mtspr_ok) (get_mtspr_of_ne r) ?_ hok rfl hpost
  intro s op hop hhit
  rw [get_mtspr r hop, if_pos hhit.symm]

end

/-- Every number that `mfspr` knows reads a register of its own: after a sequence of writes
without an error, the last write to it, or its initial value if there was none. -/
theorem mfspr_mtsprAll {s : EmuState} {ops : List (ℕ × Word)} {spr : ℕ}
    (hok : (mtsprAll ops s).fatalError = false) (hspr : spr ∈ mfsprCases)
    (ha : SprAccessible (mtsprAll ops s) (sprSource spr)) :
    (mfspr spr (mtsprAll ops s)).2.fatalError = false ∧ ∃ r : SprReg, r.spr = sprSource spr ∧
      ((∀ op ∈ ops, op.1 ≠ sprSource spr) → (mfspr spr (mtsprAll ops s)).1 = r.get s.cpu) ∧
      ∀ pre val post, ops = pre ++ (sprSource spr,val)::post →
        (∀ op ∈ post, op.1 ≠ sprSource spr) →
        (mfspr spr (mtsprAll ops s)).1 = r.rule val (mtsprAll pre s).cpu := by
  obtain ⟨r,hr⟩ := exists_sprReg hspr
  rw [mfspr_of_accessible hr ha]
  refine ⟨hok,r,hr,?_,?_⟩
  · intro hops
    rw [← hr] at hops
    exact get_mtsprAll_of_not_written hok hops
  · rintro pre val post rfl hpost
    rw [← hr] at hok hpost ⊢
    exact get_mtsprAll_of_last hok hpost

/-- HID2 written twice, with writes to other registers in between and after. -/
theorem mfspr_mtsprAll_hid2 : (mfspr sprHid2 (mtsprAll
    [(sprHid2,0x00000001#32),(sprDec,7#32),(sprHid2,0xFFFFFFFF#32),(sprTbl,9#32)] .zero)).1 =
      0xF0FF0000#32 := by
  have hok : (mtsprAll [(sprHid2,0x00000001#32),(sprDec,7#32),(sprHid2,0xFFFFFFFF#32),
    (sprTbl,9#32)] .zero).fatalError = false := by decide
  have ha : SprAccessible (mtsprAll [(sprHid2,0x00000001#32),(sprDec,7#32),
      (sprHid2,0xFFFFFFFF#32),(sprTbl,9#32)] .zero) (sprSource sprHid2) := by
    refine ⟨?_,?_⟩
    · decide
    · intro reg h
      contradiction
  obtain ⟨-,r,hr,-,hlast⟩ := mfspr_mtsprAll hok (by decide) ha
  obtain rfl : r = .hid2 := SprReg.spr_injective hr
  exact hlast [(sprHid2,0x00000001#32),(sprDec,7#32)] 0xFFFFFFFF#32 [(sprTbl,9#32)] rfl (by decide)

end DolTools
