import DolTools.Mem.Inverse
import DolTools.Mem.PassStart

/-! Soundness of a pass: every byte that the host still shows is one that the BATs translate.
A pass neither unmaps a window that no BAT holds any more nor looks at the block a BAT
describes, so that both have to be right beforehand. -/
namespace DolTools
open Runs FirstMatch

/-- The BATs translate `v` to byte `o` of the RAM, as an instruction or as a data address. -/
def Translates (s : EmuState) (v : Word) (ram : Ram) (o : ℕ) : Prop :=
  ∃ isData, (memVirtToPhys s v isData).mapped = true ∧
    (memVirtToPhys s v isData).addr = ramPaddr ram + BitVec.ofNat 32 o

/-- What the host shows at a guest address is what the BATs translate it to. -/
def MapSound (s : EmuState) : Prop :=
  ∀ (v : Word) (x : Backing), s.host.space v.toNat = some x → Translates s v x.ram x.offset

/-- The window of the BAT is its own: it is active and names the RAM, its block is as long as
the RAM at least and ends below 2^32, and each active BAT of its table with a lower number stands
at the same place for the same RAM, or has its block apart from the window. -/
structure HoldsWindow (s : EmuState) (e : BatRef) (ram : Ram) : Prop where
  bat : s.HasBat e.1
  active : (s.batOf e).active = true
  names : s.ramOf e = some ram
  block : (s.mem.size ram).toNat ≤ (s.batOf e).size.toNat
  below : (s.batOf e).bepi.toNat + (s.batOf e).size.toNat < 2^32
  lower : ∀ j < e.1, (s.batOf (j,e.2)).active = true →
    ((s.batOf (j,e.2)).bepi = (s.batOf e).bepi ∧ (s.batOf (j,e.2)).bprn = (s.batOf e).bprn) ∨
      AddressMap.Apart (s.batOf e).bepi.toNat (s.mem.size ram).toNat
        (s.batOf (j,e.2)).bepi.toNat (s.batOf (j,e.2)).size.toNat

instance (s : EmuState) (e : BatRef) (ram : Ram) : Decidable (HoldsWindow s e ram) :=
  decidable_of_iff (s.HasBat e.1 ∧ (s.batOf e).active = true ∧ s.ramOf e = some ram ∧
      (s.mem.size ram).toNat ≤ (s.batOf e).size.toNat ∧
      (s.batOf e).bepi.toNat + (s.batOf e).size.toNat < 2^32 ∧
      ∀ j < e.1, (s.batOf (j,e.2)).active = true →
        ((s.batOf (j,e.2)).bepi = (s.batOf e).bepi ∧
          (s.batOf (j,e.2)).bprn = (s.batOf e).bprn) ∨
        AddressMap.Apart (s.batOf e).bepi.toNat (s.mem.size ram).toNat
          (s.batOf (j,e.2)).bepi.toNat (s.batOf (j,e.2)).size.toNat)
    ⟨fun ⟨h,ha,hn,hs,hb,hl⟩ => ⟨h,ha,hn,hs,hb,hl⟩,
      fun h => ⟨h.bat,h.active,h.names,h.block,h.below,h.lower⟩⟩

/-- The byte stands at its place in the window of a BAT that holds it. -/
def Held (s : EmuState) (v : Word) (x : Backing) : Prop :=
  ∃ e, HoldsWindow s e x.ram ∧ x.offset < (s.mem.size x.ram).toNat ∧
    v.toNat = (s.batOf e).bepi.toNat + x.offset

def AllHeld (s : EmuState) : Prop :=
  ∀ (v : Word) (x : Backing), s.host.space v.toNat = some x → Held s v x

/-- Each BAT below the limit holds its window, unless it is sure not to be mapped anew. -/
def RenewsHeld (s : EmuState) (slots : Ram → BatRef → Word) (vaddr : Word) : Prop :=
  ∀ e ram, NamesRam s e ram → (s.batOf e).bepi < maxAllowedVaddr →
    HoldsWindow s e ram ∨ SurelyFound s slots vaddr ram e

section

variable {s t : EmuState} {e : BatRef} {v : Word} {ram : Ram} {o : ℕ} {x : Backing}

lemma MapStep.translates (h : MapStep s t) (hs : Translates s v ram o) : Translates t v ram o := by
  obtain ⟨isData,hs⟩ := hs
  have heq : memVirtToPhys t v isData = memVirtToPhys s v isData := by
    rw [memVirtToPhys, funext (h.bat isData), h.maxBAT, memVirtToPhys]
  exact ⟨isData,by rwa [heq]⟩

lemma HoldsWindow.congr (h : SameTables s t) (hs : HoldsWindow s e ram) : HoldsWindow t e ram := by
  obtain ⟨hbat,hactive,hnames,hblock,hbelow,hlower⟩ := hs
  constructor
  · exact h.hasBat.mpr hbat
  · rwa [h.batOf]
  · rwa [h.ramOf]
  · rwa [h.batOf, h.size]
  · rwa [h.batOf]
  · simpa only [h.batOf, h.size] using hlower

lemma Held.congr (h : SameTables s t) (hs : Held s v x) : Held t v x := by
  obtain ⟨e,hholds,hoffset,hv⟩ := hs
  refine ⟨e,hholds.congr h,?_,?_⟩
  · rwa [h.size]
  · rwa [h.batOf]

lemma RenewsHeld.congr {slots slots' : Ram → BatRef → Word} {vaddr : Word} (h : SameTables s t)
    (hslots : ∀ ram e, s.HasBat e.1 → slots' ram e = slots ram e)
    (hs : RenewsHeld s slots vaddr) : RenewsHeld t slots' vaddr := by
  intro e ram hnames hlow
  rw [h.batOf] at hlow
  rcases hs e ram (h.namesRam.mp hnames) hlow with hholds | hfound
  · exact .inl (hholds.congr h)
  · exact .inr (h.surelyFound hslots hfound)

/-- The range test of the code, where it wraps too. -/
lemma Bat.inRange_of_coversVirt {b : Bat} (h : b.coversVirt v = true) :
    b.bepi.toNat ≤ v.toNat ∧ v.toNat < b.bepi.toNat + b.size.toNat := by
  rw [coversVirt, decide_eq_true_iff, BitVec.le_def, BitVec.lt_def, BitVec.toNat_add] at h
  have hmod := Nat.mod_le (b.bepi.toNat + b.size.toNat) (2^32)
  omega

/-- No block length takes a bit from the base of a RAM. -/
lemma Bat.toPhys_addr_of_ram {b : Bat} (hram : b.bprn = ramPaddr ram)
    (h : b.coversVirt v = true) : (b.toPhys v).addr = ramPaddr ram + (v - b.bepi) := by
  have hsize : b.size ≠ 0 := by
    intro hzero
    have hin := inRange_of_coversVirt h
    rw [hzero] at hin
    change _ ∧ v.toNat < b.bepi.toNat + 0 at hin
    omega
  have hmask : ramPaddr ram &&& ~~~(b.size - 1#32) = ramPaddr ram := by
    revert hsize
    unfold size memPPCBlockLenToBytes
    split <;> cases ram <;> decide
  rw [toPhys, hram, hmask]

/-- The lookup finds the RAM throughout a window that is held. -/
theorem translates_of_holdsWindow (h : HoldsWindow s e ram) (ho : o < (s.mem.size ram).toNat)
    (hv : v.toNat = (s.batOf e).bepi.toNat + o) : Translates s v ram o := by
  have hblock := h.block
  have hbelow := h.below
  have hhit : s.Hit e.2 (·.coversVirt v) e.1 := by
    refine ⟨h.active,decide_eq_true ⟨?_,?_⟩⟩
    · rw [BitVec.le_def]
      change (s.batOf e).bepi.toNat ≤ _
      omega
    · rw [BitVec.lt_def, BitVec.toNat_add]
      change _ < ((s.batOf e).bepi.toNat + (s.batOf e).size.toNat) % 2^32
      rw [Nat.mod_eq_of_lt hbelow]
      omega
  obtain ⟨j,hj⟩ := exists_lowest_hit ⟨e.1,h.bat,hhit⟩
  -- the entry that the lookup stops at stands at the same place
  have hplace : (s.bat e.2 j).bepi = (s.batOf e).bepi ∧
      (s.bat e.2 j).bprn = (s.batOf e).bprn := by
    rcases lt_trichotomy j e.1 with hlt | rfl | hlt
    · rcases h.lower j hlt hj.holds.1 with hsame | hapart
      · exact hsame
      · have hin : (s.batOf (j,e.2)).bepi.toNat ≤ v.toNat ∧
            v.toNat < (s.batOf (j,e.2)).bepi.toNat + (s.batOf (j,e.2)).size.toNat :=
          Bat.inRange_of_coversVirt hj.holds.2
        rcases hapart with hapart | hapart <;> omega
    · exact ⟨rfl,rfl⟩
    · exact absurd (hj.first e.1 h.bat hhit) (not_le.mpr hlt)
  refine ⟨e.2,memVirtToPhys_mapped_iff.mpr ⟨j,hj.mem,hj.holds⟩,?_⟩
  rw [memVirtToPhys_of_lowest hj, Bat.toPhys_addr_of_ram (hplace.2.trans (ramOf_spec h.names).2)
    hj.holds.2, hplace.1]
  congr 1
  apply BitVec.eq_of_toNat_eq
  rw [BitVec.toNat_sub_of_le (by rw [BitVec.le_def]; omega), BitVec.toNat_ofNat,
    Nat.mod_eq_of_lt (by have := v.isLt; omega)]
  omega

theorem AllHeld.mapSound (h : AllHeld s) : MapSound s := by
  intro v x hx
  obtain ⟨e,hholds,hoffset,hv⟩ := h v x hx
  exact translates_of_holdsWindow hholds hoffset hv

end

section

variable {k : Kernel} {l : ReloadLoop} {e : BatRef} {vaddr : Word} {s : EmuState} {ram : Ram}
  {pre post : List BatRef}

lemma reloadEntry_space_of_high (hk : k.RefusesHigh)
    (h : reloadTarget l e = some ram) (hhigh : ¬ (l.s.batOf e).bepi < maxAllowedVaddr) :
    (reloadEntry k l e).s.host.space = l.s.host.space := by
  rw [reloadEntry_of_target h, mapWindow_space]
  have hfail := hk l.s.host.calls ram _ (l.s.mem.size ram) (!e.2) (BitVec.not_lt.mp hhigh)
  exact (Host.mmap_of_fails (by rw [hfail]; exact Bool.false_ne_true)).2

/-- The invariant of a pass over the entries done so far. -/
structure HeldLoop (s : EmuState) (vaddr : Word) (pre : List BatRef) (l : ReloadLoop) : Prop where
  start : StartLoop s vaddr pre l
  held : l.s.fatalError = false → ∀ (v : Word) (x : Backing), l.s.host.space v.toNat = some x →
    Held s v x

lemma heldLoop_next (hk : k.RefusesHigh) (hrenews : RenewsHeld s s.mem.slot vaddr)
    (horder : reloadOrder s.maxBAT = pre ++ e::post) (h : HeldLoop s vaddr pre l) :
    HeldLoop s vaddr (pre ++ [e]) (reloadEntry k l e) := by
  have hstart := h.start
  have hbat : s.HasBat e.1 := mem_reloadOrder.mp (by rw [horder]; simp)
  refine ⟨hstart.next hbat,?_⟩
  intro hok v x hx
  have hold := h.held (reloadEntry_mapStep.ok hok) v x
  cases htarget : reloadTarget l e with
  | none =>
    rw [reloadEntry_space_of_no_target htarget] at hx
    exact hold hx
  | some ram =>
    by_cases hlow : (l.s.batOf e).bepi < maxAllowedVaddr
    · rw [reloadEntry_space htarget hlow hok, hstart.step.batOf, hstart.step.size] at hx
      rcases AddressMap.mapRange_eq_some hx with ⟨⟨hle,hlt⟩,rfl⟩ | hx
      · -- a byte of the new window
        have hnames := names_of_target hstart.step hbat htarget
        rw [hstart.step.batOf] at hlow
        rcases hrenews e ram hnames hlow with hholds | hfound
        · refine ⟨e,hholds,?_,?_⟩
          · change v.toNat - _ < (s.mem.size ram).toNat
            omega
          · change v.toNat = _ + (v.toNat - _)
            omega
        · rw [hstart.no_target_of_found horder hnames.names hfound] at htarget
          contradiction
      · exact hold hx
    · rw [reloadEntry_space_of_high hk htarget hlow] at hx
      exact hold hx

/-- A pass over bytes that are held, which only maps windows that are, leaves the bytes held. -/
theorem allHeld_memReloadMap (hk : k.RefusesHigh) (hrenews : RenewsHeld s s.mem.slot vaddr)
    (hheld : AllHeld s) (hok : (memReloadMap k vaddr s).fatalError = false) :
    AllHeld (memReloadMap k vaddr s) := by
  have hloop : HeldLoop s vaddr (reloadOrder s.maxBAT)
      ((reloadOrder s.maxBAT).foldl (reloadEntry k) ⟨s,vaddr,false⟩) := by
    refine foldl_invariant (P := fun _ _ => True) (fun _ _ _ _ => trivial)
      ⟨.start s vaddr,fun _ => hheld⟩ ?_
    intro pre e post hes hpre _
    exact heldLoop_next hk hrenews hes hpre
  intro v x hx
  have hsame : SameTables s (memReloadMap k vaddr s) := memReloadMap_mapStep.sameTables
  rw [memReloadMap_eq] at hok hx
  exact (hloop.held hok v x hx).congr hsame

end

section

variable {s : EmuState} {msr vaddr : Word}

/-- The default tables hold their windows, on either console. -/
theorem renewsHeld_of_regions (h : Regions { CpuState.zero with msr := msr } s)
    (slots : Ram → BatRef → Word) : RenewsHeld s slots vaddr := by
  have hcongr : ∀ {t : EmuState}, SameTables t s →
      (∀ e ram, NamesRam t e ram → (t.batOf e).bepi < maxAllowedVaddr → HoldsWindow t e ram) →
      RenewsHeld s slots vaddr := by
    intro t hsame ht e ram hnames hlow
    rw [hsame.batOf] at hlow
    exact .inl ((ht e ram (hsame.namesRam.mp hnames) hlow).congr hsame)
  rcases h.sameTables with hsame | hsame
  · refine hcongr hsame (fun e ram hnames hlow => ?_)
    cases ram <;> revert e <;> decide
  · refine hcongr hsame (fun e ram hnames hlow => ?_)
    cases ram <;> revert e <;> decide

end

end DolTools
