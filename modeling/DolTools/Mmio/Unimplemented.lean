import DolTools.Library.BigEndian
import DolTools.Mmio.Chipset

/-! Accesses to registers that no block implements. They are errors, but for the gaps of the
page that the serial interfaces share, and for the 16-bit reads of the memory interface, whose
`default` label stands before a register. -/
namespace DolTools

namespace RegisterBlock

/-- The registers for which a read of the given width has a case label. -/
def readCases : RegisterBlock → ℤ → List ℕ
  | vi, w => if w = 2 then [0x06C] else []
  | pi, w => if w = 4 then [0x000, 0x004, 0x00C, 0x010, 0x014, 0x02C] else []
  | mi, w => if w = 2 then [0x10, 0x1C, 0x20] else []
  | dsp, w =>
    if w = 4 then [0x020, 0x024, 0x028]
    else if w = 2 then
      [0x000, 0x002, 0x004, 0x006, 0x00A, 0x012, 0x020, 0x022, 0x024, 0x026, 0x028, 0x02A]
    else []
  | ai, w => if w = 4 ∨ w = 2 then [0x00] else []

end RegisterBlock

section

variable {w : ℤ} {addr val : Word}

lemma viRead_unknown {d : Device ViState} (hw : IsAccessWidth w)
    (h : offset addr 0x00000FFF#32 ∉ RegisterBlock.vi.readCases w) :
    viRead addr w d = .fatal d 0 := by
  unfold viRead
  rcases hw with rfl | rfl | rfl
  · rfl
  · simp only [RegisterBlock.readCases] at h
    split <;> simp_all
  · rfl

lemma piRead_unknown {d : Device PiState} (hw : IsAccessWidth w)
    (h : offset addr 0x00000FFF#32 ∉ RegisterBlock.pi.readCases w) :
    piRead addr w d = .fatal d 0 := by
  unfold piRead
  rcases hw with rfl | rfl | rfl
  · rfl
  · rfl
  · simp only [RegisterBlock.readCases] at h
    split <;> simp_all

lemma dspRead_unknown {d : Device DspState} (hw : IsAccessWidth w)
    (h : offset addr 0x00000FFF#32 ∉ RegisterBlock.dsp.readCases w) :
    dspRead addr w d = .fatal d 0 := by
  unfold dspRead
  rcases hw with rfl | rfl | rfl
  · rfl
  · simp only [RegisterBlock.readCases] at h
    dsimp only
    split <;> simp_all
  · simp only [RegisterBlock.readCases] at h
    dsimp only
    split <;> simp_all

lemma aiRead_unknown {d : Device AiState} (hw : IsAccessWidth w)
    (h : offset addr 0x000000FF#32 ∉ RegisterBlock.ai.readCases w) :
    aiRead addr w d = .fatal d 0 := by
  unfold aiRead
  rcases hw with rfl | rfl | rfl
  · rfl
  · simp only [RegisterBlock.readCases] at h
    split <;> simp_all
  · simp only [RegisterBlock.readCases] at h
    split <;> simp_all

/-- The one `default` label that does not report an error: it returns the protection type. -/
lemma miRead_unknown {d : Device MiState} (hw : IsAccessWidth w)
    (h : offset addr 0x000000FF#32 ∉ RegisterBlock.mi.readCases w) :
    miRead addr w d =
      if w = 2 then .ret d (d.regs.protType.setWidth 32) else .fatal d 0 := by
  unfold miRead
  rcases hw with rfl | rfl | rfl
  · rfl
  · simp only [RegisterBlock.readCases] at h
    split <;> simp_all
  · rfl

/-- A read without a case of its own is an error, but for the 16-bit reads of MI. -/
theorem RegisterBlock.read_unknown {b : RegisterBlock} {d : Device b.State}
    (hw : IsAccessWidth w) (h : offset addr b.mask ∉ b.readCases w)
    (hmi : ¬ (b = .mi ∧ w = 2)) : b.read addr w d = .fatal d 0 := by
  cases b with
  | vi => exact viRead_unknown hw h
  | pi => exact piRead_unknown hw h
  | mi => exact (miRead_unknown hw h).trans (if_neg (fun h2 => hmi ⟨rfl,h2⟩))
  | dsp => exact dspRead_unknown hw h
  | ai => exact aiRead_unknown hw h

lemma piWrite_unknown {d : Device PiState} (hw : IsAccessWidth w)
    (h : offset addr 0x00000FFF#32 ∉ RegisterBlock.pi.writeCases w) :
    piWrite addr val w d = .fatal d () := by
  unfold piWrite
  rcases hw with rfl | rfl | rfl
  · rfl
  · rfl
  · simp only [RegisterBlock.writeCases] at h
    split <;> simp_all

lemma miWrite_unknown {d : Device MiState} (hw : IsAccessWidth w)
    (h : offset addr 0x000000FF#32 ∉ RegisterBlock.mi.writeCases w) :
    miWrite addr val w d = .fatal d () := by
  unfold miWrite
  rcases hw with rfl | rfl | rfl
  · rfl
  · simp only [RegisterBlock.writeCases] at h
    dsimp only
    split <;> simp_all
  · rfl

lemma dspWrite_unknown {d : Device DspState} (hw : IsAccessWidth w)
    (h : offset addr 0x00000FFF#32 ∉ RegisterBlock.dsp.writeCases w) :
    dspWrite addr val w d = .fatal d () := by
  unfold dspWrite
  rcases hw with rfl | rfl | rfl
  · rfl
  · simp only [RegisterBlock.writeCases] at h
    dsimp only
    split <;> simp_all
  · simp only [RegisterBlock.writeCases] at h
    dsimp only
    split <;> simp_all

lemma aiWrite_unknown {d : Device AiState} (hw : IsAccessWidth w)
    (h : offset addr 0x000000FF#32 ∉ RegisterBlock.ai.writeCases w) :
    aiWrite addr val w d = .fatal d () := by
  unfold aiWrite
  rcases hw with rfl | rfl | rfl
  · rfl
  · simp only [RegisterBlock.writeCases] at h
    dsimp only
    split <;> simp_all
  · simp only [RegisterBlock.writeCases] at h
    split <;> simp_all

/-- A write without a case of its own is an error. -/
theorem RegisterBlock.write_unknown {b : RegisterBlock} {d : Device b.State}
    (hw : IsAccessWidth w) (h : offset addr b.mask ∉ b.writeCases w) :
    b.write addr val w d = .fatal d () := by
  cases b with
  | vi => rcases hw with rfl | rfl | rfl <;> rfl
  | pi => exact piWrite_unknown hw h
  | mi => exact miWrite_unknown hw h
  | dsp => exact dspWrite_unknown hw h
  | ai => exact aiWrite_unknown hw h

end

/-- Flipper serves 0x0C000000 to 0x0C0FFFFF, Hollywood 0x0D000000 to 0x0D0FFFFF. -/
def IsChipset (addr : Word) : Prop :=
  addr &&& 0xFFF00000#32 = 0x0C000000#32 ∨ addr &&& 0xFFF00000#32 = 0x0D000000#32

instance (addr : Word) : Decidable (IsChipset addr) := inferInstanceAs (Decidable (_ ∨ _))

def chipsetRoute (addr : Word) : Route :=
  if addr &&& 0xFFF00000#32 = 0x0C000000#32 then flipperRoute addr else hollywoodRoute addr

/-- `E_MMIO_Flipper_Read` or `E_MMIO_Hollywood_Read`, by the range of the address. -/
def chipsetRead (hw : Hardware) (addr : Word) (accessWidth : ℤ) (s : EmuState) :
    MmioAccess Word :=
  if addr &&& 0xFFF00000#32 = 0x0C000000#32 then flipperRead hw addr accessWidth s
  else hollywoodRead hw addr accessWidth s

/-- `E_MMIO_Flipper_Write` or `E_MMIO_Hollywood_Write`, by the range of the address. -/
def chipsetWrite (addr val : Word) (accessWidth : ℤ) (s : EmuState) : MmioAccess Unit :=
  if addr &&& 0xFFF00000#32 = 0x0C000000#32 then flipperWrite addr val accessWidth s
  else hollywoodWrite addr val accessWidth s

/-- In no forwarded window, and without a case in the switch of its block. -/
def Unimplemented (table : RegisterBlock → ℤ → List ℕ) (addr : Word) (w : ℤ) : Prop :=
  match chipsetRoute addr with
  | .forwarded => False
  | .block b => offset addr b.mask ∉ table b w
  | .fatal | .nothing => True

/-- Between the windows of DI, SI, EXI and AI. -/
def SerialGap (addr : Word) : Prop :=
  (addr &&& 0xFFFFF000#32 = 0x0C006000#32 ∨ addr &&& 0xFFFFF000#32 = 0x0D006000#32) ∧
    addr &&& 0x0000FF00#32 ∉ [0x00006000#32, 0x00006400#32, 0x00006800#32, 0x00006C00#32]

/-- A 16-bit access of the memory interface. -/
def MiHalf (addr : Word) (w : ℤ) : Prop := addr &&& 0xFFFFF000#32 = 0x0C004000#32 ∧ w = 2

/-- The access sets the error flag and returns zero. -/
def ReadStops (r : MmioAccess Word) : Prop := r.s.fatalError = true ∧ r.value = 0

/-- The access sets the error flag and changes no register of a device. -/
def WriteStops (s : EmuState) (r : MmioAccess Unit) : Prop :=
  r.s.fatalError = true ∧ r.s.chipset = s.chipset ∧ r.s.forward = s.forward

section

variable {addr : Word}

lemma range_of_page {p : Word} (h : addr &&& 0xFFFFF000#32 = p) :
    addr &&& 0xFFF00000#32 = p &&& 0xFFF00000#32 := by
  rw [← h, BitVec.and_assoc]
  rfl

lemma serialRoute_ne_mi : serialRoute addr ≠ .block .mi := by
  unfold serialRoute
  dsimp only
  split_ifs <;> simp

lemma serialRoute_nothing : serialRoute addr = .nothing ↔
    addr &&& 0x0000FF00#32 ∉ [0x00006000#32, 0x00006400#32, 0x00006800#32, 0x00006C00#32] := by
  unfold serialRoute
  dsimp only
  split_ifs <;> simp_all

lemma flipperRoute_nothing : flipperRoute addr = .nothing ↔
    addr &&& 0xFFFFF000#32 = 0x0C006000#32 ∧ serialRoute addr = .nothing := by
  by_cases hp : addr &&& 0xFFFFF000#32 = 0x0C006000#32
  · have heq : flipperRoute addr = serialRoute addr := by
      rw [flipperRoute, hp]
      rfl
    rw [heq]
    simp [hp]
  · have hne : flipperRoute addr ≠ .nothing := by
      unfold flipperRoute
      split
      case h_7 h => exact absurd (BitVec.eq_of_toNat_eq h) hp
      all_goals simp
    simp [hp, hne]

lemma hollywoodRoute_nothing : hollywoodRoute addr = .nothing ↔
    addr &&& 0xFFFFF000#32 = 0x0D006000#32 ∧ serialRoute addr = .nothing := by
  by_cases hp : addr &&& 0xFFFFF000#32 = 0x0D006000#32
  · have heq : hollywoodRoute addr = serialRoute addr := by
      rw [hollywoodRoute, hp]
      rfl
    rw [heq]
    simp [hp]
  · have hne : hollywoodRoute addr ≠ .nothing := by
      unfold hollywoodRoute
      split
      case h_1 h => exact absurd (BitVec.eq_of_toNat_eq h) hp
      all_goals simp
    simp [hp, hne]

lemma flipperRoute_mi :
    flipperRoute addr = .block .mi ↔ addr &&& 0xFFFFF000#32 = 0x0C004000#32 := by
  constructor
  · intro h
    unfold flipperRoute at h
    split at h
    case h_5 hp => exact BitVec.eq_of_toNat_eq hp
    case h_7 => exact absurd h serialRoute_ne_mi
    all_goals simp at h
  · intro h
    rw [flipperRoute, h]
    rfl

lemma hollywoodRoute_ne_mi : hollywoodRoute addr ≠ .block .mi := by
  unfold hollywoodRoute
  split
  · exact serialRoute_ne_mi
  · simp

/-- The dispatch drops an access exactly in the gaps of the serial page. -/
theorem chipsetRoute_nothing :
    chipsetRoute addr = .nothing ↔ SerialGap addr := by
  unfold chipsetRoute SerialGap
  split
  · rename_i hf
    have hne : addr &&& 0xFFFFF000#32 ≠ 0x0D006000#32 := by
      intro hp
      rw [range_of_page hp] at hf
      contradiction
    rw [flipperRoute_nothing, serialRoute_nothing]
    simp [hne]
  · rename_i hf
    have hne : addr &&& 0xFFFFF000#32 ≠ 0x0C006000#32 := fun hp => hf (range_of_page hp)
    rw [hollywoodRoute_nothing, serialRoute_nothing]
    simp [hne]

theorem chipsetRoute_mi :
    chipsetRoute addr = .block .mi ↔ addr &&& 0xFFFFF000#32 = 0x0C004000#32 := by
  unfold chipsetRoute
  split
  · exact flipperRoute_mi
  · rename_i hf
    have hne : addr &&& 0xFFFFF000#32 ≠ 0x0C004000#32 := fun hp => hf (range_of_page hp)
    simp [hne, hollywoodRoute_ne_mi]

end

section

variable {addr val : Word} {w : ℤ} {s : EmuState} {hw : Hardware}

lemma chipsetRead_eq : chipsetRead hw addr w s = routeRead hw (chipsetRoute addr) addr w s := by
  unfold chipsetRead chipsetRoute
  split <;> rfl

lemma chipsetWrite_eq :
    chipsetWrite addr val w s = routeWrite (chipsetRoute addr) addr val w s := by
  unfold chipsetWrite chipsetRoute
  split <;> rfl

lemma onBlock_read_unknown {b : RegisterBlock} (hwidth : IsAccessWidth w)
    (h : offset addr b.mask ∉ b.readCases w) (hmi : ¬ (b = .mi ∧ w = 2)) :
    ReadStops (onBlock b (b.read addr w) s) := by
  unfold onBlock
  rw [RegisterBlock.read_unknown hwidth h hmi]
  exact ⟨rfl,rfl⟩

lemma onBlock_mi_unknown (h : offset addr RegisterBlock.mi.mask ∉ RegisterBlock.mi.readCases 2) :
    ReadStops (onBlock .mi (RegisterBlock.mi.read addr 2) s) ↔
      s.fatalError = true ∧ s.chipset.mi.protType = 0 := by
  unfold onBlock
  rw [show RegisterBlock.mi.read addr 2 _ = _ from miRead_unknown (.inr (.inl rfl)) h,
    if_pos rfl]
  have hz : s.chipset.mi.protType.setWidth 32 = (0 : Half).setWidth 32 ↔
    s.chipset.mi.protType = 0 := BigEndian.setWidth_inj
  exact and_congr_right (fun _ => hz)

/-- A read of an unimplemented register stops the guest, but for the gaps of the serial page
and the 16-bit reads of MI, which stop nothing that was not stopped already. -/
theorem chipsetRead_stops_iff (hwidth : IsAccessWidth w)
    (hu : Unimplemented RegisterBlock.readCases addr w) :
    ReadStops (chipsetRead hw addr w s) ↔ (SerialGap addr → s.fatalError = true) ∧
      (MiHalf addr w → s.fatalError = true ∧ s.chipset.mi.protType = 0) := by
  rw [chipsetRead_eq, ← chipsetRoute_nothing, MiHalf, ← chipsetRoute_mi]
  unfold Unimplemented at hu
  cases hr : chipsetRoute addr with
  | forwarded => simp [hr] at hu
  | fatal => simp [routeRead, ReadStops, EmuState.fatal]
  | nothing => simp [routeRead, ReadStops]
  | block b =>
    simp only [hr] at hu
    by_cases hmi : b = .mi ∧ w = 2
    · obtain ⟨rfl,rfl⟩ := hmi
      simpa [routeRead] using onBlock_mi_unknown hu
    · have hstop : ReadStops (routeRead hw (.block b) addr w s) :=
        onBlock_read_unknown hwidth hu hmi
      simp [hstop, hmi]

/-- A write to an unimplemented register stops the guest, but for the gaps. -/
theorem chipsetWrite_stops_iff (hwidth : IsAccessWidth w)
    (hu : Unimplemented RegisterBlock.writeCases addr w) :
    WriteStops s (chipsetWrite addr val w s) ↔ (SerialGap addr → s.fatalError = true) := by
  rw [chipsetWrite_eq, ← chipsetRoute_nothing]
  unfold Unimplemented at hu
  cases hr : chipsetRoute addr with
  | forwarded => simp [hr] at hu
  | fatal => simp [routeWrite, WriteStops, EmuState.fatal]
  | nothing => simp [routeWrite, WriteStops]
  | block b =>
    simp only [hr] at hu
    have hstop : WriteStops s (routeWrite (.block b) addr val w s) := by
      change WriteStops s (onBlock b (b.write addr val w) s)
      unfold onBlock
      rw [RegisterBlock.write_unknown hwidth hu]
      refine ⟨rfl,?_,rfl⟩
      cases b <;> rfl
    simp [hstop]

end

/-- What is to hold of every access: one without a register of its own stops the guest. -/
def UnimplementedStops (hw : Hardware) (s : EmuState) (addr val : Word) (w : ℤ) : Prop :=
  (Unimplemented RegisterBlock.readCases addr w → ReadStops (chipsetRead hw addr w s)) ∧
    (Unimplemented RegisterBlock.writeCases addr w → WriteStops s (chipsetWrite addr val w s))

lemma unimplemented_of_gap {table : RegisterBlock → ℤ → List ℕ} {addr : Word} {w : ℤ}
    (h : SerialGap addr) : Unimplemented table addr w := by
  rw [Unimplemented, chipsetRoute_nothing.mpr h]
  trivial

/-- Exactly the gaps of the serial page, read or written, and the unknown 16-bit registers of
MI, read, are served without an error. -/
theorem unimplementedStops_iff (hw : Hardware) (s : EmuState) {addr : Word} (val : Word)
    {w : ℤ} (ha : IsChipset addr ∧ IsAccessWidth w) :
    UnimplementedStops hw s addr val w ↔ (SerialGap addr → s.fatalError = true) ∧
      (MiHalf addr w → Unimplemented RegisterBlock.readCases addr w →
        s.fatalError = true ∧ s.chipset.mi.protType = 0) := by
  constructor
  · rintro ⟨hread,-⟩
    constructor
    · intro hgap
      have hu : Unimplemented RegisterBlock.readCases addr w := unimplemented_of_gap hgap
      exact ((chipsetRead_stops_iff ha.2 hu).mp (hread hu)).1 hgap
    · intro hmi hu
      exact ((chipsetRead_stops_iff ha.2 hu).mp (hread hu)).2 hmi
  · rintro ⟨hgap,hmi⟩
    constructor
    · intro hu
      exact (chipsetRead_stops_iff ha.2 hu).mpr ⟨hgap,fun h => hmi h hu⟩
    · intro hu
      exact (chipsetWrite_stops_iff ha.2 hu).mpr hgap

/-- An unknown 32-bit register of the processor interface. -/
theorem unimplementedStops_pi :
    UnimplementedStops ⟨fun _ _ _ => 0,0⟩ .zero 0x0C003008#32 1#32 4 := by
  refine (unimplementedStops_iff _ _ _ (by decide)).mpr ⟨?_,?_⟩
  · rintro ⟨h,-⟩
    revert h
    decide
  · rintro ⟨h,-⟩
    contradiction

/-- Nothing stops the guest between the windows of DI and SI. -/
theorem serial_gap_served : ¬ ∀ (hw : Hardware) (s : EmuState) (addr val : Word) (w : ℤ),
    IsChipset addr ∧ IsAccessWidth w → UnimplementedStops hw s addr val w := by
  intro h
  have hgap : SerialGap 0x0C006100#32 := ⟨.inl rfl,by decide⟩
  have hstop := h ⟨fun _ _ _ => 0,0⟩ .zero 0x0C006100#32 0 4 (by decide)
  exact absurd (hstop.1 (unimplemented_of_gap hgap)).1 (by decide)

end DolTools
