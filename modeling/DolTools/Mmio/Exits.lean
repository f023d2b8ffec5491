import DolTools.Mmio.Interfaces
import DolTools.Mmio.Dsp

/-! Where the device routines end. The five register blocks share one shape: a read ends at
a `return` in every case, a write only where it reports an unknown register. -/
namespace DolTools

/-- The register blocks with a switch on the register for every access width. -/
inductive RegisterBlock
  | vi
  | pi
  | mi
  | dsp
  | ai
  deriving DecidableEq, Repr

namespace RegisterBlock

abbrev State : RegisterBlock → Type
  | vi => ViState
  | pi => PiState
  | mi => MiState
  | dsp => DspState
  | ai => AiState

def read : (b : RegisterBlock) → Word → ℤ → Device b.State → Access b.State Word
  | vi => viRead
  | pi => piRead
  | mi => miRead
  | dsp => dspRead
  | ai => aiRead

def write : (b : RegisterBlock) → Word → Word → ℤ → Device b.State → Access b.State Unit
  | vi => viWrite
  | pi => piWrite
  | mi => miWrite
  | dsp => dspWrite
  | ai => aiWrite

def mask : RegisterBlock → Word
  | vi | pi | dsp => 0x00000FFF#32
  | mi | ai => 0x000000FF#32

/-- The registers for which a write of the given width has a case label. -/
def writeCases : RegisterBlock → ℤ → List ℕ
  | vi, _ => []
  | pi, w => if w = 4 then [0x000, 0x004, 0x00C, 0x010, 0x014, 0x02C] else []
  | mi, w => if w = 2 then [0x10, 0x1C, 0x20] else []
  | dsp, w =>
    if w = 4 then [0x020, 0x024, 0x028]
    else if w = 2 then
      [0x000, 0x002, 0x004, 0x006, 0x00A, 0x012, 0x020, 0x022, 0x024, 0x026, 0x028, 0x02A]
    else []
  | ai, w => if w = 4 ∨ w = 2 then [0x00] else []

end RegisterBlock

def IsAccessWidth (w : ℤ) : Prop := w = 1 ∨ w = 2 ∨ w = 4

instance (w : ℤ) : Decidable (IsAccessWidth w) := inferInstanceAs (Decidable (_ ∨ _))

variable {w : ℤ}

lemma viRead_exit (addr : Word) (d : Device ViState) :
    (viRead addr w d).exit = .ret ↔ IsAccessWidth w := by
  unfold viRead IsAccessWidth
  split_ifs
  · simp [*]
  · split <;> simp [*]
  · simp [*]
  · simp [*]

lemma piRead_exit (addr : Word) (d : Device PiState) :
    (piRead addr w d).exit = .ret ↔ IsAccessWidth w := by
  unfold piRead IsAccessWidth
  split_ifs
  · split <;> simp [*]
  · simp [*]
  · simp [*]
  · simp [*]

lemma miRead_exit (addr : Word) (d : Device MiState) :
    (miRead addr w d).exit = .ret ↔ IsAccessWidth w := by
  unfold miRead IsAccessWidth
  split_ifs
  · simp [*]
  · split <;> simp [*]
  · simp [*]
  · simp [*]

lemma dspRead_exit (addr : Word) (d : Device DspState) :
    (dspRead addr w d).exit = .ret ↔ IsAccessWidth w := by
  unfold dspRead IsAccessWidth
  split_ifs
  · split <;> simp [*]
  · split <;> simp [*]
  · simp [*]
  · simp [*]

lemma aiRead_exit (addr : Word) (d : Device AiState) :
    (aiRead addr w d).exit = .ret ↔ IsAccessWidth w := by
  unfold aiRead IsAccessWidth
  split_ifs
  · split <;> simp [*]
  · split <;> simp [*]
  · simp [*]
  · simp [*]

/-- A read of any block ends at a `return` for exactly the widths it has a switch for. -/
theorem RegisterBlock.read_exit (b : RegisterBlock) (addr : Word) (d : Device b.State) :
    (b.read addr w d).exit = .ret ↔ IsAccessWidth w := by
  cases b with
  | vi => exact viRead_exit addr d
  | pi => exact piRead_exit addr d
  | mi => exact miRead_exit addr d
  | dsp => exact dspRead_exit addr d
  | ai => exact aiRead_exit addr d

/-- Whether a write returns depends on the width and the register alone. -/
def WriteReturns (b : RegisterBlock) (addr : Word) (w : ℤ) : Prop :=
  IsAccessWidth w ∧ offset addr b.mask ∉ b.writeCases w

lemma viWrite_exit (addr val : Word) (d : Device ViState) :
    (viWrite addr val w d).exit = .ret ↔ WriteReturns .vi addr w := by
  unfold viWrite WriteReturns IsAccessWidth RegisterBlock.writeCases
  split_ifs <;> simp [*]

lemma piWrite_exit (addr val : Word) (d : Device PiState) :
    (piWrite addr val w d).exit = .ret ↔ WriteReturns .pi addr w := by
  unfold piWrite WriteReturns IsAccessWidth RegisterBlock.writeCases RegisterBlock.mask
  split_ifs
  · split <;> simp_all
  · simp [*]
  · simp [*]
  · simp [*]

lemma miWrite_exit (addr val : Word) (d : Device MiState) :
    (miWrite addr val w d).exit = .ret ↔ WriteReturns .mi addr w := by
  unfold miWrite WriteReturns IsAccessWidth RegisterBlock.writeCases RegisterBlock.mask
  split_ifs
  · simp_all
  · split <;> simp_all
  · simp [*]
  · simp [*]

lemma dspWrite_exit (addr val : Word) (d : Device DspState) :
    (dspWrite addr val w d).exit = .ret ↔ WriteReturns .dsp addr w := by
  unfold dspWrite WriteReturns IsAccessWidth RegisterBlock.writeCases RegisterBlock.mask
  split_ifs
  · split <;> simp_all
  · split <;> simp_all
  · simp [*]
  · simp [*]

lemma aiWrite_exit (addr val : Word) (d : Device AiState) :
    (aiWrite addr val w d).exit = .ret ↔ WriteReturns .ai addr w := by
  unfold aiWrite WriteReturns IsAccessWidth RegisterBlock.writeCases RegisterBlock.mask
  split_ifs
  · split <;> simp_all
  · split <;> simp_all
  · simp_all
  · simp_all

theorem RegisterBlock.write_exit (b : RegisterBlock) (addr val : Word) (d : Device b.State) :
    (b.write addr val w d).exit = .ret ↔ WriteReturns b addr w := by
  cases b with
  | vi => exact viWrite_exit addr val d
  | pi => exact piWrite_exit addr val d
  | mi => exact miWrite_exit addr val d
  | dsp => exact dspWrite_exit addr val d
  | ai => exact aiWrite_exit addr val d

/-- Both routines of a block end at a `return` for an access. -/
def AccessReturns (b : RegisterBlock) (addr val : Word) (w : ℤ) (d : Device b.State) : Prop :=
  (b.read addr w d).exit = .ret ∧ (b.write addr val w d).exit = .ret

/-- A device access stays clear of `__builtin_unreachable()` exactly when the block has no
case of its own for a write to that register at that width. -/
theorem accessReturns_iff (b : RegisterBlock) (d : Device b.State) (addr val : Word)
    (hw : IsAccessWidth w) :
    AccessReturns b addr val w d ↔ offset addr b.mask ∉ b.writeCases w := by
  rw [AccessReturns, RegisterBlock.read_exit, RegisterBlock.write_exit, WriteReturns]
  tauto

theorem accessReturns_mi_unknown :
    IsAccessWidth 2 ∧ AccessReturns .mi 0x0C004012#32 1#32 2 ⟨⟨0,0,0⟩,false⟩ :=
  ⟨by decide,(accessReturns_iff .mi ⟨⟨0,0,0⟩,false⟩ 0x0C004012#32 1#32 (by decide)).mpr
    (by decide)⟩

/-- Writing the interrupt mask of the processor interface runs into the marker. -/
theorem piWrite_intmr_unreachable :
    ¬ ∀ (b : RegisterBlock) (d : Device b.State) (addr val : Word) (w : ℤ),
      IsAccessWidth w → AccessReturns b addr val w d := by
  intro h
  have hr := (h .pi ⟨⟨0,0,0,0,0⟩,false⟩ 0x0C003004#32 0#32 4 (by decide)).2
  revert hr
  decide

end DolTools
