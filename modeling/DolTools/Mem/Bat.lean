import DolTools.Emu.State
import DolTools.Library.AlignedBlock
import DolTools.Library.FirstMatch

/-! Block address translation: the fields of a BAT entry, and the two lookups
`E_MemVirtToPhys` and `E_MemPhysToVirt` as loops over the table. -/
namespace DolTools
open FirstMatch

/-- The register pair of one BAT. -/
structure Bat where
  upper : Word
  lower : Word
  deriving DecidableEq

/-- `E_MemPPCBlockLenToBytes`; zero for a code that names no block length. -/
def memPPCBlockLenToBytes (bl : Word) : Word :=
  match bl.toNat with
  | 0x000 => 0x00020000#32
  | 0x001 => 0x00040000#32
  | 0x003 => 0x00080000#32
  | 0x007 => 0x00100000#32
  | 0x00F => 0x00200000#32
  | 0x01F => 0x00400000#32
  | 0x03F => 0x00800000#32
  | 0x07F => 0x01000000#32
  | 0x0FF => 0x02000000#32
  | 0x1FF => 0x04000000#32
  | 0x3FF => 0x08000000#32
  | 0x7FF => 0x10000000#32
  | _ => 0

theorem memPPCBlockLenToBytes_two_pow {bl : Word} (h : memPPCBlockLenToBytes bl ≠ 0) :
    ∃ k, 17 ≤ k ∧ k ≤ 28 ∧ (memPPCBlockLenToBytes bl).toNat = 2^k := by
  unfold memPPCBlockLenToBytes at h ⊢
  split
  · exact ⟨17,by decide⟩
  · exact ⟨18,by decide⟩
  · exact ⟨19,by decide⟩
  · exact ⟨20,by decide⟩
  · exact ⟨21,by decide⟩
  · exact ⟨22,by decide⟩
  · exact ⟨23,by decide⟩
  · exact ⟨24,by decide⟩
  · exact ⟨25,by decide⟩
  · exact ⟨26,by decide⟩
  · exact ⟨27,by decide⟩
  · exact ⟨28,by decide⟩
  · simp at h

namespace Bat

def bepi (b : Bat) : Word := b.upper &&& batuBepi
def bprn (b : Bat) : Word := b.lower &&& batlBprn
def blockLen (b : Bat) : Word := (b.upper &&& batuBl) >>> batuBlShift
def size (b : Bat) : Word := memPPCBlockLenToBytes b.blockLen
def pp (b : Bat) : Word := b.lower &&& batlPp

def active (b : Bat) : Bool := b.upper &&& batuVs != 0 || b.upper &&& batuVp != 0

/-- Both registers are zero: the entry counts as empty. -/
def isZero (b : Bat) : Bool := b.upper == 0 && b.lower == 0

def coversVirt (b : Bat) (v : Word) : Bool := decide (b.bepi ≤ v ∧ v < b.bepi + b.size)

def coversPhys (b : Bat) (p : Word) : Bool := decide (b.bprn ≤ p ∧ p < b.bprn + b.size)

def toPhys (b : Bat) (v : Word) : MemAddr :=
  ⟨(b.bprn &&& ~~~(b.size - 1#32)) + (v - b.bepi),true,b.pp == batlPpRw⟩

def toVirt (b : Bat) (p : Word) : MemAddr :=
  ⟨b.bepi + ((b.bprn + b.size) - p),true,b.pp == batlPpRw⟩

/-- A valid block-length code, and both bases aligned to the block. -/
structure Valid (b : Bat) : Prop where
  code : b.size ≠ 0
  virt : AlignedBlock.Aligned b.size b.bepi
  phys : AlignedBlock.Aligned b.size b.bprn

instance (b : Bat) : Decidable b.Valid :=
  decidable_of_iff (b.size ≠ 0 ∧ AlignedBlock.Aligned b.size b.bepi ∧
    AlignedBlock.Aligned b.size b.bprn)
    ⟨fun ⟨h,hv,hp⟩ => ⟨h,hv,hp⟩,fun ⟨h,hv,hp⟩ => ⟨h,hv,hp⟩⟩

theorem Valid.two_pow {b : Bat} (h : b.Valid) : ∃ k, b.size.toNat = 2^k := by
  obtain ⟨k,-,-,hk⟩ := memPPCBlockLenToBytes_two_pow h.code
  exact ⟨k,hk⟩

lemma bepi_ne_mapFailed (b : Bat) : b.bepi ≠ mapFailed := by
  intro h
  have hbit : b.bepi.getLsbD 0 = false := by
    rw [bepi, BitVec.getLsbD_and]
    exact Bool.and_false _
  rw [h] at hbit
  contradiction

end Bat

def MemAddr.unmapped : MemAddr := ⟨0,false,false⟩

/-- The loop both lookups share: inactive entries are skipped, the first hit returns. -/
def firstHit (bat : Fin 8 → Bat) (covers : Bat → Bool) (result : Bat → MemAddr) :
    List (Fin 8) → MemAddr
  | [] => .unmapped
  | i::is =>
    if !(bat i).active then firstHit bat covers result is
    else if covers (bat i) then result (bat i)
    else firstHit bat covers result is

namespace EmuState

def bat (s : EmuState) (isData : Bool) (i : Fin 8) : Bat :=
  if isData then ⟨s.cpu.dbatu i,s.cpu.dbatl i⟩ else ⟨s.cpu.ibatu i,s.cpu.ibatl i⟩

def HasBat (s : EmuState) (i : Fin 8) : Prop := i ∈ batIndices s.maxBAT

/-- Entry `i` is active and its range test accepts. -/
def Hit (s : EmuState) (isData : Bool) (covers : Bat → Bool) (i : Fin 8) : Prop :=
  (s.bat isData i).active = true ∧ covers (s.bat isData i) = true

instance (s : EmuState) (i : Fin 8) : Decidable (s.HasBat i) :=
  inferInstanceAs (Decidable (_ ∈ _))

instance (s : EmuState) (isData : Bool) (covers : Bat → Bool) (i : Fin 8) :
    Decidable (s.Hit isData covers i) := inferInstanceAs (Decidable (_ ∧ _))

end EmuState

def memVirtToPhys (s : EmuState) (vaddr : Word) (isData : Bool) : MemAddr :=
  firstHit (s.bat isData) (·.coversVirt vaddr) (·.toPhys vaddr) (batIndices s.maxBAT)

def memPhysToVirt (s : EmuState) (paddr : Word) (isData : Bool) : MemAddr :=
  firstHit (s.bat isData) (·.coversPhys paddr) (·.toVirt paddr) (batIndices s.maxBAT)

section

variable (bat : Fin 8 → Bat) (covers : Bat → Bool) (result : Bat → MemAddr)

lemma firstHit_eq_find (is : List (Fin 8)) :
    firstHit bat covers result is =
      match is.find? (fun i => (bat i).active && covers (bat i)) with
      | some i => result (bat i)
      | none => .unmapped := by
  induction is with
  | nil => rfl
  | cons i is ih =>
    rw [firstHit, List.find?_cons, ih]
    cases ha : (bat i).active with
    | false => rfl
    | true => cases hc : covers (bat i) <;> rfl

end

section

variable {s : EmuState} {isData : Bool} {i : Fin 8} {covers : Bat → Bool}
  (result : Bat → MemAddr)

theorem firstHit_of_lowest (h : IsLowest s.HasBat (s.Hit isData covers) i) :
    firstHit (s.bat isData) covers result (batIndices s.maxBAT) = result (s.bat isData i) := by
  have hf := (find?_eq_some_iff (batIndices_sorted s.maxBAT)
    (fun j => (s.bat isData j).active && covers (s.bat isData j))).mpr
      (h.congr (fun j _ => by rw [EmuState.Hit, Bool.and_eq_true]))
  rw [firstHit_eq_find, hf]

theorem firstHit_of_no_hit (h : ∀ i, s.HasBat i → ¬ s.Hit isData covers i) :
    firstHit (s.bat isData) covers result (batIndices s.maxBAT) = .unmapped := by
  have hf : (batIndices s.maxBAT).find?
      (fun j => (s.bat isData j).active && covers (s.bat isData j)) = none := by
    rw [List.find?_eq_none]
    intro j hj
    rw [Bool.and_eq_true]
    exact h j hj
  rw [firstHit_eq_find, hf]

theorem exists_lowest_hit (h : ∃ i, s.HasBat i ∧ s.Hit isData covers i) :
    ∃ i, IsLowest s.HasBat (s.Hit isData covers) i := by
  obtain ⟨i,hi,hhit⟩ := h
  obtain ⟨j,hj⟩ := exists_isLowest (batIndices_sorted s.maxBAT)
    (fun j => (s.bat isData j).active && covers (s.bat isData j))
    ⟨i,hi,by rwa [Bool.and_eq_true]⟩
  exact ⟨j,hj.congr (fun k _ => by rw [EmuState.Hit, Bool.and_eq_true])⟩

/-- An address is mapped exactly when some entry below `maxBAT` hits. -/
theorem firstHit_mapped_iff (hresult : ∀ b, (result b).mapped = true) :
    (firstHit (s.bat isData) covers result (batIndices s.maxBAT)).mapped = true ↔
      ∃ i, s.HasBat i ∧ s.Hit isData covers i := by
  constructor
  · intro h
    by_contra hcon
    rw [firstHit_of_no_hit result (fun i hi hhit => hcon ⟨i,hi,hhit⟩)] at h
    exact Bool.false_ne_true h
  · intro h
    obtain ⟨i,hi⟩ := exists_lowest_hit h
    rw [firstHit_of_lowest result hi]
    exact hresult _

theorem memVirtToPhys_mapped_iff {v : Word} : (memVirtToPhys s v isData).mapped = true ↔
    ∃ i, s.HasBat i ∧ s.Hit isData (·.coversVirt v) i :=
  firstHit_mapped_iff _ (fun _ => rfl)

theorem memPhysToVirt_mapped_iff {p : Word} : (memPhysToVirt s p isData).mapped = true ↔
    ∃ i, s.HasBat i ∧ s.Hit isData (·.coversPhys p) i :=
  firstHit_mapped_iff _ (fun _ => rfl)

theorem memVirtToPhys_of_lowest {v : Word}
    (h : IsLowest s.HasBat (s.Hit isData (·.coversVirt v)) i) :
    memVirtToPhys s v isData = (s.bat isData i).toPhys v := firstHit_of_lowest _ h

theorem memPhysToVirt_of_lowest {p : Word}
    (h : IsLowest s.HasBat (s.Hit isData (·.coversPhys p)) i) :
    memPhysToVirt s p isData = (s.bat isData i).toVirt p := firstHit_of_lowest _ h

end
end DolTools
