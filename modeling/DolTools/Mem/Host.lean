import DolTools.Cpu.Registers
import DolTools.Library.AddressMap

/-! The host process as the emulator uses it: which memfd byte each address of the process
shows, and the `mmap` and `munmap` calls made so far. Whether an `mmap` succeeds is up to
the kernel. -/
namespace DolTools

/-- The two memfds, named by the RAM they stand for. -/
inductive Ram
  | mem1
  | mem2
  deriving DecidableEq, Repr

/-- What a mapped host byte shows, and whether it may be executed. -/
structure Backing where
  ram : Ram
  offset : ℕ
  exec : Bool
  deriving DecidableEq, Repr

/-- Entries of the call log. `fixups` is the line that `E_MemMapFixups` prints on entry. -/
inductive HostCall
  | fixups (oldMsr msr : Word)
  | mmap (ram : Ram) (addr size : Word) (exec : Bool)
  | munmap (addr size : Word)
  deriving DecidableEq, Repr

/-- The calls of `E_MemMapFixups` in a log: the old MSR and the MSR of each. -/
def fixupsCalls : List HostCall → List (Word × Word) :=
  List.filterMap (fun call =>
    match call with
    | .fixups oldMsr msr => some (oldMsr,msr)
    | _ => none)

/-- The address space of the process, and the call log with the newest entry first. -/
structure Host where
  space : AddressMap Backing
  calls : List HostCall

/-- The kernel decides each `mmap`; its answer may depend on everything done before. -/
structure Kernel where
  mmapSucceeds : List HostCall → HostCall → Bool

/-- `MAP_FAILED`, that is `(void *)-1` -/
def mapFailed : Word := 0xFFFFFFFF#32

/-- `memAddr_t` -/
structure MemAddr where
  addr : Word
  mapped : Bool
  writable : Bool
  deriving DecidableEq, Repr

def mem1Paddr : Word := 0x00000000#32
def mem2Paddr : Word := 0x10000000#32
def maxAllowedVaddr : Word := 0xC0000000#32

/-- Addresses from `MAX_ALLOWED_VADDR` on are refused. -/
def Kernel.RefusesHigh (k : Kernel) : Prop :=
  ∀ calls ram addr size exec, maxAllowedVaddr ≤ addr →
    k.mmapSucceeds calls (.mmap ram addr size exec) = false

/-- Whether an `mmap` succeeds depends on the address alone. -/
def Kernel.ByAddress (k : Kernel) (grants : Word → Bool) : Prop :=
  ∀ calls ram addr size exec, k.mmapSucceeds calls (.mmap ram addr size exec) = grants addr

/-- The kernel of the console, which grants the addresses below the limit and no others. -/
def consoleKernel : Kernel where
  mmapSucceeds _ call :=
    match call with
    | .mmap _ addr _ _ => decide (addr < maxAllowedVaddr)
    | _ => false

theorem consoleKernel_refusesHigh : consoleKernel.RefusesHigh :=
  fun _ _ _ _ _ h => decide_eq_false (BitVec.not_lt.mpr h)

def ramPaddr : Ram → Word
  | .mem1 => mem1Paddr
  | .mem2 => mem2Paddr

namespace Host

/-- `mmap` of a whole memfd with `MAP_SHARED | MAP_FIXED`: the requested address, or
`MAP_FAILED` with the address space as it was. -/
def mmap (k : Kernel) (ram : Ram) (addr size : Word) (exec : Bool) (h : Host) : Word × Host :=
  let call := HostCall.mmap ram addr size exec
  if k.mmapSucceeds h.calls call then
    (addr,⟨h.space.mapRange addr.toNat size.toNat (fun o => ⟨ram,o,exec⟩),call::h.calls⟩)
  else (mapFailed,⟨h.space,call::h.calls⟩)

def munmap (addr size : Word) (h : Host) : Host :=
  ⟨h.space.unmapRange addr.toNat size.toNat,.munmap addr size::h.calls⟩

def log (call : HostCall) (h : Host) : Host := { h with calls := call::h.calls }

def fresh : Host := ⟨AddressMap.empty,[]⟩

@[simp] theorem mmap_calls (k : Kernel) (ram : Ram) (addr size : Word) (exec : Bool) (h : Host) :
    (h.mmap k ram addr size exec).2.calls = .mmap ram addr size exec::h.calls := by
  simp only [mmap]
  split <;> rfl

@[simp] theorem fixupsCalls_mmap (k : Kernel) (ram : Ram) (addr size : Word) (exec : Bool)
    (h : Host) : fixupsCalls (h.mmap k ram addr size exec).2.calls = fixupsCalls h.calls := by
  rw [mmap_calls]
  rfl

theorem mmap_of_succeeds {k : Kernel} {ram : Ram} {addr size : Word} {exec : Bool} {h : Host}
    (hk : k.mmapSucceeds h.calls (.mmap ram addr size exec)) :
    (h.mmap k ram addr size exec).1 = addr ∧ (h.mmap k ram addr size exec).2.space =
      h.space.mapRange addr.toNat size.toNat (fun o => ⟨ram,o,exec⟩) := by
  simp [mmap, hk]

theorem mmap_of_fails {k : Kernel} {ram : Ram} {addr size : Word} {exec : Bool} {h : Host}
    (hk : ¬ k.mmapSucceeds h.calls (.mmap ram addr size exec)) :
    (h.mmap k ram addr size exec).1 = mapFailed ∧
      (h.mmap k ram addr size exec).2.space = h.space := by
  simp [mmap, hk]

theorem mmap_of_not_mem {k : Kernel} {ram : Ram} {addr size : Word} {exec : Bool} {h : Host}
    {a : ℕ} (ha : ¬ (addr.toNat ≤ a ∧ a < addr.toNat + size.toNat)) :
    (h.mmap k ram addr size exec).2.space a = h.space a := by
  by_cases hk : k.mmapSucceeds h.calls (.mmap ram addr size exec)
  · rw [(mmap_of_succeeds hk).2, AddressMap.mapRange_of_not_mem _ _ ha]
  · rw [(mmap_of_fails hk).2]

/-- What an `mmap` shows is older, or it succeeds and its window shows its RAM there. -/
theorem mmap_eq_some {k : Kernel} {ram : Ram} {addr size : Word} {exec : Bool} {h : Host}
    {a : ℕ} {x : Backing} (hx : (h.mmap k ram addr size exec).2.space a = some x) :
    h.space a = some x ∨
      (x.ram = ram ∧ addr.toNat ≤ a ∧ a < addr.toNat + size.toNat ∧
        k.mmapSucceeds h.calls (.mmap ram addr size exec) = true) := by
  by_cases hk : k.mmapSucceeds h.calls (.mmap ram addr size exec)
  · rw [(mmap_of_succeeds hk).2] at hx
    rcases AddressMap.mapRange_eq_some hx with ⟨hin,rfl⟩ | hx
    · exact .inr ⟨rfl,hin.1,hin.2,hk⟩
    · exact .inl hx
  · rw [(mmap_of_fails hk).2] at hx
    exact .inl hx

end Host
end DolTools
