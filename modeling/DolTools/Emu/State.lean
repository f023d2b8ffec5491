import DolTools.Mem.Host
import DolTools.Mmio.Interfaces
import DolTools.Mmio.Dsp

/-! The global emulator state `E_State`, together with the static variables of the modules
that work on it: the number of BATs, the timer hooks and the forwarding windows. -/
namespace DolTools

/-- `enum _consoleTypes`; `other` stands for a value that no case names. -/
inductive ConsoleType
  | gamecube
  | wii
  | other
  deriving DecidableEq, Repr

/-- `struct _memState`, with the fields of both RAMs indexed by the RAM. -/
structure MemState where
  mapI : Ram → Fin 8 → Word
  mapD : Ram → Fin 8 → Word
  size : Ram → Word
  fd : Ram → ℤ
  aramSize : Word

inductive TimerHook
  | vi
  | dsp
  | dec
  deriving DecidableEq, Repr

def maxHooks : ℕ := 32

/-- `struct _chipset_state`; the IPC block is not part of the build. -/
structure ChipsetState where
  vi : ViState
  pi : PiState
  mi : MiState
  dsp : DspState
  ai : AiState

/-- An access of a real hardware register, by its pointer into a window of `/dev/mem`. -/
inductive ForwardAccess
  | read (ptr : Word) (accessWidth : ℤ)
  | write (ptr val : Word) (accessWidth : ℤ)
  deriving DecidableEq, Repr

/-- The two windows of `/dev/mem`, as the pointers that `forward.c` keeps, and the accesses
made through them, newest first. -/
structure ForwardState where
  memFlipper : Word
  memHlwd : Word
  accesses : List ForwardAccess

structure EmuState where
  consoleType : ConsoleType
  hostType : ConsoleType
  mem : MemState
  cpu : CpuState
  chipset : ChipsetState
  fatalError : Bool
  needsMemMapUpdate : Bool
  maxBAT : Fin 9
  timersHooks : List TimerHook
  forward : ForwardState
  host : Host

/-- Static storage before `main` has done anything: all zero, the map slots too. -/
def EmuState.zero : EmuState where
  consoleType := .other
  hostType := .other
  mem := ⟨fun _ _ => 0,fun _ _ => 0,fun _ => 0,fun _ => 0,0⟩
  cpu := .zero
  chipset := ⟨⟨0⟩,⟨0,0,0,0,0⟩,⟨0,0,0⟩,{ dspInit (fun _ => 0) with csr := 0 },⟨0⟩⟩
  fatalError := false
  needsMemMapUpdate := false
  maxBAT := 0
  timersHooks := []
  forward := ⟨0,0,[]⟩
  host := .fresh

def EmuState.fatal (s : EmuState) : EmuState := { s with fatalError := true }

/-- The indices that a loop `for (i = 0; i < maxBAT; i++)` visits, in order. -/
def batIndices (maxBAT : Fin 9) : List (Fin 8) :=
  (List.finRange 8).filter (fun i => i.val < maxBAT.val)

@[simp] theorem mem_batIndices {maxBAT : Fin 9} {i : Fin 8} :
    i ∈ batIndices maxBAT ↔ i.val < maxBAT.val := by
  simp [batIndices]

theorem batIndices_sorted (maxBAT : Fin 9) : (batIndices maxBAT).Pairwise (· < ·) :=
  (List.pairwise_lt_finRange 8).filter _

lemma batIndices_nodup (maxBAT : Fin 9) : (batIndices maxBAT).Nodup :=
  (batIndices_sorted maxBAT).imp ne_of_lt

/-- `E_Timer_AddHook` -/
def timerAddHook (hook : TimerHook) (s : EmuState) : EmuState :=
  if maxHooks ≤ s.timersHooks.length then s.fatal
  else { s with timersHooks := s.timersHooks ++ [hook] }

end DolTools
