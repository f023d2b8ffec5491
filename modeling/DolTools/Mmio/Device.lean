import DolTools.Cpu.Registers

/-! Register blocks of the emulated chipset. A device access works on the registers of its
block and on `E_State.fatalError`, and either ends at a `return` or runs into the
`__builtin_unreachable()` behind the switches. Console output is left out. -/
namespace DolTools

/-- The part of `E_State` that one register block works on. -/
structure Device (ρ : Type) where
  regs : ρ
  fatalError : Bool

/-- How a device routine ends. -/
inductive Exit
  | ret
  | unreachable
  deriving DecidableEq, Repr

structure Access (ρ α : Type) where
  dev : Device ρ
  value : α
  exit : Exit

namespace Access

variable {ρ α : Type}

/-- `return value;` -/
def ret (d : Device ρ) (value : α) : Access ρ α := ⟨d,value,.ret⟩

/-- `E_State.fatalError = true; return value;` -/
def fatal (d : Device ρ) (value : α) : Access ρ α := ⟨{ d with fatalError := true },value,.ret⟩

/-- Leave the switches and run into `__builtin_unreachable()`. -/
def fallOut (d : Device ρ) (value : α) : Access ρ α := ⟨d,value,.unreachable⟩

@[simp] theorem ret_exit (d : Device ρ) (v : α) : (ret d v).exit = .ret := rfl
@[simp] theorem fatal_exit (d : Device ρ) (v : α) : (fatal d v).exit = .ret := rfl
@[simp] theorem fallOut_exit (d : Device ρ) (v : α) : (fallOut d v).exit = .unreachable := rfl
@[simp] theorem ret_dev (d : Device ρ) (v : α) : (ret d v).dev = d := rfl
@[simp] theorem fallOut_dev (d : Device ρ) (v : α) : (fallOut d v).dev = d := rfl
@[simp] theorem ret_value (d : Device ρ) (v : α) : (ret d v).value = v := rfl
@[simp] theorem fatal_value (d : Device ρ) (v : α) : (fatal d v).value = v := rfl
@[simp] theorem fatal_regs (d : Device ρ) (v : α) : (fatal d v).dev.regs = d.regs := rfl
@[simp] theorem fatal_fatalError (d : Device ρ) (v : α) :
    (fatal d v).dev.fatalError = true := rfl

end Access

/-- `break;` out of the inner switch after the registers became `regs`. -/
def Device.break {ρ : Type} (d : Device ρ) (regs : ρ) : Access ρ Unit :=
  .fallOut { d with regs := regs } ()

@[simp] theorem Device.break_exit {ρ : Type} (d : Device ρ) (regs : ρ) :
    (d.break regs).exit = .unreachable := rfl
@[simp] theorem Device.break_dev {ρ : Type} (d : Device ρ) (regs : ρ) :
    (d.break regs).dev = { d with regs := regs } := rfl

def offset (addr mask : Word) : ℕ := (addr &&& mask).toNat

end DolTools
