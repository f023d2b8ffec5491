import DolTools.Emu.DataTranslation
import DolTools.Emu.Loader

/-! The windows of the real hardware: which of them `E_MMIO_Chipset_Init` maps, and where in them
the accesses end that the dispatchers forward. -/
namespace DolTools

/-- The two windows of `/dev/mem`. -/
inductive Window
  | flipper
  | hollywood
  deriving DecidableEq, Repr

/-- The physical address that a window starts at. -/
def Window.base : Window → Word
  | flipper => 0x0C000000#32
  | hollywood => 0x0D000000#32

def ForwardState.ptr (f : ForwardState) : Window → Word
  | .flipper => f.memFlipper
  | .hollywood => f.memHlwd

/-- `len` -/
def windowLen : ℕ := 0x00F00000

namespace ForwardAccess

def ptr : ForwardAccess → Word
  | read ptr _ | write ptr _ _ => ptr

def accessWidth : ForwardAccess → ℤ
  | read _ w | write _ _ w => w

end ForwardAccess

namespace ChipsetCall

/-- The window behind the dispatcher. -/
def window : ChipsetCall → Window
  | flipperRead .. | flipperWrite .. => .flipper
  | hollywoodRead .. | hollywoodWrite .. => .hollywood

def route : ChipsetCall → Route
  | flipperRead addr _ | flipperWrite addr _ _ => flipperRoute addr
  | hollywoodRead addr _ | hollywoodWrite addr _ _ => hollywoodRoute addr

end ChipsetCall

/-- No RAM has been mapped over the window since the host made it. -/
def Uncovered (s : EmuState) (w : Window) : Prop :=
  ∀ o < windowLen, s.host.space ((s.forward.ptr w).toNat + o) = none

/-- The window is mapped: the pointer is one that the host gave, and still shows the hardware. -/
structure LiveWindow (s : EmuState) (w : Window) : Prop where
  notNull : s.forward.ptr w ≠ 0
  notFailed : s.forward.ptr w ≠ mapFailed
  uncovered : Uncovered s w

/-- The access is an error that touches nothing, or it ends inside a live window, as far from its
start as the address is from the physical one. -/
def StaysInside (s : EmuState) (c : ChipsetCall) (r : EmuState) : Prop :=
  (r.fatalError = true ∧ r.forward.accesses = s.forward.accesses) ∨
    ∃ a, r.forward.accesses = a::s.forward.accesses ∧
      a.ptr = s.forward.ptr c.window + (c.addr - c.window.base) ∧
      a.accessWidth = c.accessWidth ∧ LiveWindow s c.window ∧
      ((c.addr - c.window.base).toNat : ℤ) + c.accessWidth ≤ windowLen

/-- Every access that the dispatchers forward, for the faults of a guest of this console type. -/
def ForwardedInside (s : EmuState) : Prop :=
  ∀ (hw : Hardware) (c : ChipsetCall), (∃ paddr l ctx, segvCall paddr l s ctx = some c) →
    c.route = .forwarded → IsAccessWidth c.accessWidth → c.accessWidth ∣ (c.addr.toNat : ℤ) →
    StaysInside s c (c.run hw s)

/-- A state with the windows of a successful `E_MMIO_Chipset_Init`. Its static pointers are
NULL before, and `mmap` without a hint never gives NULL. -/
structure HasWindows (fwd : ForwardEnv) (iram : Fin 8192 → Byte) (s t : EmuState) : Prop where
  unset : s.forward.memFlipper = 0 ∧ s.forward.memHlwd = 0
  given : fwd.flipper ≠ 0 ∧ fwd.hlwd ≠ 0
  ok : (chipsetInit fwd iram s).fatalError = false
  hostType : t.hostType = s.hostType
  ptr : ∀ w, t.forward.ptr w = (chipsetInit fwd iram s).forward.ptr w

section

variable {addr : Word}

/-- The pages that the dispatchers forward. -/
def Window.pages : Window → List Word
  | flipper => [0x0C000000#32, 0x0C001000#32, 0x0C006000#32]
  | hollywood => [0x0D006000#32]

lemma flipperRoute_forwarded (h : flipperRoute addr = .forwarded) :
    addr &&& 0xFFFFF000#32 ∈ Window.flipper.pages := by
  simp only [Window.pages, List.mem_cons, List.not_mem_nil, or_false]
  unfold flipperRoute at h
  split at h
  case h_1 hp => exact .inl (BitVec.eq_of_toNat_eq hp)
  case h_2 hp => exact .inr (.inl (BitVec.eq_of_toNat_eq hp))
  case h_7 hp => exact .inr (.inr (BitVec.eq_of_toNat_eq hp))
  all_goals contradiction

lemma hollywoodRoute_forwarded (h : hollywoodRoute addr = .forwarded) :
    addr &&& 0xFFFFF000#32 ∈ Window.hollywood.pages := by
  unfold hollywoodRoute at h
  split at h
  case h_1 hp => exact List.mem_singleton.mpr (BitVec.eq_of_toNat_eq hp)
  case h_2 => contradiction

/-- A forwarded call is one of the pages of its window. -/
lemma route_forwarded {c : ChipsetCall} (h : c.route = .forwarded) :
    c.addr &&& 0xFFFFF000#32 ∈ c.window.pages := by
  cases c with
  | flipperRead | flipperWrite => exact flipperRoute_forwarded h
  | hollywoodRead | hollywoodWrite => exact hollywoodRoute_forwarded h

/-- On these pages the irregular mask takes an address apart as subtraction does. -/
lemma mask_split {w : Window} (h : addr &&& 0xFFFFF000#32 ∈ w.pages) :
    addr &&& 0xFFF70000#32 = w.base ∧ addr &&& ~~~0xFFF70000#32 = addr - w.base ∧
      (addr - w.base).toNat < 0x7000 := by
  have hpages : ∀ p ∈ w.pages, p &&& 0xFFF70000#32 = w.base ∧ w.base.toNat ≤ p.toNat ∧
      p.toNat + 0x1000 ≤ w.base.toNat + 0x7000 := by
    cases w <;> simp [Window.pages, Window.base]
  obtain ⟨hmask,hlow,hhigh⟩ := hpages _ h
  have hbase : addr &&& 0xFFF70000#32 = w.base := by
    rw [← hmask, BitVec.and_assoc]
    rfl
  have hpage := AlignedBlock.toNat_and_split 0x00000FFF#32 addr
  have hin : (addr &&& 0x00000FFF#32).toNat ≤ 0xFFF := AlignedBlock.toNat_and_le addr _
  change (addr &&& 0xFFFFF000#32).toNat + _ = _ at hpage
  have hsub : (addr - w.base).toNat = addr.toNat - w.base.toNat :=
    BitVec.toNat_sub_of_le (BitVec.le_def.mpr (by omega))
  refine ⟨hbase,?_,by omega⟩
  have hsplit := AlignedBlock.toNat_and_split (~~~0xFFF70000#32) addr
  rw [BitVec.not_not, hbase] at hsplit
  rw [BitVec.toNat_eq, hsub]
  omega

lemma forwardPtr_window {w : Window} (s : EmuState) (h : addr &&& 0xFFFFF000#32 ∈ w.pages) :
    forwardPtr addr s = some (s.forward.ptr w + (addr - w.base)) := by
  obtain ⟨hbase,hoff,-⟩ := mask_split h
  unfold forwardPtr
  dsimp only
  rw [hbase, hoff]
  cases w <;> rfl

end

section

variable {fwd : ForwardEnv} {iram : Fin 8192 → Byte} {s t : EmuState} {hw : Hardware}
  {c : ChipsetCall}

lemma forwardedRead_access {addr ptr : Word} {w : ℤ} (hwidth : IsAccessWidth w)
    (h : forwardPtr addr s = some ptr) :
    (forwardedRead hw addr w s).s = logForward (.read ptr w) s := by
  rw [forwardedRead, h]
  rcases hwidth with rfl | rfl | rfl <;> rfl

lemma forwardedWrite_access (val : Word) {addr ptr : Word} {w : ℤ} (hwidth : IsAccessWidth w)
    (h : forwardPtr addr s = some ptr) :
    ∃ v, (forwardedWrite addr val w s).s = logForward (.write ptr v w) s := by
  rw [forwardedWrite, h]
  rcases hwidth with rfl | rfl | rfl <;> exact ⟨_,rfl⟩

/-- A forwarded call makes one access, at the pointer of its window. -/
lemma run_forwarded (hw : Hardware) (s : EmuState) (hroute : c.route = .forwarded)
    (hwidth : IsAccessWidth c.accessWidth) : ∃ a, c.run hw s = logForward a s ∧
      a.ptr = s.forward.ptr c.window + (c.addr - c.window.base) ∧
      a.accessWidth = c.accessWidth := by
  have hptr := forwardPtr_window s (route_forwarded hroute)
  cases c with
  | flipperRead addr w =>
    refine ⟨.read _ w,?_,rfl,rfl⟩
    change (routeRead hw (flipperRoute addr) addr w s).s = _
    rw [show flipperRoute addr = .forwarded from hroute]
    exact forwardedRead_access hwidth hptr
  | hollywoodRead addr w =>
    refine ⟨.read _ w,?_,rfl,rfl⟩
    change (routeRead hw (hollywoodRoute addr) addr w s).s = _
    rw [show hollywoodRoute addr = .forwarded from hroute]
    exact forwardedRead_access hwidth hptr
  | flipperWrite addr val w =>
    obtain ⟨v,hv⟩ := forwardedWrite_access val hwidth hptr
    refine ⟨.write _ v w,?_,rfl,rfl⟩
    change (routeWrite (flipperRoute addr) addr val w s).s = _
    rw [show flipperRoute addr = .forwarded from hroute]
    exact hv
  | hollywoodWrite addr val w =>
    obtain ⟨v,hv⟩ := forwardedWrite_access val hwidth hptr
    refine ⟨.write _ v w,?_,rfl,rfl⟩
    change (routeWrite (hollywoodRoute addr) addr val w s).s = _
    rw [show hollywoodRoute addr = .forwarded from hroute]
    exact hv

lemma staysInside_iff (hroute : c.route = .forwarded) (hwidth : IsAccessWidth c.accessWidth) :
    StaysInside s c (c.run hw s) ↔ LiveWindow s c.window := by
  obtain ⟨a,hrun,hptr,haw⟩ := run_forwarded hw s hroute hwidth
  have hoff := (mask_split (route_forwarded hroute)).2.2
  constructor
  · rintro (⟨-,hnone⟩ | ⟨_,-,-,-,hlive,-⟩)
    · rw [hrun] at hnone
      exact absurd hnone (List.cons_ne_self _ _)
    · exact hlive
  · intro hlive
    refine .inr ⟨a,by rw [hrun]; rfl,hptr,haw,hlive,?_⟩
    rw [windowLen]
    rcases hwidth with h | h | h <;> rw [h] <;> omega

variable (fwd iram s) in
lemma chipsetInit_eq : ∃ u : EmuState, chipsetInit fwd iram s = forwardingInit fwd u ∧
    u.hostType = s.hostType ∧ u.forward = s.forward := by
  have hhook : ∀ (hook : TimerHook) (u : EmuState),
      (timerAddHook hook u).hostType = u.hostType ∧ (timerAddHook hook u).forward = u.forward := by
    intro hook u
    unfold timerAddHook
    split <;> exact ⟨rfl,rfl⟩
  exact ⟨_,rfl,(hhook _ _).1.trans (hhook _ _).1,(hhook _ _).2.trans (hhook _ _).2⟩

lemma forwardingInit_ptr (h : (forwardingInit fwd s).fatalError = false) (w : Window) :
    (forwardingInit fwd s).forward.ptr w = match w with
      | .flipper => fwd.flipper
      | .hollywood => if s.hostType = .wii then fwd.hlwd else s.forward.memHlwd := by
  obtain ⟨-,hopen,hflipper,hhlwd⟩ := forwardingInit_ok.mp h
  unfold forwardingInit
  dsimp only
  rw [hopen, if_neg (by decide), if_neg hflipper]
  by_cases hhost : s.hostType = .wii
  · rw [if_pos hhost, if_neg (hhlwd hhost)]
    cases w with
    | flipper => rfl
    | hollywood => exact (if_pos hhost).symm
  · rw [if_neg hhost]
    cases w with
    | flipper => rfl
    | hollywood => exact (if_neg hhost).symm

/-- The Flipper window is always there, the Hollywood one on a Wii. -/
lemma HasWindows.live_iff (h : HasWindows fwd iram s t) (w : Window) :
    LiveWindow t w ↔ Uncovered t w ∧ (w = .hollywood → t.hostType = .wii) := by
  obtain ⟨u,hinit,hhost,hforward⟩ := chipsetInit_eq fwd iram s
  have hok := h.ok
  rw [hinit] at hok
  have hptr := (h.ptr w).trans ((congrArg (fun r => r.forward.ptr w) hinit).trans
    (forwardingInit_ptr hok w))
  obtain ⟨-,-,hflipper,hhlwd⟩ := forwardingInit_ok.mp hok
  rw [hhost, ← h.hostType] at hhlwd hptr
  rw [hforward, h.unset.2] at hptr
  constructor
  · intro hlive
    refine ⟨hlive.uncovered,?_⟩
    rintro rfl
    by_contra hne
    exact hlive.notNull (hptr.trans (if_neg hne))
  · rintro ⟨hown,hwii⟩
    cases w with
    | flipper => exact ⟨hptr.trans_ne h.given.1,hptr.trans_ne hflipper,hown⟩
    | hollywood =>
      have hhlwd' := hptr.trans (if_pos (hwii rfl))
      exact ⟨hhlwd'.trans_ne h.given.2,hhlwd'.trans_ne (hhlwd (hwii rfl)),hown⟩

/-- `main` goes on behind `E_MMIO_Chipset_Init` with these windows. -/
theorem loadStart_hasWindows {k : Kernel} {env : BootEnv} (h : loadStart k env = some t)
    (hgiven : env.forward.flipper ≠ 0 ∧ env.forward.hlwd ≠ 0) : HasWindows env.forward env.iram
      (memInit k env.vaddr env.mem (bootStart env)).2 t := by
  have hzero : (bootStart env).forward = ⟨0,0,[]⟩ := by
    unfold bootStart timerInit
    cases env.timer <;> rfl
  have hkept := (memInit_devicesKept k env).forward.trans hzero
  unfold loadStart at h
  dsimp only at h
  split_ifs at h with hother hmem hchip
  obtain rfl := Option.some.inj h
  obtain ⟨u,hinit,hhost,-⟩ := chipsetInit_eq env.forward env.iram
    (memInit k env.vaddr env.mem (bootStart env)).2
  refine ⟨by rw [hkept]; exact ⟨rfl,rfl⟩,hgiven,by simpa using hchip,?_,fun _ => rfl⟩
  rw [hinit, ← hhost]
  unfold forwardingInit
  dsimp only
  split_ifs <;> rfl

/-- A GameCube guest never gets to the Hollywood dispatchers. -/
lemma window_of_call {paddr : Word} {l : SegvLocals} {ctx : Context}
    (h : segvCall paddr l s ctx = some c) (hc : c.window = .hollywood) :
    s.consoleType ≠ .gamecube := by
  intro hgamecube
  obtain ⟨a,ha,rfl⟩ := Option.map_eq_some_iff.mp h
  rcases chipsetAddr_cases ha with ⟨hf,-⟩ | ⟨-,hne,-⟩
  · simp only [if_pos hf] at hc
    cases hw : ctx.isWrite <;> simp [hw, ChipsetCall.window] at hc
  · exact hne hgamecube

/-- A load of the guest from the first register of the window that the dispatchers forward. -/
lemma exists_forwarded_call (w : Window) (hw : w = .hollywood → s.consoleType ≠ .gamecube) :
    ∃ c : ChipsetCall, (∃ paddr l ctx, segvCall paddr l s ctx = some c) ∧ c.window = w ∧
      c.route = .forwarded ∧ c.accessWidth = 4 ∧ c.accessWidth ∣ (c.addr.toNat : ℤ) := by
  cases w with
  | flipper =>
    refine ⟨.flipperRead 0x0C000000#32 4,⟨0x0C000000#32,⟨false,false,false,0,0,0,4⟩,
      faultAt 0x0C000000#32 0x40000000#32,?_⟩,rfl,rfl,rfl,by decide⟩
    rw [segvCall, chipsetAddr_flipper (by decide)]
    rfl
  | hollywood =>
    refine ⟨.hollywoodRead 0x0D006400#32 4,⟨0x0D006400#32,⟨false,false,false,0,0,0,4⟩,
      faultAt 0x0D006400#32 0x40000000#32,?_⟩,rfl,rfl,rfl,by decide⟩
    rw [segvCall, chipsetAddr_hollywood (by decide) (hw rfl)]
    rfl

lemma forwardedInside_iff_live : ForwardedInside s ↔
    LiveWindow s .flipper ∧ (s.consoleType ≠ .gamecube → LiveWindow s .hollywood) := by
  constructor
  · intro h
    have hlive : ∀ w : Window, (w = .hollywood → s.consoleType ≠ .gamecube) → LiveWindow s w := by
      intro w hw
      obtain ⟨c,hcall,rfl,hroute,hfour,halign⟩ := exists_forwarded_call w hw
      have hwidth : IsAccessWidth c.accessWidth := .inr (.inr hfour)
      exact (staysInside_iff hroute hwidth).mp (h zeroHardware c hcall hroute hwidth halign)
    exact ⟨hlive .flipper (fun h => by contradiction),fun hne => hlive .hollywood (fun _ => hne)⟩
  · rintro ⟨hflipper,hhollywood⟩ hw c ⟨paddr,l,ctx,hcall⟩ hroute hwidth -
    rw [staysInside_iff hroute hwidth]
    cases hc : c.window with
    | flipper => exact hflipper
    | hollywood => exact hhollywood (window_of_call hcall hc)

end

/-- Forwarded accesses stay inside their windows just when the guest is a GameCube or the host a
Wii, as long as no RAM is mapped over a window that they use. -/
theorem forwardedInside_iff {fwd : ForwardEnv} {iram : Fin 8192 → Byte} {s t : EmuState}
    (h : HasWindows fwd iram s t) : ForwardedInside t ↔ Uncovered t .flipper ∧
      (t.consoleType = .gamecube ∨ (t.hostType = .wii ∧ Uncovered t .hollywood)) := by
  rw [forwardedInside_iff_live, h.live_iff, h.live_iff]
  by_cases hc : t.consoleType = .gamecube
  · simp [hc]
  · simp [hc, and_comm]

/-- A state behind a successful initialisation, with nothing mapped. -/
def withChipset (guest host : ConsoleType) : EmuState :=
  chipsetInit ⟨true,0xB0000000#32,0xB1000000#32⟩ (fun _ => 0)
    { EmuState.zero with consoleType := guest, hostType := host }

lemma withChipset_hasWindows (guest host : ConsoleType) :
    HasWindows ⟨true,0xB0000000#32,0xB1000000#32⟩ (fun _ => 0)
      { EmuState.zero with consoleType := guest, hostType := host } (withChipset guest host) := by
  refine ⟨⟨rfl,rfl⟩,by decide,?_,?_,fun _ => rfl⟩ <;> cases host <;> rfl

lemma withChipset_uncovered (guest host : ConsoleType) (w : Window) :
    Uncovered (withChipset guest host) w := by
  intro o _
  cases host <;> rfl

theorem forwardedInside_wii : ForwardedInside (withChipset .wii .wii) :=
  (forwardedInside_iff (withChipset_hasWindows .wii .wii)).mpr
    ⟨withChipset_uncovered _ _ _,.inr ⟨rfl,withChipset_uncovered _ _ _⟩⟩

/-- A Wii guest on a GameCube reads at the NULL pointer. -/
theorem hollywood_null : ¬ ∀ fwd iram s t, HasWindows fwd iram s t → Uncovered t .flipper →
    Uncovered t .hollywood → ForwardedInside t := by
  intro h
  have hinside := h _ _ _ _ (withChipset_hasWindows .wii .gamecube)
    (withChipset_uncovered _ _ _) (withChipset_uncovered _ _ _)
  have hlive := (forwardedInside_iff_live.mp hinside).2 (by decide)
  exact hlive.notNull rfl

end DolTools
