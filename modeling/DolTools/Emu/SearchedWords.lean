import DolTools.Emu.Decode
import DolTools.Emu.MachineRegisters
import DolTools.Emu.Program
import DolTools.Library.BitMask

/-! The search for the console type against the handler of the guest's instructions. Both know
`mtspr` to HID4, each with masks of its own, and they agree about the words of a text section. -/
namespace DolTools
open BigEndian ByteOrder Runs

/-- A word that the search comes to in a text section, as it is mapped. -/
def TextWord (behind : ℕ → Option Byte) (file : List Byte) (w : Word) : Prop :=
  ∃ i, ∃ j < ((fileHdr file).textSection i).size.toNat / 4,
    readInstr behind file (((fileHdr file).textSection i).off.toNat + 4*j) = some w

/-- One of these words is the magic value. -/
def FoundInText (behind : ℕ → Option Byte) (file : List Byte) : Prop :=
  ∃ i, ∃ j < ((fileHdr file).textSection i).size.toNat / 4,
    (readInstr behind file (((fileHdr file).textSection i).off.toNat + 4*j)).map isWiiInstr =
      some true

instance (behind : ℕ → Option Byte) (file : List Byte) : Decidable (FoundInText behind file) :=
  inferInstanceAs (Decidable (∃ i, ∃ j < ((fileHdr file).textSection i).size.toNat / 4, _))

/-- The two bits of an opcode-31 word that the handler does not look at: the last one, and the
first one of the extended opcode. -/
def ignoredBits : Word := 0x401#32

def WritesHid4 (w : Word) : Prop := ∃ regSrc, decodeIllegal w = .mtspr sprHid4 regSrc

section

variable {w : Word} {file : List Byte} {behind : ℕ → Option Byte} {r : Fin 32} {n : ℕ}

lemma hasOpcode_masks {xo : Word} (hxo : xo <<< 1 >>> 1 = xo)
    (hlow : xo <<< 1 &&& 0x3FE#32 = xo <<< 1) : hasOpcode w xo = true ↔
      w &&& (0xFC000000#32 ||| 0x3FE#32) = 0x7C000000#32 ||| xo <<< 1 := by
  have hshift : (w &&& 0x3FF#32) >>> 1 = (w &&& 0x3FE#32) >>> 1 := by
    rw [BitVec.ushiftRight_and_distrib, BitVec.ushiftRight_and_distrib]
    rfl
  rw [BitMask.and_or_eq_iff (by decide) (by decide) hlow, hasOpcode, Bool.and_eq_true_iff,
    beq_iff_eq, beq_iff_eq, hshift, BitMask.field_eq_iff (by decide) hxo,
    BitMask.field_eq_iff (by decide) (by decide), and_comm]
  rfl

lemma sprRaw_lt (w : Word) : ((w &&& 0x001FF800#32) >>> 11).toNat < 1024 := by
  have hle := AlignedBlock.toNat_and_le w 0x001FF800#32
  have hmax : (0x001FF800#32).toNat = 0x001FF800 := rfl
  rw [BitVec.toNat_ushiftRight, Nat.shiftRight_eq_div_pow]
  omega

/-- The two halves of the number are swapped. -/
lemma sprField_toNat (w : Word) : sprField w =
    32 * (((w &&& 0x001FF800#32) >>> 11).toNat % 32) +
      ((w &&& 0x001FF800#32) >>> 11).toNat / 32 := by
  have hlt := sprRaw_lt w
  unfold sprField
  dsimp only
  generalize (w &&& 0x001FF800#32) >>> 11 = raw at hlt
  have hlow : (raw &&& 0x1F#32).toNat = raw.toNat % 32 := by
    rw [BitVec.toNat_and]
    exact Nat.and_two_pow_sub_one_eq_mod raw.toNat 5
  have hhi : (raw >>> 5 &&& 0x1F#32).toNat = raw.toNat / 32 := by
    rw [BitVec.toNat_and, BitVec.toNat_ushiftRight, Nat.shiftRight_eq_div_pow]
    refine (Nat.and_two_pow_sub_one_eq_mod (raw.toNat / 2^5) 5).trans ?_
    omega
  have hshift : ((raw &&& 0x1F#32) <<< 5).toNat = (raw.toNat % 32) <<< 5 := by
    rw [BitVec.toNat_shiftLeft, hlow, Nat.shiftLeft_eq]
    omega
  rw [BitVec.toNat_or, hhi, hshift, Nat.or_comm, ← Nat.shiftLeft_add_eq_or_of_lt (by omega),
    Nat.shiftLeft_eq]
  omega

lemma sprField_eq_hid4 : sprField w = sprHid4 ↔ w &&& 0x001FF800#32 = 0x0013F800#32 := by
  rw [show 0x0013F800#32 = 0x27F#32 <<< 11 from rfl,
    ← BitMask.field_eq_iff (by decide) (by decide), sprField_toNat, ← BitVec.toNat_inj]
  have hlt := sprRaw_lt w
  have hnumber : sprHid4 = 1011 := rfl
  have hvalue : (0x27F#32).toNat = 639 := rfl
  omega

lemma decodeIllegal_mtspr : decodeIllegal w = .mtspr n r ↔
    hasOpcode w 467#32 = true ∧ sprField w = n ∧ regField w = r := by
  have hne : hasOpcode w 467#32 = true → hasOpcode w 339#32 = false := by
    intro h
    rw [hasOpcode, Bool.and_eq_true_iff, beq_iff_eq] at h
    rw [hasOpcode, h.1]
    rfl
  unfold decodeIllegal
  constructor
  · intro h
    split_ifs at h with h339 h467
    exact ⟨h467,Emulated.mtspr.inj h⟩
  · rintro ⟨h467,rfl,rfl⟩
    rw [if_neg (by simp [hne h467]), if_pos h467]

/-- The search compares the bits that the handler compares, and the two that it ignores. -/
theorem isWiiInstr_iff_writesHid4 : isWiiInstr w = true ↔ WritesHid4 w ∧ w &&& ignoredBits = 0 := by
  have hwrites : WritesHid4 w ↔
      w &&& (0xFC000000#32 ||| 0x3FE#32) = 0x7C000000#32 ||| 0x3A6#32 ∧
        w &&& 0x001FF800#32 = 0x0013F800#32 := by
    simp only [WritesHid4, decodeIllegal_mtspr, sprField_eq_hid4]
    rw [hasOpcode_masks (by decide) (by decide)]
    simp
  rw [hwrites, ← BitMask.and_or_eq_iff (by decide) (by decide) (by decide), ignoredBits,
    ← BitMask.and_or_eq_iff (by decide) (by decide) (by decide), isWiiInstr, beq_iff_eq]
  rfl

/-- A file that is taken for one of a GameCube has no such word in its text, wherever its
sections lie. -/
lemma not_foundInText (h : detectConsole behind file = some .gamecube) :
    ¬ FoundInText behind file := by
  have hscan : (List.range 8).anyM (scanSection behind file) = some false := by
    rw [detectConsole, Option.map_eq_some_iff] at h
    obtain ⟨wii,hscan,hwii⟩ := h
    cases wii with
    | false => exact hscan
    | true => contradiction
  rintro ⟨i,j,hj,hmagic⟩
  have hi : i.val ∈ List.range 8 := List.mem_range.mpr (by omega)
  have hword := FirstMatch.anyM_eq_false (FirstMatch.anyM_eq_false hscan i.val hi) j
    (List.mem_range.mpr hj)
  have hno : some true = some false := hmagic.symm.trans hword
  contradiction

lemma foundInText_of_textWord (hw : TextWord behind file w) (h : isWiiInstr w = true) :
    FoundInText behind file := by
  obtain ⟨i,j,hj,hread⟩ := hw
  exact ⟨i,j,hj,by rw [hread, Option.map_some, h]⟩

end

section

variable {k : Kernel} {hw : Hardware} {bail : BailOut} {s t : EmuState} {es : List Signal}
  {e : Signal} {r : SprReg} {reg : BatReg}

/-- The signal is a trap of an instruction that writes HID4. -/
def Signal.WritesHid4 (e : Signal) : Prop := ∃ x, e.trap = some x ∧ DolTools.WritesHid4 x.val

/-- A register of Broadway changes only by an instruction that names it while it is open. -/
lemma machineStep_broadway (hr : r.Broadway) (h : MachineStep k hw s e t)
    (hne : r.get t.cpu ≠ r.get s.cpu) : r.closed s = false ∧
      ∃ x regSrc, e.trap = some x ∧ decodeIllegal x.val = .mtspr r.spr regSrc := by
  have hdec : r ≠ .dec := by
    rintro rfl
    exact hr
  cases h with
  | sigill x ok =>
    obtain ⟨hopen,regSrc,hop⟩ := handled_changes hr hne
    exact ⟨hopen,x,regSrc,rfl,hop⟩
  | sigsegv f ok =>
    refine absurd (congrArg r.get ?_) hne
    rw [faultStep_faulted.rest]
  | sigalrm mem back =>
    refine absurd ?_ hne
    rw [sigalrmHandler_tickStep.rest]
    exact SprReg.get_dec hdec s.cpu _

lemma machineStep_hid4 (h : MachineStep k hw s e t) (he : ¬ e.WritesHid4) :
    t.cpu.hid4 = s.cpu.hid4 := by
  by_contra hne
  obtain ⟨-,x,regSrc,hx,hop⟩ := machineStep_broadway (r := .hid4) trivial h hne
  exact he ⟨x,hx,regSrc,hop⟩

lemma hid4_run (hrun : Run (machineStep k hw bail) (fun _ _ => True) s es t)
    (hes : ∀ e ∈ es, ¬ e.WritesHid4) : t.cpu.hid4 = s.cpu.hid4 :=
  hrun.frame (fun s : EmuState => s.cpu.hid4)
    (fun _ _ _ _ he hnext => machineStep_hid4 (machineStep_eq_some.mp hnext) he) hes

/-- While HID4 has not the bit, or on a GameCube, the upper BATs are closed. -/
lemma closed_of_hid4 (hreg : reg.high = true) (hc : s.consoleType = .gamecube ∨
    (s.consoleType = .wii ∧ s.cpu.hid4 &&& hid4Sbe = 0)) : (SprReg.bat reg).closed s = true := by
  rcases hc with hc | ⟨hc,hsbe⟩
  · exact SprReg.closed_of_gamecube hreg hc
  · rw [SprReg.closed, hreg, highBatIllegal_wii hc hsbe]
    rfl

lemma upperBats_run (hrun : Run (machineStep k hw bail) (fun _ _ => True) s es t)
    (hes : ∀ e ∈ es, ¬ e.WritesHid4) (hc : s.consoleType = .gamecube ∨
      (s.consoleType = .wii ∧ s.cpu.hid4 &&& hid4Sbe = 0)) (hreg : reg.high = true) :
    reg.get t.cpu = reg.get s.cpu := by
  induction hrun with
  | nil => rfl
  | @snoc es m e t head ok next ih =>
    have hes' : ∀ e ∈ es, ¬ e.WritesHid4 := fun e he => hes e (List.mem_append_left _ he)
    rw [← ih hes']
    by_contra hne
    have hclosed : (SprReg.bat reg).closed m = true := by
      apply closed_of_hid4 hreg
      rwa [(sameSetup_of_run head).consoleType, hid4_run head hes']
    have hopen := (machineStep_broadway (r := .bat reg) hreg (machineStep_eq_some.mp next) hne).1
    rw [hclosed] at hopen
    contradiction

end

/-- The guest traps on words of its text sections only, as they are encoded without the ignored
bits. -/
def TrapsInText (behind : ℕ → Option Byte) (file : List Byte) (es : List Signal) : Prop :=
  ∀ x ∈ es.filterMap Signal.trap, TextWord behind file x.val ∧ x.val &&& ignoredBits = 0

section

variable {k : Kernel} {hw : Hardware} {bail : BailOut} {env : MainEnv} {argv : List (List Char)}
  {file : List Byte} {ram : RamBytes} {l : Loaded} {t : EmuState} {es : List Signal} {e : Signal}
  {behind : ℕ → Option Byte}

lemma TrapsInText.found (h : TrapsInText behind file es) (he : e ∈ es) (hwrites : e.WritesHid4) :
    FoundInText behind file := by
  obtain ⟨x,hx,hop⟩ := hwrites
  obtain ⟨htext,hbits⟩ := h x (List.mem_filterMap.mpr ⟨e,he,hx⟩)
  exact foundInText_of_textWord htext (isWiiInstr_iff_writesHid4.mpr ⟨hop,hbits⟩)

/-- The console type of a guest is what the search has found. -/
lemma runMain_consoleType (h : runMain k env argv file ram = .entered l) :
    detectConsole env.boot.behind file = some l.state.consoleType ∧ l.state.consoleType ≠ .other ∧
      l.state.cpu.hid4 = hid4Rsrvd1 := by
  obtain ⟨hostType,-,hl⟩ := runMain_entered h
  obtain ⟨c,hc,hload⟩ := Option.bind_eq_some_iff.mp hl
  have hinit := afterInit_boot (loadMain_boot hload)
  have htype : l.state.consoleType = c := hinit.consoleType
  refine ⟨by rw [hc, htype],?_,hinit.hid4⟩
  rw [htype]
  rw [detectConsole, Option.map_eq_some_iff] at hc
  obtain ⟨wii,-,rfl⟩ := hc
  cases wii <;> decide

end

/-- The search finds every guest that can write HID4: in every run from `main` in which the guest
traps on words of its text sections, such an instruction is found on a Wii, and if the search
has not found one there, HID4 and the upper BATs stay as `main` leaves them. -/
theorem hid4_of_search {k : Kernel} {hw : Hardware} {bail : BailOut} {env : MainEnv}
    {argv : List (List Char)} {file : List Byte} {ram : RamBytes} {l : Loaded} {t : EmuState}
    {es : List Signal} (hmain : runMain k env argv file ram = .entered l)
    (hrun : Run (machineStep k hw bail) (fun _ _ => True) l.state es t)
    (htext : TrapsInText env.boot.behind file es) :
    (∀ e ∈ es, e.WritesHid4 → t.consoleType = .wii) ∧
    (¬ FoundInText env.boot.behind file → t.cpu.hid4 = l.state.cpu.hid4 ∧
      ∀ reg : BatReg, reg.high = true → reg.get t.cpu = reg.get l.state.cpu) := by
  obtain ⟨hdetect,hother,hhid4⟩ := runMain_consoleType hmain
  refine ⟨?_,?_⟩
  · intro e he hwrites
    rw [(sameSetup_of_run hrun).consoleType]
    cases hc : l.state.consoleType with
    | wii => rfl
    | gamecube =>
      rw [hc] at hdetect
      exact absurd (htext.found he hwrites) (not_foundInText hdetect)
    | other => exact absurd hc hother
  · intro hno
    have hnone : ∀ e ∈ es, ¬ e.WritesHid4 := fun e he hwrites => hno (htext.found he hwrites)
    refine ⟨hid4_run hrun hnone,fun reg hreg => upperBats_run hrun hnone ?_ hreg⟩
    cases hc : l.state.consoleType with
    | gamecube => exact .inl rfl
    | wii => exact .inr ⟨rfl,by rw [hhid4]; decide⟩
    | other => exact absurd hc hother

/-- A text section that holds `mtspr` to SPRG0. -/
def sprgFile : List Byte := overwrite (dolFile 0x80003100#32) 0x100 (bytes .big 0x7C7043A6#32)

/-- On the way to its first instruction and behind it HID4 is the same. -/
theorem hid4_of_search_sprg0 : ∃ l, runMain consoleKernel gcnHost ["dol-run".toList, "a".toList]
    sprgFile (fun _ _ => 0) = .entered l ∧
      (handled consoleKernel l.state (trapWith 0x7C7043A6#32 5#32)).cpu.hid4 = l.state.cpu.hid4 := by
  obtain ⟨l,hl⟩ := RunExit.exists_entered (r := runMain consoleKernel gcnHost
    ["dol-run".toList, "a".toList] sprgFile (fun _ _ => 0)) (by decide +kernel)
  obtain ⟨hostType,-,hdetect⟩ := runMain_entered hl
  obtain ⟨c,-,hload⟩ := Option.bind_eq_some_iff.mp hdetect
  obtain ⟨_,-,-,hok,-⟩ := boot_eq_some (loadMain_boot hload)
  have hnil : Run (machineStep consoleKernel zeroHardware noBail) (fun _ _ => True) l.state [] _ :=
    .nil
  have hrun := hnil.snoc trivial
    (machineStep_eq_some.mpr (.sigill (trapWith 0x7C7043A6#32 5#32) hok))
  have htext : TrapsInText gcnHost.boot.behind sprgFile [.sigill (trapWith 0x7C7043A6#32 5#32)] := by
    intro x hx
    obtain rfl := List.mem_singleton.mp hx
    exact ⟨⟨0,0,by decide +kernel,by decide +kernel⟩,by decide⟩
  exact ⟨l,hl,((hid4_of_search hl hrun htext).2 (by decide +kernel)).1⟩

end DolTools
