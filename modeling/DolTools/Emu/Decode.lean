import DolTools.Emu.Sigill

/-! The tests of the handler against the PowerPC encoding. The handler masks ten bits of the
word and shifts one of them out, so that it sees nine of the ten bits of the extended
opcode: the instructions whose top bit is set are taken for others. -/
namespace DolTools

def extendedOpcode (w : Word) : ℕ := ((w >>> 1) &&& 0x3FF#32).toNat

def archReg (w : Word) : Fin 32 := Fin.ofNat 32 ((w >>> 21) &&& 31#32).toNat
def archSegment (w : Word) : Fin 16 := Fin.ofNat 16 ((w >>> 16) &&& 15#32).toNat
def archSpr (w : Word) : ℕ :=
  let raw := (w >>> 11) &&& 0x3FF#32
  ((raw >>> 5) ||| ((raw &&& 0x1F#32) <<< 5)).toNat

/-- The instruction that an opcode-31 word encodes, by extended opcode. -/
def archDecode (w : Word) : ℕ → Emulated
  | 339 => .mfspr (archReg w) (archSpr w)
  | 467 => .mtspr (archSpr w) (archReg w)
  | 83 => .mfmsr (archReg w)
  | 146 => .mtmsr (archReg w)
  | 210 => .mtsr (archSegment w) (archReg w)
  | 595 => .mfsr (archReg w) (archSegment w)
  | 470 => .dcbi
  | _ => .unhandled

/-- The handler runs the instruction that the word encodes, and reports a fatal error for
every other word. -/
structure DecodesAsEncoded (w : Word) : Prop where
  branch : decodeIllegal w = archDecode w (extendedOpcode w)
  runs : ∀ (k : Kernel) (vaddr : Word) (bail : BailOut) (s : EmuState) (ctx : Context),
    s.fatalError = false → sigillHandler k vaddr bail w s ctx =
      some (sigillFinish k vaddr bail s.cpu.msr
        (emulate (archDecode w (extendedOpcode w)) s ctx).1
        (emulate (archDecode w (extendedOpcode w)) s ctx).2)
  others : archDecode w (extendedOpcode w) = .unhandled →
    ∀ (s : EmuState) (ctx : Context), (emulate (decodeIllegal w) s ctx).1.fatalError = true

lemma highField_eq (w : Word) : (w &&& 0x03E00000#32) >>> 21 = (w >>> 21) &&& 31#32 := by
  rw [BitVec.ushiftRight_and_distrib]
  rfl

lemma segmentBits_eq (w : Word) : (w &&& 0x000F0000#32) >>> 16 = (w >>> 16) &&& 15#32 := by
  rw [BitVec.ushiftRight_and_distrib]
  rfl

lemma regField_eq (w : Word) : regField w = archReg w := by
  rw [regField, highField_eq, archReg]

lemma segField_eq (w : Word) : segField w = archSegment w := by
  rw [segField, segmentBits_eq, archSegment]

lemma sprField_eq (w : Word) : sprField w = archSpr w := by
  have hraw : (w &&& 0x001FF800#32) >>> 11 = (w >>> 11) &&& 0x3FF#32 := by
    rw [BitVec.ushiftRight_and_distrib]
    rfl
  have hhi : ((w >>> 11) &&& 0x3FF#32) >>> 5 &&& 0x1F#32 = ((w >>> 11) &&& 0x3FF#32) >>> 5 := by
    rw [BitVec.ushiftRight_and_distrib, BitVec.and_assoc]
    rfl
  simp only [sprField, archSpr, hraw, hhi]

/-- The nine bits that the handler compares are the low ones of the extended opcode. -/
lemma maskedOpcode_toNat (w : Word) :
    ((w &&& 0x3FF#32) >>> 1).toNat = extendedOpcode w % 512 := by
  have hx : extendedOpcode w = w.toNat / 2 % 1024 := by
    rw [extendedOpcode, BitVec.toNat_and, BitVec.toNat_ushiftRight, Nat.shiftRight_eq_div_pow]
    exact Nat.and_two_pow_sub_one_eq_mod (w.toNat / 2^1) 10
  have hm : (w &&& 0x3FF#32).toNat = w.toNat % 1024 := by
    rw [BitVec.toNat_and]
    exact Nat.and_two_pow_sub_one_eq_mod w.toNat 10
  rw [BitVec.toNat_ushiftRight, hm, hx, Nat.shiftRight_eq_div_pow]
  omega

lemma extendedOpcode_lt (w : Word) : extendedOpcode w < 1024 :=
  Nat.lt_succ_of_le (AlignedBlock.toNat_and_le _ 0x3FF#32)

section

variable {w : Word}

lemma hasOpcode_iff (h : w >>> 26 = 31#32) (xo : Word) :
    hasOpcode w xo = true ↔ extendedOpcode w % 512 = xo.toNat := by
  have hop : (w &&& 0xFC000000#32) >>> 26 = 31#32 := by
    rw [BitVec.ushiftRight_and_distrib, h]
    rfl
  rw [hasOpcode, hop, beq_self_eq_true, Bool.and_true, beq_iff_eq, BitVec.toNat_eq,
    maskedOpcode_toNat]

lemma archDecode_of_not_mem {n : ℕ} (hn : n ∉ [339, 467, 83, 146, 210, 595, 470]) :
    archDecode w n = .unhandled := by
  simp only [List.mem_cons, List.not_mem_nil, or_false, not_or] at hn
  unfold archDecode
  split <;> first | rfl | omega

lemma decodeIllegal_eq (h : w >>> 26 = 31#32) :
    decodeIllegal w = archDecode w (extendedOpcode w % 512) := by
  have hrfi : w ≠ rfiWord := by
    rintro rfl
    revert h
    decide
  simp only [decodeIllegal, hasOpcode_iff h, hrfi, if_false, regField_eq, segField_eq, sprField_eq]
  have hlt : extendedOpcode w % 512 < 512 := Nat.mod_lt _ (by decide)
  generalize extendedOpcode w % 512 = n at hlt
  by_cases hn : n ∈ [339, 467, 83, 146, 210, 595, 470]
  · simp only [List.mem_cons, List.not_mem_nil, or_false] at hn
    rcases hn with rfl | rfl | rfl | rfl | rfl | rfl | rfl
    case inr.inr.inr.inr.inr.inl => omega
    all_goals rfl
  · rw [archDecode_of_not_mem hn]
    simp only [List.mem_cons, List.not_mem_nil, or_false, not_or] at hn
    obtain ⟨h339,h467,h83,h146,h210,h595,h470⟩ := hn
    simp [h339, h467, h83, h146, h210, h595, h470]

/-- The handler decodes a word as it is encoded exactly when the extended opcode is not one
that differs from an emulated instruction in its top bit alone. -/
theorem decodesAsEncoded_iff (h : w >>> 26 = 31#32) :
    DecodesAsEncoded w ↔ extendedOpcode w ∉ [595, 658, 722, 851, 979, 982] := by
  have hlt := extendedOpcode_lt w
  have heq := decodeIllegal_eq h
  constructor
  · intro hd hmem
    have hb := hd.branch
    rw [heq] at hb
    simp only [List.mem_cons, List.not_mem_nil, or_false] at hmem
    rcases hmem with hx | hx | hx | hx | hx | hx <;> rw [hx] at hb <;> simp [archDecode] at hb
  · intro hmem
    simp only [List.mem_cons, List.not_mem_nil, or_false, not_or] at hmem
    have hbranch : decodeIllegal w = archDecode w (extendedOpcode w) := by
      rw [heq]
      by_cases hlow : extendedOpcode w < 512
      · rw [Nat.mod_eq_of_lt hlow]
      · -- with the top bit set neither number names an instruction
        have hm : extendedOpcode w % 512 = extendedOpcode w - 512 := by omega
        rw [archDecode_of_not_mem (n := extendedOpcode w) (by
            simp only [List.mem_cons, List.not_mem_nil, or_false, not_or]
            omega),
          archDecode_of_not_mem (by
            simp only [List.mem_cons, List.not_mem_nil, or_false, not_or]
            omega)]
    refine ⟨hbranch,?_,?_⟩
    · intro k vaddr bail s ctx hs
      rw [sigillHandler, hs, hbranch]
      rfl
    · intro hu s ctx
      rw [hbranch, hu]
      rfl

end

/-- `mtspr` of the first upper data BAT from register 3. -/
theorem decodesAsEncoded_mtspr : DecodesAsEncoded 0x7C7883A6#32 :=
  (decodesAsEncoded_iff (by decide)).mpr (by decide)

/-- After `mtsr 0, r3` with the value 5, `mfsr r4, 0` loads the MSR. -/
theorem mfsr_reads_msr :
    ¬ ∀ w : Word, w >>> 26 = 31#32 → DecodesAsEncoded w := by
  intro h
  have hr := (h 0x7C8004A6#32 (by decide)).runs ⟨fun _ _ => true⟩ 0 ⟨0,0,0,0⟩
    (mtsr 0 5#32 .zero) ⟨fun _ => 0,0,0,0⟩ rfl
  have hgpr := congrArg (fun r => r.map (fun r => r.2.gpr 4)) hr
  revert hgpr
  decide

end DolTools
