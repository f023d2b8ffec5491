import DolTools.Cpu.Registers
import DolTools.Library.ByteOrder

/-! The header of a DOL file: the layout of the struct, its fields as the machine loads them,
and the conversion that `dol-info` and `dol-run` apply to it. -/
namespace DolTools
open BigEndian ByteOrder

/-- `DOL_Hdr_t` -/
structure DolHdr where
  textOff : Fin 7 → Word
  dataOff : Fin 11 → Word
  textAddr : Fin 7 → Word
  dataAddr : Fin 11 → Word
  textSize : Fin 7 → Word
  dataSize : Fin 11 → Word
  bssAddr : Word
  bssSize : Word
  entry : Word
  padding : Fin 0x1C → Byte

/-! The byte positions of the members of the packed struct, each behind the one before. -/

def textOffAt : ℕ := 0
def dataOffAt : ℕ := textOffAt + 4*7
def textAddrAt : ℕ := dataOffAt + 4*11
def dataAddrAt : ℕ := textAddrAt + 4*7
def textSizeAt : ℕ := dataAddrAt + 4*11
def dataSizeAt : ℕ := textSizeAt + 4*7
def bssAddrAt : ℕ := dataSizeAt + 4*11
def bssSizeAt : ℕ := bssAddrAt + 4
def entryAt : ℕ := bssSizeAt + 4
def paddingAt : ℕ := entryAt + 4
def hdrSize : ℕ := paddingAt + 0x1C

theorem layout : textOffAt = 0x00 ∧ dataOffAt = 0x1C ∧ textAddrAt = 0x48 ∧ dataAddrAt = 0x64 ∧
    textSizeAt = 0x90 ∧ dataSizeAt = 0xAC ∧ bssAddrAt = 0xD8 ∧ bssSizeAt = 0xDC ∧
    entryAt = 0xE0 ∧ paddingAt = 0xE4 ∧ hdrSize = 0x100 := by
  decide

/-- The struct laid over a memory, as a machine loads its members. -/
def overlay (o : Order) (m : Memory) : DolHdr where
  textOff i := load o m (textOffAt + 4*i.val)
  dataOff i := load o m (dataOffAt + 4*i.val)
  textAddr i := load o m (textAddrAt + 4*i.val)
  dataAddr i := load o m (dataAddrAt + 4*i.val)
  textSize i := load o m (textSizeAt + 4*i.val)
  dataSize i := load o m (dataSizeAt + 4*i.val)
  bssAddr := load o m bssAddrAt
  bssSize := load o m bssSizeAt
  entry := load o m entryAt
  padding i := m (paddingAt + i.val)

/-- `htonl` and `ntohl` -/
def htonl (o : Order) (v : Word) : Word := swapToBig o v
def ntohl (o : Order) (v : Word) : Word := swapToBig o v

/-- `DOL_Hdr_Byteswap`: its six loops each convert every element of one array. -/
def dolHdrByteswap (o : Order) (hdr : DolHdr) : DolHdr :=
  { hdr with
    textOff := fun i => ntohl o (hdr.textOff i)
    dataOff := fun i => ntohl o (hdr.dataOff i)
    textAddr := fun i => ntohl o (hdr.textAddr i)
    dataAddr := fun i => ntohl o (hdr.dataAddr i)
    textSize := fun i => ntohl o (hdr.textSize i)
    dataSize := fun i => ntohl o (hdr.dataSize i)
    bssAddr := ntohl o hdr.bssAddr
    bssSize := ntohl o hdr.bssSize
    entry := ntohl o hdr.entry }

/-- What is said of a section. -/
inductive Attr
  | addr
  | size
  | offset
  deriving DecidableEq, Repr

/-- The 57 words of the header. -/
inductive HdrField
  | text (attr : Attr) (i : Fin 7)
  | data (attr : Attr) (i : Fin 11)
  | bssAddr
  | bssSize
  | entry
  deriving DecidableEq, Repr

namespace HdrField

/-- The byte position of a field. -/
def pos : HdrField → ℕ
  | text .addr i => textAddrAt + 4*i.val
  | text .size i => textSizeAt + 4*i.val
  | text .offset i => textOffAt + 4*i.val
  | data .addr i => dataAddrAt + 4*i.val
  | data .size i => dataSizeAt + 4*i.val
  | data .offset i => dataOffAt + 4*i.val
  | bssAddr => bssAddrAt
  | bssSize => bssSizeAt
  | entry => entryAt

end HdrField

def DolHdr.get (hdr : DolHdr) : HdrField → Word
  | .text .addr i => hdr.textAddr i
  | .text .size i => hdr.textSize i
  | .text .offset i => hdr.textOff i
  | .data .addr i => hdr.dataAddr i
  | .data .size i => hdr.dataSize i
  | .data .offset i => hdr.dataOff i
  | .bssAddr => hdr.bssAddr
  | .bssSize => hdr.bssSize
  | .entry => hdr.entry

section

variable {f g : HdrField}

lemma overlay_get (o : Order) (m : Memory) (f : HdrField) :
    (overlay o m).get f = load o m f.pos := by
  cases f with
  | text attr i => cases attr <;> rfl
  | data attr i => cases attr <;> rfl
  | _ => rfl

lemma dolHdrByteswap_get (o : Order) (hdr : DolHdr) (f : HdrField) :
    (dolHdrByteswap o hdr).get f = ntohl o (hdr.get f) := by
  cases f with
  | text attr i => cases attr <;> rfl
  | data attr i => cases attr <;> rfl
  | _ => rfl

/-- A converted header holds the big-endian words of the file, whatever the machine. -/
theorem byteswap_overlay_get (o : Order) (m : Memory) (f : HdrField) :
    (dolHdrByteswap o (overlay o m)).get f = word m f.pos := by
  rw [dolHdrByteswap_get, overlay_get]
  exact swapToBig_load o m f.pos

/-- The struct depends on the bytes below its end. -/
theorem overlay_congr {m m' : Memory} (h : ∀ a < hdrSize, m' a = m a) :
    overlay .big m' = overlay .big m := by
  have hlayout := layout
  have hload : ∀ a, a + 4 ≤ hdrSize → load .big m' a = load .big m a :=
    fun a ha => word_congr (fun i hi => h (a+i) (by omega))
  rw [overlay, overlay, DolHdr.mk.injEq]
  refine ⟨?_,?_,?_,?_,?_,?_,hload _ (by omega),hload _ (by omega),hload _ (by omega),?_⟩ <;>
    funext i
  case refine_7 => exact h _ (by omega)
  all_goals exact hload _ (by omega)

/-- The fields lie before the padding, and do not overlap. -/
theorem HdrField.pos_lt (f : HdrField) : f.pos + 4 ≤ paddingAt := by
  have hlayout := layout
  cases f with
  | text attr i => cases attr <;> (simp only [pos]; omega)
  | data attr i => cases attr <;> (simp only [pos]; omega)
  | _ => simp only [pos]; omega

theorem HdrField.pos_apart (h : f ≠ g) : f.pos + 4 ≤ g.pos ∨ g.pos + 4 ≤ f.pos := by
  have hlayout := layout
  -- two fields of one array differ in their index
  have hindex : ∀ {n} {i j : Fin n}, i ≠ j → i.val + 1 ≤ j.val ∨ j.val + 1 ≤ i.val := by
    intro n i j hij
    rcases lt_or_gt_of_ne hij with hlt | hlt
    · exact .inl hlt
    · exact .inr hlt
  cases f with
  | text attr i =>
    cases g with
    | text attr' j =>
      by_cases hattr : attr = attr'
      · subst hattr
        have hij := hindex (fun heq => h (congrArg (text attr) heq))
        cases attr <;> (simp only [pos]; omega)
      · cases attr <;> cases attr' <;> first | contradiction | (simp only [pos]; omega)
    | data attr' j => cases attr <;> cases attr' <;> (simp only [pos]; omega)
    | _ => cases attr <;> (simp only [pos]; omega)
  | data attr i =>
    cases g with
    | text attr' j => cases attr <;> cases attr' <;> (simp only [pos]; omega)
    | data attr' j =>
      by_cases hattr : attr = attr'
      · subst hattr
        have hij := hindex (fun heq => h (congrArg (data attr) heq))
        cases attr <;> (simp only [pos]; omega)
      · cases attr <;> cases attr' <;> first | contradiction | (simp only [pos]; omega)
    | _ => cases attr <;> (simp only [pos]; omega)
  | _ =>
    cases g with
    | text attr j => cases attr <;> (simp only [pos]; omega)
    | data attr j => cases attr <;> (simp only [pos]; omega)
    | _ => first | contradiction | (simp only [pos]; omega)

end

end DolTools
