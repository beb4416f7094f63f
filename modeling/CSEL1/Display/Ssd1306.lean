import Mathlib.Data.List.GetD
import Mathlib.Data.Int.Notation

/-! # The SSD1306 controller

The transfers the display driver of the daemon sends over the I2C bus, each a
write of two bytes: a mode byte, then a command or a byte of data.
-/

namespace CSEL1

inductive Transfer
  | command (cmd : UInt8)
  | data (byte : UInt8)
  deriving DecidableEq, Repr

namespace Ssd1306

/-- The columns of the characters 32 to 127. -/
def font : List (List UInt8) :=
  [[0x00, 0x00, 0x00, 0x00, 0x00, 0x00, 0x00, 0x00],
   [0x00, 0x00, 0x5F, 0x00, 0x00, 0x00, 0x00, 0x00],
   [0x00, 0x00, 0x07, 0x00, 0x07, 0x00, 0x00, 0x00],
   [0x00, 0x14, 0x7F, 0x14, 0x7F, 0x14, 0x00, 0x00],
   [0x00, 0x24, 0x2A, 0x7F, 0x2A, 0x12, 0x00, 0x00],
   [0x00, 0x23, 0x13, 0x08, 0x64, 0x62, 0x00, 0x00],
   [0x00, 0x36, 0x49, 0x55, 0x22, 0x50, 0x00, 0x00],
   [0x00, 0x00, 0x05, 0x03, 0x00, 0x00, 0x00, 0x00],
   [0x00, 0x1C, 0x22, 0x41, 0x00, 0x00, 0x00, 0x00],
   [0x00, 0x41, 0x22, 0x1C, 0x00, 0x00, 0x00, 0x00],
   [0x00, 0x08, 0x2A, 0x1C, 0x2A, 0x08, 0x00, 0x00],
   [0x00, 0x08, 0x08, 0x3E, 0x08, 0x08, 0x00, 0x00],
   [0x00, 0xA0, 0x60, 0x00, 0x00, 0x00, 0x00, 0x00],
   [0x00, 0x08, 0x08, 0x08, 0x08, 0x08, 0x00, 0x00],
   [0x00, 0x60, 0x60, 0x00, 0x00, 0x00, 0x00, 0x00],
   [0x00, 0x20, 0x10, 0x08, 0x04, 0x02, 0x00, 0x00],
   [0x00, 0x3E, 0x51, 0x49, 0x45, 0x3E, 0x00, 0x00],
   [0x00, 0x00, 0x42, 0x7F, 0x40, 0x00, 0x00, 0x00],
   [0x00, 0x62, 0x51, 0x49, 0x49, 0x46, 0x00, 0x00],
   [0x00, 0x22, 0x41, 0x49, 0x49, 0x36, 0x00, 0x00],
   [0x00, 0x18, 0x14, 0x12, 0x7F, 0x10, 0x00, 0x00],
   [0x00, 0x27, 0x45, 0x45, 0x45, 0x39, 0x00, 0x00],
   [0x00, 0x3C, 0x4A, 0x49, 0x49, 0x30, 0x00, 0x00],
   [0x00, 0x01, 0x71, 0x09, 0x05, 0x03, 0x00, 0x00],
   [0x00, 0x36, 0x49, 0x49, 0x49, 0x36, 0x00, 0x00],
   [0x00, 0x06, 0x49, 0x49, 0x29, 0x1E, 0x00, 0x00],
   [0x00, 0x00, 0x36, 0x36, 0x00, 0x00, 0x00, 0x00],
   [0x00, 0x00, 0xAC, 0x6C, 0x00, 0x00, 0x00, 0x00],
   [0x00, 0x08, 0x14, 0x22, 0x41, 0x00, 0x00, 0x00],
   [0x00, 0x14, 0x14, 0x14, 0x14, 0x14, 0x00, 0x00],
   [0x00, 0x41, 0x22, 0x14, 0x08, 0x00, 0x00, 0x00],
   [0x00, 0x02, 0x01, 0x51, 0x09, 0x06, 0x00, 0x00],
   [0x00, 0x32, 0x49, 0x79, 0x41, 0x3E, 0x00, 0x00],
   [0x00, 0x7E, 0x09, 0x09, 0x09, 0x7E, 0x00, 0x00],
   [0x00, 0x7F, 0x49, 0x49, 0x49, 0x36, 0x00, 0x00],
   [0x00, 0x3E, 0x41, 0x41, 0x41, 0x22, 0x00, 0x00],
   [0x00, 0x7F, 0x41, 0x41, 0x22, 0x1C, 0x00, 0x00],
   [0x00, 0x7F, 0x49, 0x49, 0x49, 0x41, 0x00, 0x00],
   [0x00, 0x7F, 0x09, 0x09, 0x09, 0x01, 0x00, 0x00],
   [0x00, 0x3E, 0x41, 0x41, 0x51, 0x72, 0x00, 0x00],
   [0x00, 0x7F, 0x08, 0x08, 0x08, 0x7F, 0x00, 0x00],
   [0x00, 0x41, 0x7F, 0x41, 0x00, 0x00, 0x00, 0x00],
   [0x00, 0x20, 0x40, 0x41, 0x3F, 0x01, 0x00, 0x00],
   [0x00, 0x7F, 0x08, 0x14, 0x22, 0x41, 0x00, 0x00],
   [0x00, 0x7F, 0x40, 0x40, 0x40, 0x40, 0x00, 0x00],
   [0x00, 0x7F, 0x02, 0x0C, 0x02, 0x7F, 0x00, 0x00],
   [0x00, 0x7F, 0x04, 0x08, 0x10, 0x7F, 0x00, 0x00],
   [0x00, 0x3E, 0x41, 0x41, 0x41, 0x3E, 0x00, 0x00],
   [0x00, 0x7F, 0x09, 0x09, 0x09, 0x06, 0x00, 0x00],
   [0x00, 0x3E, 0x41, 0x51, 0x21, 0x5E, 0x00, 0x00],
   [0x00, 0x7F, 0x09, 0x19, 0x29, 0x46, 0x00, 0x00],
   [0x00, 0x26, 0x49, 0x49, 0x49, 0x32, 0x00, 0x00],
   [0x00, 0x01, 0x01, 0x7F, 0x01, 0x01, 0x00, 0x00],
   [0x00, 0x3F, 0x40, 0x40, 0x40, 0x3F, 0x00, 0x00],
   [0x00, 0x1F, 0x20, 0x40, 0x20, 0x1F, 0x00, 0x00],
   [0x00, 0x3F, 0x40, 0x38, 0x40, 0x3F, 0x00, 0x00],
   [0x00, 0x63, 0x14, 0x08, 0x14, 0x63, 0x00, 0x00],
   [0x00, 0x03, 0x04, 0x78, 0x04, 0x03, 0x00, 0x00],
   [0x00, 0x61, 0x51, 0x49, 0x45, 0x43, 0x00, 0x00],
   [0x00, 0x7F, 0x41, 0x41, 0x00, 0x00, 0x00, 0x00],
   [0x00, 0x02, 0x04, 0x08, 0x10, 0x20, 0x00, 0x00],
   [0x00, 0x41, 0x41, 0x7F, 0x00, 0x00, 0x00, 0x00],
   [0x00, 0x04, 0x02, 0x01, 0x02, 0x04, 0x00, 0x00],
   [0x00, 0x80, 0x80, 0x80, 0x80, 0x80, 0x00, 0x00],
   [0x00, 0x01, 0x02, 0x04, 0x00, 0x00, 0x00, 0x00],
   [0x00, 0x20, 0x54, 0x54, 0x54, 0x78, 0x00, 0x00],
   [0x00, 0x7F, 0x48, 0x44, 0x44, 0x38, 0x00, 0x00],
   [0x00, 0x38, 0x44, 0x44, 0x28, 0x00, 0x00, 0x00],
   [0x00, 0x38, 0x44, 0x44, 0x48, 0x7F, 0x00, 0x00],
   [0x00, 0x38, 0x54, 0x54, 0x54, 0x18, 0x00, 0x00],
   [0x00, 0x08, 0x7E, 0x09, 0x02, 0x00, 0x00, 0x00],
   [0x00, 0x18, 0xA4, 0xA4, 0xA4, 0x7C, 0x00, 0x00],
   [0x00, 0x7F, 0x08, 0x04, 0x04, 0x78, 0x00, 0x00],
   [0x00, 0x00, 0x7D, 0x00, 0x00, 0x00, 0x00, 0x00],
   [0x00, 0x80, 0x84, 0x7D, 0x00, 0x00, 0x00, 0x00],
   [0x00, 0x7F, 0x10, 0x28, 0x44, 0x00, 0x00, 0x00],
   [0x00, 0x41, 0x7F, 0x40, 0x00, 0x00, 0x00, 0x00],
   [0x00, 0x7C, 0x04, 0x18, 0x04, 0x78, 0x00, 0x00],
   [0x00, 0x7C, 0x08, 0x04, 0x7C, 0x00, 0x00, 0x00],
   [0x00, 0x38, 0x44, 0x44, 0x38, 0x00, 0x00, 0x00],
   [0x00, 0xFC, 0x24, 0x24, 0x18, 0x00, 0x00, 0x00],
   [0x00, 0x18, 0x24, 0x24, 0xFC, 0x00, 0x00, 0x00],
   [0x00, 0x00, 0x7C, 0x08, 0x04, 0x00, 0x00, 0x00],
   [0x00, 0x48, 0x54, 0x54, 0x24, 0x00, 0x00, 0x00],
   [0x00, 0x04, 0x7F, 0x44, 0x00, 0x00, 0x00, 0x00],
   [0x00, 0x3C, 0x40, 0x40, 0x7C, 0x00, 0x00, 0x00],
   [0x00, 0x1C, 0x20, 0x40, 0x20, 0x1C, 0x00, 0x00],
   [0x00, 0x3C, 0x40, 0x30, 0x40, 0x3C, 0x00, 0x00],
   [0x00, 0x44, 0x28, 0x10, 0x28, 0x44, 0x00, 0x00],
   [0x00, 0x1C, 0xA0, 0xA0, 0x7C, 0x00, 0x00, 0x00],
   [0x00, 0x44, 0x64, 0x54, 0x4C, 0x44, 0x00, 0x00],
   [0x00, 0x08, 0x36, 0x41, 0x00, 0x00, 0x00, 0x00],
   [0x00, 0x00, 0x7F, 0x00, 0x00, 0x00, 0x00, 0x00],
   [0x00, 0x41, 0x36, 0x08, 0x00, 0x00, 0x00, 0x00],
   [0x00, 0x02, 0x01, 0x01, 0x02, 0x01, 0x00, 0x00],
   [0x00, 0x02, 0x05, 0x05, 0x02, 0x00, 0x00, 0x00]]

def initCommands : List UInt8 :=
  [0xAE, 0x00, 0x10, 0x40, 0xB0, 0x81, 0xCF, 0xA1, 0xA6, 0xA8, 0x3F, 0xC8, 0xD3, 0x00, 0xD5,
   0x80, 0xD9, 0xF1, 0xDA, 0x12, 0xDB, 0x40, 0x8D, 0x14, 0xAF]

/-- `char` is signed or not, as the platform has it. -/
def charValue (signed : Bool) (c : UInt8) : ℤ :=
  if signed && decide (128 ≤ c.toNat) then c.toNat - 256 else c.toNat

/-- The row of the font table read for a character. -/
def fontIndex (signed : Bool) (c : UInt8) : ℤ :=
  (if charValue signed c < 32 ∨ 127 < charValue signed c then 32 else charValue signed c) - 32

def fontBytes (signed : Bool) (c : UInt8) : List UInt8 := font.getD (fontIndex signed c).toNat []

def setPosition (column row : UInt32) : List Transfer :=
  [.command (0xb0 + row).toUInt8,
   .command (0x00 + (8 * column &&& 0x0f)).toUInt8,
   .command ((0x10 : UInt32) + ((8 * column) >>> 4 &&& 0x0f)).toUInt8]

def putc (signed : Bool) (c : UInt8) : List Transfer := (fontBytes signed c).map .data

/-- The bytes of a string up to its terminating NUL. -/
def puts (signed : Bool) : List UInt8 → List Transfer
  | [] => []
  | c :: str => if c = 0 then [] else putc signed c ++ puts signed str

def clearDisplay (signed : Bool) : List Transfer :=
  .command 0xae ::
    ((List.range 8).flatMap fun j =>
      setPosition 0 j.toUInt32 ++ (List.replicate 16 32).flatMap (putc signed)) ++
    .command 0xaf :: setPosition 0 0

def init (signed : Bool) : List Transfer := initCommands.map .command ++ clearDisplay signed

section Font

variable (signed : Bool) (c : UInt8)

/-- Every character is looked up inside the font table. -/
theorem fontIndex_bounds : 0 ≤ fontIndex signed c ∧ (fontIndex signed c).toNat < font.length := by
  have hlen : font.length = 96 := by decide
  unfold fontIndex
  split <;> omega

theorem length_of_mem_font : ∀ row ∈ font, row.length = 8 := by decide

@[simp] theorem length_fontBytes : (fontBytes signed c).length = 8 := by
  have hlt := (fontIndex_bounds signed c).2
  rw [fontBytes, List.getD_eq_getElem _ _ hlt]
  exact length_of_mem_font _ (List.getElem_mem hlt)

theorem puts_eq_map {str : List UInt8} (h : 0 ∉ str) :
    puts signed str = (str.flatMap (fontBytes signed)).map .data := by
  induction str with
  | nil => rfl
  | cons c str ih =>
    rw [List.mem_cons, not_or] at h
    rw [puts, if_neg (Ne.symm h.1), ih h.2, List.flatMap_cons, List.map_append, putc]

end Font

theorem data_not_mem_setPosition (b : UInt8) (column row : UInt32) :
    .data b ∉ setPosition column row := by
  simp [setPosition]

theorem exists_of_setPosition_append {column row : UInt32} {ds : List UInt8}
    {sent rest : List Transfer} {b : UInt8}
    (h : setPosition column row ++ ds.map .data = sent ++ .data b :: rest) :
    ∃ ds₁ ds₂, ds = ds₁ ++ b :: ds₂ ∧ sent = setPosition column row ++ ds₁.map .data := by
  rcases List.append_eq_append_iff.mp h with ⟨mid, rfl, hds⟩ | ⟨mid, hpos, hmid⟩
  · obtain ⟨ds₁, tail, rfl, rfl, htail⟩ := List.map_eq_append_iff.mp hds
    obtain ⟨b', ds₂, rfl, hb, -⟩ := List.map_eq_cons_iff.mp htail
    obtain rfl := Transfer.data.inj hb
    exact ⟨ds₁, ds₂, rfl, rfl⟩
  · rcases List.cons_eq_append_iff.mp hmid with ⟨rfl, hds⟩ | ⟨mid', rfl, -⟩
    · obtain ⟨b', ds₂, rfl, hb, -⟩ := List.map_eq_cons_iff.mp hds
      obtain rfl := Transfer.data.inj hb
      exact ⟨[], ds₂, rfl, by simpa using hpos.symm⟩
    · -- a data byte inside the position
      have hmem : Transfer.data b ∈ setPosition column row := by
        rw [hpos]
        exact List.mem_append_right _ List.mem_cons_self
      exact absurd hmem (data_not_mem_setPosition b column row)

end Ssd1306

end CSEL1
