import CSEL1.Display.Basic

/-! # The lines of the daemon

The texts the daemon writes on the display. Each has its own page, so a line
changes only when it is written, and writing what it already shows changes
nothing.
-/

namespace CSEL1

open CText

def headerTexts : List (Fin 8 × List Char) :=
  [(0, "CSEL1a - Projet".toList), (1, "  Daemon".toList), (2, "--------------".toList)]

def freqPrefix : List Char := "Freq: ".toList

def freqSuffix : List Char := " [Hz]".toList

def tempPrefix : List Char := "CPU temp: ".toList

def freqText (freq : Int32) : List Char := freqPrefix ++ (decimal freq.toInt ++ freqSuffix)

def tempText (temp : Int32) : List Char := tempPrefix ++ decimal temp.toInt

def autoText : List Char := "Auto mode   ".toList

def manualText : List Char := "Manual mode ".toList

def modeText (mode : Int32) : List Char := if mode = 0 then autoText else manualText

namespace Lcd

def writeHeader (lcd : Lcd) : Lcd :=
  headerTexts.foldl (fun lcd t => (lcd.setPosition 0 t.1).puts t.2) lcd

def writeMode (lcd : Lcd) (mode : Int32) : Lcd := (lcd.setPosition 0 3).puts (modeText mode)

def writeFreq (lcd : Lcd) (freq : Int32) : Lcd := (lcd.setPosition 0 4).puts (freqText freq)

def writeTemp (lcd : Lcd) (temp : Int32) : Lcd := (lcd.setPosition 0 5).puts (tempText temp)

section Texts

variable (lcd : Lcd) {row : Fin 8} {s : List Char}

theorem setPosition_puts_line_eq_iff (hs : s.length ≤ 16) (hg : s.map glyph = s) :
    ((lcd.setPosition 0 row).puts s).line = lcd.line ↔ lcd.Shows row s := by
  have hrow := lcd.setPosition_puts_line row s hs
  rw [hg] at hrow
  constructor
  · intro h
    rw [h] at hrow
    exact ⟨_, hrow.symm⟩
  · rintro ⟨t, ht⟩
    funext row'
    by_cases h : row' = row
    · subst h
      rw [hrow, ← ht, List.drop_left]
    · exact lcd.setPosition_puts_line_other row s h

theorem glyph_of_isDigit {c : Char} (h : c.isDigit = true) : glyph c = c := by
  obtain ⟨hl, hu⟩ := toNat_of_isDigit h
  unfold glyph
  rw [if_neg (by omega)]

@[simp] theorem map_glyph_decimal (v : ℤ) : (decimal v).map glyph = decimal v := by
  conv_rhs => rw [← List.map_id (decimal v)]
  apply List.map_congr_left
  intro c hc
  rcases mem_decimal hc with rfl | h
  · rfl
  · exact glyph_of_isDigit h

theorem length_modeText (mode : Int32) : (modeText mode).length = 12 := by
  unfold modeText
  split <;> rfl

theorem map_glyph_modeText (mode : Int32) : (modeText mode).map glyph = modeText mode := by
  unfold modeText
  split <;> decide +kernel

theorem writeMode_line (mode : Int32) :
    (lcd.writeMode mode).line 3 = modeText mode ++ (lcd.line 3).drop 12 := by
  have h := lcd.setPosition_puts_line 3 (modeText mode) (by rw [length_modeText]; decide)
  rwa [map_glyph_modeText, length_modeText] at h

theorem writeMode_shows (mode : Int32) : (lcd.writeMode mode).Shows 3 (modeText mode) :=
  ⟨_, (lcd.writeMode_line mode).symm⟩

theorem shows_modeText_iff {mode mode' : Int32} (h : lcd.Shows 3 (modeText mode)) :
    lcd.Shows 3 (modeText mode') ↔ (mode = 0 ↔ mode' = 0) := by
  obtain ⟨t, ht⟩ := h
  constructor
  · rintro ⟨t', ht'⟩
    have he := List.append_inj_left (ht.trans ht'.symm) (by simp only [length_modeText])
    have hne : autoText ≠ manualText := by unfold autoText manualText; decide
    unfold modeText at he
    split at he <;> split at he
    · simp_all only
    · exact absurd he hne
    · exact absurd he hne.symm
    · simp_all only
  · intro hiff
    have he : modeText mode' = modeText mode := by simp [modeText, hiff]
    exact he ▸ ⟨t, ht⟩

@[simp] theorem writeFreq_line_mode (freq : Int32) : (lcd.writeFreq freq).line 3 = lcd.line 3 :=
  lcd.setPosition_puts_line_other 4 _ (by decide)

@[simp] theorem writeTemp_line_mode (temp : Int32) : (lcd.writeTemp temp).line 3 = lcd.line 3 :=
  lcd.setPosition_puts_line_other 5 _ (by decide)

theorem length_freqText (freq : Int32) :
    (freqText freq).length = (decimal freq.toInt).length + 11 := by
  have hl : freqPrefix.length = 6 := by decide
  have hr : freqSuffix.length = 5 := by decide
  rw [freqText, List.length_append, List.length_append, hl, hr]
  omega

theorem length_tempText (temp : Int32) :
    (tempText temp).length = (decimal temp.toInt).length + 10 := by
  have hl : tempPrefix.length = 10 := by decide
  rw [tempText, List.length_append, hl]
  omega

theorem map_glyph_freqText (freq : Int32) : (freqText freq).map glyph = freqText freq := by
  have hl : freqPrefix.map glyph = freqPrefix := by decide +kernel
  have hr : freqSuffix.map glyph = freqSuffix := by decide +kernel
  rw [freqText, List.map_append, List.map_append, hl, hr, map_glyph_decimal]

theorem map_glyph_tempText (temp : Int32) : (tempText temp).map glyph = tempText temp := by
  have hl : tempPrefix.map glyph = tempPrefix := by decide +kernel
  rw [tempText, List.map_append, hl, map_glyph_decimal]

theorem writeFreq_line_eq_iff {freq : Int32} (h : (decimal freq.toInt).length ≤ 5) :
    (lcd.writeFreq freq).line = lcd.line ↔ lcd.Shows 4 (freqText freq) :=
  lcd.setPosition_puts_line_eq_iff (by rw [length_freqText]; omega) (map_glyph_freqText freq)

theorem writeTemp_line_eq_iff {temp : Int32} (h : (decimal temp.toInt).length ≤ 6) :
    (lcd.writeTemp temp).line = lcd.line ↔ lcd.Shows 5 (tempText temp) :=
  lcd.setPosition_puts_line_eq_iff (by rw [length_tempText]; omega) (map_glyph_tempText temp)

end Texts

end Lcd

end CSEL1
