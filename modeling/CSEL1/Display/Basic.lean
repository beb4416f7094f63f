import CSEL1.Text.Decimal
import Mathlib.Data.Fintype.Basic
import Mathlib.Tactic.FinCases

/-! # The OLED display

The display as eight pages of sixteen character cells. A position selects a page
and a column; each character is stored there and the column advances inside the
page. The daemon keeps one line of text on each page it uses.
-/

namespace CSEL1

open CText

-- pages and columns are written as numerals
instance pages_neZero : NeZero 8 := ⟨by decide⟩

instance columns_neZero : NeZero 16 := ⟨by decide⟩

/-- The selected page and column, and the character shown by each cell. -/
structure Lcd where
  page : Fin 8
  column : Fin 16
  cell : Fin 8 → Fin 16 → Char

namespace Lcd

/-- The display once `ssd1306_clear_display` has run: every cell a blank, position (0,0). -/
def cleared : Lcd := ⟨0, 0, fun _ _ => ' '⟩

def setPosition (lcd : Lcd) (column : Fin 16) (row : Fin 8) : Lcd :=
  { lcd with page := row, column := column }

/-- The character whose font entry is drawn: a blank outside 32 to 127. -/
def glyph (c : Char) : Char := if c.toNat < 32 ∨ 127 < c.toNat then ' ' else c

def putc (lcd : Lcd) (c : Char) : Lcd :=
  { lcd with
    column := lcd.column + 1
    cell := Function.update lcd.cell lcd.page
      (Function.update (lcd.cell lcd.page) lcd.column (glyph c)) }

def puts (lcd : Lcd) (str : List Char) : Lcd := str.foldl putc lcd

def line (lcd : Lcd) (row : Fin 8) : List Char := List.ofFn (lcd.cell row)

def Shows (lcd : Lcd) (row : Fin 8) (text : List Char) : Prop := text <+: lcd.line row

instance (lcd : Lcd) (row : Fin 8) (text : List Char) : Decidable (lcd.Shows row text) :=
  inferInstanceAs (Decidable (_ <+: _))

section Lines

variable (lcd : Lcd) (row : Fin 8)

@[simp] theorem length_line : (lcd.line row).length = 16 := by simp [line]

@[simp] theorem setPosition_page (column : Fin 16) : (lcd.setPosition column row).page = row := rfl

@[simp] theorem setPosition_column (column : Fin 16) :
    (lcd.setPosition column row).column = column := rfl

@[simp] theorem setPosition_line (column : Fin 16) (row' : Fin 8) :
    (lcd.setPosition column row).line row' = lcd.line row' := rfl

@[simp] theorem puts_nil : lcd.puts [] = lcd := rfl

@[simp] theorem puts_cons (c : Char) (s : List Char) :
    lcd.puts (c :: s) = (lcd.putc c).puts s := rfl

theorem puts_line_other {row : Fin 8} (s : List Char) (h : row ≠ lcd.page) :
    (lcd.puts s).line row = lcd.line row := by
  induction s generalizing lcd with
  | nil => rfl
  | cons c s ih =>
    rw [puts_cons, ih (lcd.putc c) h]
    simp [line, putc, Function.update_of_ne h]

theorem putc_line (c : Char) :
    (lcd.putc c).line lcd.page = (lcd.line lcd.page).set lcd.column (glyph c) := by
  apply List.ext_getElem (by simp)
  intro i hi _
  simp only [line, putc, Function.update_self, List.getElem_ofFn, List.getElem_set]
  by_cases h : lcd.column.val = i
  · subst h; simp
  · have hne : (⟨i, by simpa using hi⟩ : Fin 16) ≠ lcd.column := fun he => h (by rw [← he])
    simp [h, Function.update_of_ne hne]

theorem puts_line (s : List Char) (h : lcd.column.val + s.length ≤ 16) :
    (lcd.puts s).line lcd.page = (lcd.line lcd.page).take lcd.column ++
      (s.map glyph ++ (lcd.line lcd.page).drop (lcd.column.val + s.length)) := by
  induction s generalizing lcd with
  | nil => simp
  | cons c s ih =>
    have hlen : (lcd.line lcd.page).length = 16 := length_line ..
    have hrest : ((lcd.putc c).puts s).line lcd.page =
        ((lcd.putc c).line lcd.page).take (lcd.column.val + 1) ++
          (s.map glyph ++ ((lcd.putc c).line lcd.page).drop (lcd.column.val + 1 + s.length)) := by
      cases s with
      | nil => simp
      | cons c' s =>
        -- another character follows, so the column has not wrapped
        have hnext : (lcd.putc c).column.val = lcd.column.val + 1 := by
          simp only [List.length_cons] at h
          simp only [putc, Fin.val_add, Fin.val_one]
          omega
        have := ih (lcd.putc c) (by simp only [List.length_cons] at h ⊢; omega)
        rwa [hnext] at this
    rw [puts_cons, hrest, putc_line, List.take_succ_eq_append_getElem (by simp),
      List.take_set_of_le (le_refl _), List.drop_set_of_lt (by omega)]
    simp [Nat.add_assoc, Nat.add_comm s.length 1]

/-- Writing a text at the start of a page shows it there, and keeps what stood behind it. -/
theorem setPosition_puts_line (s : List Char) (h : s.length ≤ 16) :
    ((lcd.setPosition 0 row).puts s).line row = s.map glyph ++ (lcd.line row).drop s.length := by
  have hp := (lcd.setPosition 0 row).puts_line s (by simpa using h)
  simpa using hp

theorem setPosition_puts_line_other {row' : Fin 8} (s : List Char) (h : row' ≠ row) :
    ((lcd.setPosition 0 row).puts s).line row' = lcd.line row' :=
  (lcd.setPosition 0 row).puts_line_other s h

end Lines

end Lcd

end CSEL1
