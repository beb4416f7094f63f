import CSEL1.Daemon.DisplayLock
import CSEL1.Display.Controller
import CSEL1.Display.LatestText

/-! # The cells and the memory of the controller

The display as cells of characters is what the controller's memory shows: each cell
holds the eight bytes of its character. The transfers of the daemon's calls keep this,
so what is known about the lines is known about the bytes.
-/

namespace CSEL1

open CText Transition

/-- Each cell shows its character. -/
def Controller.Renders (c : Controller) (lcd : Lcd) : Prop :=
  ∀ (p : Fin 8) (i : Fin 16) (k : ℕ), k < 8 → ∀ q : Fin 128, q.val = 8 * i.val + k →
    c.mem p q = (Ssd1306.glyphBytes (lcd.cell p i).toUInt8).getD k 0

def LcdCall.transfers (signed : Bool) : LcdCall → List Transfer
  | .header => lcdWriteHeader signed
  | .mode v => lcdWriteMode signed v
  | .freq v _ => lcdWriteFreq signed v
  | .temp v _ => lcdWriteTemp signed v

namespace Lcd

variable {s : List Char} {ch : Char}

theorem bounds_of_map_glyph (hg : s.map glyph = s) (hc : ch ∈ s) :
    32 ≤ ch.toNat ∧ ch.toNat ≤ 127 := by
  have hid : s.map glyph = s.map id := by rw [hg, List.map_id]
  have hch : glyph ch = ch := List.map_inj_left.mp hid ch hc
  unfold glyph at hch
  split at hch
  · rw [← hch]
    decide
  · omega

theorem zero_notMem_bytes (hg : s.map glyph = s) : 0 ∉ bytes s := by
  intro h0
  obtain ⟨ch, hch, heq⟩ := List.mem_map.mp h0
  have hmod : ch.toNat % 256 = 0 := congrArg UInt8.toNat heq
  have := bounds_of_map_glyph hg hch
  omega

theorem setPosition_puts_cell (lcd : Lcd) {row : Fin 8} (hs : s.length ≤ 16)
    (hg : s.map glyph = s) (p : Fin 8) (i : Fin 16) :
    ((lcd.setPosition 0 row).puts s).cell p i =
      if p = row then (s[i.val]?).getD (lcd.cell p i) else lcd.cell p i := by
  have hcell : ∀ lcd' : Lcd, (lcd'.line p)[i.val]? = some (lcd'.cell p i) := by
    intro lcd'
    have hi : i.val < (lcd'.line p).length := i.isLt.trans_eq (lcd'.length_line p).symm
    rw [List.getElem?_eq_getElem hi]
    simp only [line, List.getElem_ofFn]
  refine Option.some.inj ((hcell _).symm.trans ?_)
  split_ifs with hp
  · subst hp
    rw [lcd.setPosition_puts_line p s hs, hg]
    rcases Nat.lt_or_ge i.val s.length with hlt | hge
    · rw [List.getElem?_append_left hlt, List.getElem?_eq_getElem hlt, Option.getD_some]
    · rw [List.getElem?_append_right hge, List.getElem?_drop, Nat.add_sub_cancel' hge, hcell,
        List.getElem?_eq_none hge, Option.getD_none]
  · rw [lcd.setPosition_puts_line_other row s hp, hcell]

end Lcd

section Rendering

variable {c : Controller} {lcd : Lcd} {s : List Char} (signed : Bool)

theorem renders_cleared (c : Controller) :
    (run Controller.receive c (Ssd1306.init signed)).Renders Lcd.cleared := by
  intro p i k hk q _
  have hblank : ∀ k < 8, (Ssd1306.glyphBytes ' '.toUInt8).getD k 0 = 0 := by decide
  rw [Ssd1306.init, run_append, Ssd1306.clearDisplay_mem]
  exact (hblank k hk).symm

theorem renders_write (h : c.Renders lcd) (row : Fin 8) (hs : s.length ≤ 16)
    (hg : s.map Lcd.glyph = s) :
    (run Controller.receive c
      (Ssd1306.setPosition 0 row.val.toUInt32 ++ Ssd1306.puts signed (bytes s))).Renders
        ((lcd.setPosition 0 row).puts s) := by
  have hrow : row.val.toUInt32.toNat = row.val :=
    UInt32.toNat_ofNat_of_lt' (row.isLt.trans (by decide))
  have hcol : (0 : UInt32).toNat < 16 := by decide
  have hlen : (bytes s).length = s.length := List.length_map _
  have hdrawn := Ssd1306.rendered_of_fits c signed hcol (hrow.trans_lt row.isLt)
    (Lcd.zero_notMem_bytes hg) (by rw [hlen]; simpa using hs)
  rw [hrow] at hdrawn
  intro p i k hk q hq
  rw [lcd.setPosition_puts_cell hs hg]
  by_cases hin : p = row ∧ i.val < s.length
  · obtain ⟨rfl, hi⟩ := hin
    rw [if_pos rfl, List.getElem?_eq_getElem hi, Option.getD_some]
    have hi' : i.val < (bytes s).length := hi.trans_eq hlen.symm
    have hget : (bytes s)[i.val] = (s[i.val]).toUInt8 := List.getElem_map _
    rw [← hget]
    exact hdrawn.drawn i.val hi' k hk p q rfl (by simpa using hq)
  · have hsame : (if p = row then (s[i.val]?).getD (lcd.cell p i) else lcd.cell p i) =
        lcd.cell p i := by
      split_ifs with hp
      · have hge : s.length ≤ i.val := Nat.not_lt.mp fun hlt => hin ⟨hp, hlt⟩
        rw [List.getElem?_eq_none hge, Option.getD_none]
      · rfl
    rw [hsame, hdrawn.others p q]
    · exact h p i k hk q hq
    · rintro ⟨hp, -, hlt⟩
      rw [hlen] at hlt
      simp only [UInt32.toNat_zero, Nat.zero_add] at hlt
      exact hin ⟨Fin.ext hp, by omega⟩

theorem renders_header (h : c.Renders lcd) :
    (run Controller.receive c (lcdWriteHeader signed)).Renders lcd.writeHeader := by
  have hfits : ∀ t ∈ headerTexts, t.2.length ≤ 16 ∧ t.2.map Lcd.glyph = t.2 := by decide +kernel
  unfold lcdWriteHeader Lcd.writeHeader
  generalize headerTexts = ts at hfits ⊢
  induction ts generalizing c lcd with
  | nil => exact h
  | cons t ts ih =>
    obtain ⟨hs, hg⟩ := hfits t List.mem_cons_self
    rw [List.flatMap_cons, run_append, List.foldl_cons]
    exact ih (renders_write signed h t.1 hs hg) fun t' ht' => hfits t' (List.mem_cons_of_mem t ht')

/-- The transfers of a call render what the call writes. -/
theorem renders_call (h : c.Renders lcd) (call : LcdCall) :
    (run Controller.receive c (call.transfers signed)).Renders (lcd.call call) := by
  cases call with
  | header => exact renders_header signed h
  | mode mode =>
    have hs : (modeText mode).length ≤ 16 := (Lcd.length_modeText mode).trans_le (by decide)
    exact renders_write signed h 3 hs (Lcd.map_glyph_modeText mode)
  | freq freq fits =>
    have hs : (freqText freq).length ≤ 16 := fits.le.trans (by decide)
    exact renders_write signed h 4 hs (Lcd.map_glyph_freqText freq)
  | temp temp fits =>
    have hs : (tempText temp).length ≤ 16 := fits.le.trans (by decide)
    exact renders_write signed h 5 hs (Lcd.map_glyph_tempText temp)

/-- After the start and any calls the controller's memory shows the cells of the display. -/
theorem renders_run (c : Controller) (calls : List LcdCall) :
    (run Controller.receive c (Ssd1306.init signed ++ calls.flatMap (·.transfers signed))).Renders
      (run Lcd.call Lcd.cleared calls) := by
  have hstart := renders_cleared signed c
  rw [run_append]
  generalize run Controller.receive c (Ssd1306.init signed) = c' at hstart ⊢
  generalize Lcd.cleared = lcd at hstart ⊢
  induction calls generalizing c' lcd with
  | nil => exact hstart
  | cons call calls ih =>
    rw [List.flatMap_cons, run_append]
    exact ih _ _ (renders_call signed hstart call)

end Rendering

end CSEL1
