import CSEL1.Display.Lines
import CSEL1.Transition.Basic

/-! # The latest text of each line

What the display is for: each line shows the text last written to it and nothing
else. A text covers the cells it needs, so a line keeps the end of an older text
unless the new one is at least as long.
-/

namespace CSEL1

open CText Transition

/-- A call of the daemon that writes on the display. The printed texts fit their arrays. -/
inductive LcdCall
  | header
  | mode (mode : Int32)
  | freq (freq : Int32) (fits : (freqText freq).length < 15)
  | temp (temp : Int32) (fits : (tempText temp).length < 15)

abbrev Screen := Fin 8 → List Char

namespace Screen

def blank : Screen := fun _ => []

def call (screen : Screen) : LcdCall → Screen
  | .header => headerTexts.foldl (fun screen t => Function.update screen t.1 t.2) screen
  | .mode mode => Function.update screen 3 (modeText mode)
  | .freq freq _ => Function.update screen 4 (freqText freq)
  | .temp temp _ => Function.update screen 5 (tempText temp)

def NotShorter (screen : Screen) : LcdCall → Prop
  | .freq freq _ => (screen 4).length ≤ (freqText freq).length
  | .temp temp _ => (screen 5).length ≤ (tempText temp).length
  | _ => True

instance (screen : Screen) : (c : LcdCall) → Decidable (screen.NotShorter c)
  | .header | .mode _ => inferInstanceAs (Decidable True)
  | .freq _ _ | .temp _ _ => inferInstanceAs (Decidable (_ ≤ _))

/-- Every line holds one of its texts, or none yet. -/
structure Texts (screen : Screen) : Prop where
  header : ∀ t ∈ headerTexts, (screen t.1).length ≤ t.2.length
  mode : (screen 3).length ≤ 12
  freq : screen 4 = [] ∨ ∃ freq, screen 4 = freqText freq
  temp : screen 5 = [] ∨ ∃ temp, screen 5 = tempText temp

end Screen

namespace Lcd

def call (lcd : Lcd) : LcdCall → Lcd
  | .header => lcd.writeHeader
  | .mode mode => lcd.writeMode mode
  | .freq freq _ => lcd.writeFreq freq
  | .temp temp _ => lcd.writeTemp temp

def Displays (lcd : Lcd) (screen : Screen) : Prop :=
  ∀ row, lcd.line row = (screen row).rightpad 16 ' '

section Writes

variable {lcd : Lcd} {screen : Screen} {row : Fin 8} {s : List Char}

theorem displays_cleared : cleared.Displays Screen.blank := by
  intro row
  exact List.ofFn_const 16 ' '

theorem displays_write (h : lcd.Displays screen) (hs : s.length ≤ 16) (hg : s.map glyph = s)
    (hlen : (screen row).length ≤ s.length) :
    ((lcd.setPosition 0 row).puts s).Displays (Function.update screen row s) := by
  intro row'
  by_cases hrow : row' = row
  · subst hrow
    have hdrop : ((screen row').rightpad 16 ' ').drop s.length =
        List.replicate (16 - s.length) ' ' := by
      rw [List.rightpad, List.drop_append, List.drop_of_length_le hlen, List.nil_append,
        List.drop_replicate]
      congr 1
      omega
    rw [lcd.setPosition_puts_line row' s hs, h row', hg, hdrop, Function.update_self]
    rfl
  · rw [lcd.setPosition_puts_line_other row s hrow, h row', Function.update_of_ne hrow]

theorem not_displays_write (h : lcd.Displays screen) (hs : s.length ≤ 16)
    (hg : s.map glyph = s) (hlast : ∀ c ∈ (screen row).getLast?, c ≠ ' ')
    (hlen : s.length < (screen row).length) :
    ¬ ((lcd.setPosition 0 row).puts s).Displays (Function.update screen row s) := by
  intro hshown
  have hne : screen row ≠ [] := by
    intro hnil
    rw [hnil] at hlen
    exact absurd hlen (Nat.not_lt_zero _)
  have hrow := hshown row
  rw [lcd.setPosition_puts_line row s hs, h row, hg, Function.update_self, List.rightpad,
    List.rightpad, List.append_cancel_left_eq, List.drop_append_of_le_length hlen.le] at hrow
  have hmem : (screen row).getLast hne ∈ List.replicate (16 - s.length) ' ' := by
    rw [← hrow]
    refine List.mem_append_left _ ?_
    rw [← List.getLast_drop (by simpa using hlen)]
    exact List.getLast_mem _
  exact hlast _ (List.getLast?_eq_some_getLast hne ▸ rfl) (List.eq_of_mem_replicate hmem)

/-- Over a text without blanks at its end: the new text is not shorter. -/
theorem displays_write_iff (h : lcd.Displays screen) (hs : s.length ≤ 16) (hg : s.map glyph = s)
    (hlast : ∀ c ∈ (screen row).getLast?, c ≠ ' ') :
    ((lcd.setPosition 0 row).puts s).Displays (Function.update screen row s) ↔
      (screen row).length ≤ s.length := by
  constructor
  · intro hshown
    exact Nat.not_lt.mp fun hlt => not_displays_write h hs hg hlast hlt hshown
  · exact displays_write h hs hg

theorem displays_foldl {ts : List (Fin 8 × List Char)} (h : lcd.Displays screen)
    (hrows : (ts.map Prod.fst).Nodup)
    (hts : ∀ t ∈ ts, t.2.length ≤ 16 ∧ t.2.map glyph = t.2)
    (hlen : ∀ t ∈ ts, (screen t.1).length ≤ t.2.length) :
    (ts.foldl (fun lcd t => (lcd.setPosition 0 t.1).puts t.2) lcd).Displays
      (ts.foldl (fun screen t => Function.update screen t.1 t.2) screen) := by
  induction ts generalizing lcd screen with
  | nil => exact h
  | cons t ts ih =>
    obtain ⟨hrow, hrows⟩ := List.nodup_cons.mp hrows
    obtain ⟨hs, hg⟩ := hts t List.mem_cons_self
    refine ih (displays_write h hs hg (hlen t List.mem_cons_self)) hrows
      (fun t' ht' => hts t' (List.mem_cons_of_mem t ht')) fun t' ht' => ?_
    have hne : t'.1 ≠ t.1 := fun heq => hrow (heq ▸ List.mem_map_of_mem ht')
    simp only [Function.update_of_ne hne]
    exact hlen t' (List.mem_cons_of_mem t ht')

end Writes

end Lcd

namespace Screen

section Texts

variable {screen : Screen}

theorem foldl_update_of_notMem {ts : List (Fin 8 × List Char)} {row : Fin 8}
    (h : row ∉ ts.map Prod.fst) :
    ts.foldl (fun screen t => Function.update screen t.1 t.2) screen row = screen row := by
  induction ts generalizing screen with
  | nil => rfl
  | cons t ts ih =>
    obtain ⟨hrow, hrest⟩ := not_or.mp fun hmem => h (List.mem_cons.mpr hmem)
    rw [List.foldl_cons, ih hrest, Function.update_of_ne hrow]

theorem foldl_update_of_mem {ts : List (Fin 8 × List Char)} (hrows : (ts.map Prod.fst).Nodup)
    {t : Fin 8 × List Char} (ht : t ∈ ts) :
    ts.foldl (fun screen t => Function.update screen t.1 t.2) screen t.1 = t.2 := by
  induction ts generalizing screen with
  | nil => exact absurd ht List.not_mem_nil
  | cons t' ts ih =>
    obtain ⟨hrow, hrows⟩ := List.nodup_cons.mp hrows
    rcases List.mem_cons.mp ht with rfl | ht
    · rw [List.foldl_cons, foldl_update_of_notMem hrow, Function.update_self]
    · exact ih hrows ht

theorem nodup_headerTexts : (headerTexts.map Prod.fst).Nodup := by decide

theorem header_row_lt {t : Fin 8 × List Char} (h : t ∈ headerTexts) : t.1 < 3 := by
  revert t
  decide

theorem texts_blank : Texts blank := ⟨fun _ _ => Nat.zero_le _, Nat.zero_le _, .inl rfl, .inl rfl⟩

theorem texts_call (h : screen.Texts) (c : LcdCall) : (screen.call c).Texts := by
  have hother : ∀ {row : Fin 8} (s : List Char), 3 ≤ row → ∀ t ∈ headerTexts,
      (Function.update screen row s t.1).length ≤ t.2.length := by
    intro row s hrow t ht
    have hne : t.1 ≠ row := ((header_row_lt ht).trans_le hrow).ne
    rw [Function.update_of_ne hne]
    exact h.header t ht
  obtain ⟨hheader, hmode, hfreq, htemp⟩ := h
  cases c with
  | header =>
    have hrow : ∀ row : Fin 8, row ∉ headerTexts.map Prod.fst →
        screen.call .header row = screen row := fun row => foldl_update_of_notMem
    refine ⟨fun t ht => ?_, ?_, ?_, ?_⟩
    · rw [call, foldl_update_of_mem nodup_headerTexts ht]
    · rwa [hrow 3 (by decide)]
    · rwa [hrow 4 (by decide)]
    · rwa [hrow 5 (by decide)]
  | mode mode =>
    refine ⟨hother _ (le_refl _), ?_, hfreq, htemp⟩
    rw [call, Function.update_self, Lcd.length_modeText]
  | freq freq fits => exact ⟨hother _ (by decide), hmode, .inr ⟨freq, rfl⟩, htemp⟩
  | temp temp fits => exact ⟨hother _ (by decide), hmode, hfreq, .inr ⟨temp, rfl⟩⟩

theorem Texts.getLast?_freq (h : screen.Texts) : ∀ c ∈ (screen 4).getLast?, c ≠ ' ' := by
  intro c hc
  rcases h.freq with hnil | ⟨freq, hfreq⟩
  · rw [hnil] at hc
    exact absurd hc (Option.not_mem_none _)
  · have hlast : (freqText freq).getLast? = some ']' := by
      have hne : freqSuffix ≠ [] := by decide
      rw [freqText, List.getLast?_append_of_ne_nil _ (by simp),
        List.getLast?_append_of_ne_nil _ hne]
      decide
    rw [hfreq, hlast] at hc
    cases hc
    decide

theorem Texts.getLast?_temp (h : screen.Texts) : ∀ c ∈ (screen 5).getLast?, c ≠ ' ' := by
  intro c hc
  rcases h.temp with hnil | ⟨temp, htemp⟩
  · rw [hnil] at hc
    exact absurd hc (Option.not_mem_none _)
  · rw [htemp, tempText, List.getLast?_append_of_ne_nil _ (decimal_ne_nil _)] at hc
    rcases mem_decimal (List.mem_of_getLast? hc) with rfl | hdigit
    · decide
    · rintro rfl
      exact absurd hdigit (by decide)

end Texts

end Screen

section Runs

variable {lcd : Lcd} {screen : Screen}

/-- The lines show their texts after a call exactly if the call prints no shorter text. -/
theorem displays_call_iff (h : lcd.Displays screen) (ht : screen.Texts) (c : LcdCall) :
    (lcd.call c).Displays (screen.call c) ↔ screen.NotShorter c := by
  cases c with
  | header =>
    simp only [Lcd.call, Lcd.writeHeader, Screen.call, Screen.NotShorter, iff_true]
    exact Lcd.displays_foldl h Screen.nodup_headerTexts (by decide +kernel) ht.header
  | mode mode =>
    simp only [Lcd.call, Lcd.writeMode, Screen.call, Screen.NotShorter, iff_true]
    have hlen := Lcd.length_modeText mode
    exact Lcd.displays_write h (by omega) (Lcd.map_glyph_modeText mode) (hlen ▸ ht.mode)
  | freq freq fits =>
    simp only [Lcd.call, Lcd.writeFreq, Screen.call, Screen.NotShorter]
    exact Lcd.displays_write_iff h (by omega) (Lcd.map_glyph_freqText freq) ht.getLast?_freq
  | temp temp fits =>
    simp only [Lcd.call, Lcd.writeTemp, Screen.call, Screen.NotShorter]
    exact Lcd.displays_write_iff h (by omega) (Lcd.map_glyph_tempText temp) ht.getLast?_temp

/--
After every call the lines show exactly their latest texts if and only if no frequency and no
temperature is printed shorter than the one before it.
-/
theorem latest_text_iff (cs : List LcdCall) :
    Always (both Lcd.call Screen.call) (fun x => x.1.Displays x.2) (Lcd.cleared, Screen.blank) cs ↔
      Along Screen.call Screen.NotShorter Screen.blank cs := by
  have hruns : Always (both Lcd.call Screen.call) (fun x => x.1.Displays x.2)
      (Lcd.cleared, Screen.blank) cs ↔ Along (both Lcd.call Screen.call)
        (fun x c => x.2.NotShorter c) (Lcd.cleared, Screen.blank) cs :=
    always_iff_along (J := fun x => x.2.Texts) (fun _ c _ ht => Screen.texts_call ht c)
      (fun _ c h ht => displays_call_iff h ht c) Lcd.displays_cleared Screen.texts_blank
  rw [hruns, along_both_right]

/-- The line of 2 Hz keeps the end of the line of 100 Hz. -/
theorem older_text_remains : ¬ ∀ cs : List LcdCall, Always (both Lcd.call Screen.call)
    (fun x => x.1.Displays x.2) (Lcd.cleared, Screen.blank) cs := by
  intro hall
  have hruns := hall [.freq 100 (by decide), .freq 2 (by decide)]
  have htexts := Screen.texts_call Screen.texts_blank (.freq 100 (by decide))
  have hshort := (displays_call_iff hruns.2.1 htexts (.freq 2 (by decide))).mp hruns.last
  exact absurd hshort (by decide)

end Runs


end CSEL1
