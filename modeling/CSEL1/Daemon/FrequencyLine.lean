import CSEL1.Daemon.FrequencyPath
import CSEL1.Daemon.Ladders

/-! # The frequency line and its buffer

The frequency line is printed into an array that has room for three digits. Nothing
bounds the ladder, so the line fits exactly as long as K1 is not pressed at its last
rung of three digits or above.
-/

namespace CSEL1

open CText Transition

inductive KeyPress
  | freq (p : Press)
  | mode (gpio : UInt8) (pressed : Pressed .ok gpio)

def KeyPress.handler : KeyPress → Handler
  | .freq p => p.handler
  | .mode gpio _ => .k3 gpio

namespace System

def keyRefreshed (s : System) (k : KeyPress) : System :=
  (s.step .ok (.handler k.handler)).step .ok (.handler .freq)

/-- The frequency line and its terminator fit `freq_str[15]`. -/
def LineFits (s : System) : Prop := (freqText s.daemon.curFreq).length + 1 ≤ 15

instance (s : System) : Decidable s.LineFits := inferInstanceAs (Decidable (_ ≤ _))

/-- K1 is not pressed in manual mode at 950 Hz or above. -/
def BelowTop (s : System) : KeyPress → Prop
  | .freq (.k1 _ _) => s.daemon.curMode = 1 → s.daemon.curFreq < 950
  | _ => True

def pressedFreq (s : System) : KeyPress → Int32
  | .freq (.k1 _ _) =>
    if s.daemon.curMode = 1 then incFreq s.daemon.curFreq else s.driver.freq
  | .freq (.k2 _ _) =>
    if s.daemon.curMode = 1 ∧ 0 < s.daemon.curFreq then decFreq s.daemon.curFreq
    else s.driver.freq
  | .mode _ _ => s.driver.freq

structure FreqKnown (s : System) : Prop where
  freqFd_eq : s.daemon.freqFd = .attribute
  nonneg : 0 ≤ s.daemon.curFreq.toInt
  copied : s.daemon.curFreq = s.driver.freq ∨ s.driver.freq = 2

section Line

variable {s : System}

theorem lineFits_iff :
    s.LineFits ↔ -100 < s.daemon.curFreq.toInt ∧ s.daemon.curFreq.toInt < 1000 := by
  have hiff := length_decimal_le_iff (v := s.daemon.curFreq.toInt) (k := 2) (by decide)
  have hlen : s.LineFits ↔ (decimal s.daemon.curFreq.toInt).length ≤ 2 + 1 := by
    rw [LineFits, Lcd.length_freqText]
    omega
  exact hlen.trans hiff

theorem request_handler (h : s.daemon.freqFd = .attribute) (hd : Handler) :
    s.request .ok (.handler hd) = s.handlerRequest .ok hd :=
  if_pos ⟨by simp [h], fun _ => h⟩

theorem step_key_freq (h : s.daemon.freqFd = .attribute) (k : KeyPress) :
    (s.step .ok (.handler k.handler)).driver.freq = s.pressedFreq k := by
  rw [step_driver, request_handler h]
  rcases k with (⟨gpio, hp⟩ | ⟨gpio, hp⟩) | ⟨gpio, hp⟩
  · simp only [KeyPress.handler, Press.handler, handlerRequest, if_pos hp, pressedFreq]
    by_cases hmode : s.daemon.curMode = 1
    · have hreach : s.control.FreqReaches .ok := ⟨hmode, h, rfl⟩
      simp [Control.apply, hreach, hmode]
    · rw [control_setFreq_auto .ok s _ hmode, if_neg hmode]
      rfl
  · simp only [KeyPress.handler, Press.handler, handlerRequest, hp, true_and, pressedFreq]
    by_cases hpos : 0 < s.daemon.curFreq
    · rw [if_pos hpos]
      by_cases hmode : s.daemon.curMode = 1
      · have hreach : s.control.FreqReaches .ok := ⟨hmode, h, rfl⟩
        simp [Control.apply, hreach, hmode, hpos]
      · rw [control_setFreq_auto .ok s _ hmode, if_neg fun hc => hmode hc.1]
        rfl
    · rw [if_neg hpos, if_neg fun hc => hpos hc.2]
      rfl
  · simp only [KeyPress.handler, handlerRequest, if_pos hp, Control.apply, pressedFreq]
    split <;> rfl

theorem keyRefreshed_freqFd (h : s.daemon.freqFd = .attribute) (k : KeyPress) :
    (s.keyRefreshed k).daemon.freqFd = .attribute := freqFd_step (freqFd_step h _) _

theorem keyRefreshed_freq (h : s.daemon.freqFd = .attribute) (k : KeyPress) :
    (s.keyRefreshed k).driver.freq = s.pressedFreq k := by
  have hfd : (s.step .ok (.handler k.handler)).daemon.freqFd = .attribute := freqFd_step h _
  rw [keyRefreshed, step_driver, request_handler hfd]
  exact step_key_freq h k

theorem keyRefreshed_curFreq (h : s.daemon.freqFd = .attribute) (k : KeyPress) :
    (s.keyRefreshed k).daemon.curFreq = s.pressedFreq k := by
  have hfd : (s.step .ok (.handler k.handler)).daemon.freqFd = .attribute := freqFd_step h _
  rw [keyRefreshed, step_curFreq, request_handler hfd]
  exact step_key_freq h k

theorem FreqKnown.freq_bounds (h : s.FreqKnown) (hfits : s.LineFits) :
    0 ≤ s.driver.freq.toInt ∧ s.driver.freq.toInt < 1000 := by
  rcases h.copied with hcopy | hcopy
  · rw [← hcopy]
    exact ⟨h.nonneg, (lineFits_iff.mp hfits).2⟩
  · rw [hcopy]
    decide

/-- The line fits after a press exactly if it does not climb from the top of the ladder. -/
theorem lineFits_keyRefreshed_iff (hfits : s.LineFits) (h : s.FreqKnown) (k : KeyPress) :
    (s.keyRefreshed k).LineFits ↔ s.BelowTop k := by
  obtain ⟨-, hlt⟩ := lineFits_iff.mp hfits
  have hfreq : -100 < s.driver.freq.toInt ∧ s.driver.freq.toInt < 1000 := by
    have := h.freq_bounds hfits
    omega
  obtain ⟨hfd, hnonneg, -⟩ := h
  have h950 : s.daemon.curFreq < 950 ↔ s.daemon.curFreq.toInt < 950 := Int32.lt_iff_toInt_lt
  rw [lineFits_iff, keyRefreshed_curFreq hfd]
  rcases k with (⟨gpio, hp⟩ | ⟨gpio, hp⟩) | ⟨gpio, hp⟩
  · simp only [pressedFreq, BelowTop, h950]
    split
    · next hmode =>
      rw [toInt_incFreq (by omega)]
      simp only [hmode, true_imp_iff]
      split_ifs <;> omega
    · next hmode => exact iff_of_true hfreq fun hmode' => absurd hmode' hmode
  · simp only [pressedFreq, BelowTop, iff_true]
    split
    · rw [toInt_decFreq hnonneg]
      split_ifs <;> omega
    · exact hfreq
  · exact iff_of_true hfreq trivial

theorem freqKnown_keyRefreshed (hfits : s.LineFits) (h : s.FreqKnown) (k : KeyPress) :
    (s.keyRefreshed k).FreqKnown := by
  have hcur := keyRefreshed_curFreq h.freqFd_eq k
  have hsame := hcur.trans (keyRefreshed_freq h.freqFd_eq k).symm
  refine ⟨keyRefreshed_freqFd h.freqFd_eq k, ?_, .inl hsame⟩
  obtain ⟨-, hlt⟩ := lineFits_iff.mp hfits
  obtain ⟨hfreq, -⟩ := h.freq_bounds hfits
  obtain ⟨-, hnonneg, -⟩ := h
  have hpos : 0 < s.daemon.curFreq ↔ 0 < s.daemon.curFreq.toInt := Int32.lt_iff_toInt_lt
  rw [hcur]
  rcases k with (⟨gpio, hp⟩ | ⟨gpio, hp⟩) | ⟨gpio, hp⟩
  · simp only [pressedFreq]
    split
    · rw [toInt_incFreq (by omega)]
      split_ifs <;> omega
    · exact hfreq
  · simp only [pressedFreq, hpos]
    split
    · next hc =>
      rw [toInt_decFreq hnonneg]
      split_ifs <;> omega
    · exact hfreq
  · exact hfreq

/--
Over presses of the buttons the frequency line fits its array exactly as long as K1 is not pressed
in manual mode at 950 Hz or above.
-/
theorem line_fits_iff_below_top (hfd : s.daemon.freqFd = .attribute) (hfreq : s.driver.freq = 2)
    (hcopy : s.daemon.curFreq = 0 ∨ s.daemon.curFreq = 2) (ks : List KeyPress) :
    Always keyRefreshed LineFits s ks ↔ Along keyRefreshed BelowTop s ks := by
  have hsmall : 0 ≤ s.daemon.curFreq.toInt ∧ s.daemon.curFreq.toInt < 1000 := by
    rcases hcopy with hcopy | hcopy <;> rw [hcopy] <;> decide
  have hfits : s.LineFits := lineFits_iff.mpr ⟨by omega, hsmall.2⟩
  exact always_iff_along (fun _ k hs h => freqKnown_keyRefreshed hs h k)
    (fun _ k hs h => lineFits_keyRefreshed_iff hs h k) hfits ⟨hfd, hsmall.1, .inr hfreq⟩

theorem line_fits_k3_k1 :
    let ks : List KeyPress := [.mode 49 (by decide), .freq (.k1 49 (by decide))]
    Always keyRefreshed LineFits (ready default) ks := by
  intro ks
  have hiff := line_fits_iff_below_top (s := ready default) (by decide) (by decide)
    (.inr (by decide)) ks
  exact hiff.mpr ⟨trivial, fun _ => by decide, trivial⟩

theorem onRung_climb {n : ℕ} (k : ℕ) (gpio : UInt8) (hp : Pressed .ok gpio) (h : s.OnRung n)
    (hall : Always keyRefreshed LineFits s (List.replicate k (.freq (.k1 gpio hp)))) :
    (run keyRefreshed s (List.replicate k (.freq (.k1 gpio hp)))).OnRung (n + k) := by
  induction k generalizing s n with
  | zero => exact h
  | succ k ih =>
    rw [List.replicate_succ] at hall ⊢
    have hfits : s.Fits (.k1 gpio hp) := by
      have := (lineFits_iff.mp hall.1).2
      simp only [Fits]
      omega
    obtain ⟨m, hm, hnext⟩ := onRung_pressRefreshed h (.k1 gpio hp) hfits
    have hm' : m = n + 1 := by
      have := hnext trivial
      simp only [Press.change] at this
      omega
    subst hm'
    rw [run_cons, show n + (k + 1) = n + 1 + k by omega]
    exact ih hm hall.2

/-- A press of K3 and 37 of K1 lead to 1000 Hz, a digit too many. -/
theorem frequency_line_overruns :
    ¬ ∀ ks : List KeyPress, Always keyRefreshed LineFits (ready default) ks := by
  intro hall
  have hrun := (hall (.mode 49 (by decide) :: List.replicate 37 (.freq (.k1 49 (by decide))))).2
  have hstart : ((ready default).keyRefreshed (.mode 49 (by decide))).OnRung 2 :=
    ⟨⟨by decide, by decide⟩, by decide, by decide⟩
  have hend := onRung_climb 37 49 (by decide) hstart hrun
  have htop := (lineFits_iff.mp hrun.last).2
  rw [hend.copied, hend.freq_eq] at htop
  exact absurd htop (by decide)

end Line

end System

end CSEL1
