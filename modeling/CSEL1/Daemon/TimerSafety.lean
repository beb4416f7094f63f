import CSEL1.Daemon.Control

/-! # The division in the timer callback

The driver divides by its frequency each time the timer fires. The frequency is
written by the thermostat, by a client and by the buttons. Which writes keep it
between 1 and 1000 is decided step by step.
-/

namespace CSEL1

open CText Transition

structure Driver.TimerSafe (d : Driver) : Prop where
  one_le_freq : 1 ≤ d.freq
  freq_le : d.freq ≤ 1000
  not_divByZero : d.divByZero = false
  one_le_delay : 1 ≤ d.delay

instance (d : Driver) : Decidable d.TimerSafe :=
  decidable_of_iff (1 ≤ d.freq ∧ d.freq ≤ 1000 ∧ d.divByZero = false ∧ 1 ≤ d.delay)
    ⟨fun ⟨h₁, h₂, h₃, h₄⟩ => ⟨h₁, h₂, h₃, h₄⟩, fun ⟨h₁, h₂, h₃, h₄⟩ => ⟨h₁, h₂, h₃, h₄⟩⟩

section Callback

theorem one_le_div {freq : Int32} (h : 1 ≤ freq) (h' : freq ≤ 1000) : 1 ≤ 1000 / freq := by
  have hne : (1000 : Int32) ≠ Int32.minValue := by decide
  have hone : (1 : Int32).toInt = 1 := rfl
  have hthousand : (1000 : Int32).toInt = 1000 := rfl
  rw [Int32.le_iff_toInt_le] at h h' ⊢
  rw [Int32.toInt_div_of_ne_left _ _ hne]
  rw [hone] at h ⊢
  rw [hthousand] at h' ⊢
  rw [Int.tdiv_eq_ediv_of_nonneg (by omega)]
  exact (Int.le_ediv_iff_mul_le (by omega)).mpr (by omega)

theorem timerSafe_timerCallback {d : Driver} (h : d.TimerSafe) (read : ThermalRead) :
    (d.timerCallback read).TimerSafe := by
  obtain ⟨hpos, hle, hdiv, hdelay⟩ := h
  have hfreq : 1 ≤ (d.timerCallback read).freq ∧ (d.timerCallback read).freq ≤ 1000 := by
    cases hmode : d.mode with
    | true =>
      rw [d.timerCallback_manual hmode]
      exact ⟨hpos, hle⟩
    | false =>
      cases read with
      | error code =>
        rw [Driver.timerCallback_error]
        exact ⟨hpos, hle⟩
      | ok temp =>
        rw [d.timerCallback_ok hmode]
        change 1 ≤ Driver.autoFreq temp ∧ Driver.autoFreq temp ≤ 1000
        rcases Driver.autoFreq_cases temp with h | h | h | h <;> rw [h] <;> decide
  refine ⟨hfreq.1, hfreq.2, ?_, ?_⟩
  · have hne : d.freq ≠ 0 := by grind
    simp [hdiv, hne]
  · rw [Driver.timerCallback_delay]
    exact one_le_div hpos hle

end Callback

section Requests

variable {c : Control}

theorem timerSafe_apply_iff (h : c.driver.TimerSafe) (r : Request) :
    (c.apply .ok r).driver.TimerSafe ↔
      ∀ freq, r = .setFreq freq → c.FreqReaches .ok → 1 ≤ freq ∧ freq ≤ 1000 := by
  cases r with
  | setFreq freq =>
    simp only [Control.apply, Request.setFreq.injEq, forall_eq']
    split
    · next hr =>
      constructor
      · intro hs _
        exact ⟨hs.one_le_freq, hs.freq_le⟩
      · intro hf
        obtain ⟨hpos, hle⟩ := hf hr
        exact ⟨hpos, hle, h.not_divByZero, h.one_le_delay⟩
    · next hr => exact ⟨fun _ hr' => absurd hr' hr, fun _ => h⟩
  | setMode mode =>
    refine ⟨fun _ _ h => Request.noConfusion h, fun _ => ?_⟩
    simp only [Control.apply]
    split
    · exact ⟨h.one_le_freq, h.freq_le, h.not_divByZero, h.one_le_delay⟩
    · exact h
  | callback read =>
    refine ⟨fun _ _ h => Request.noConfusion h, fun _ => ?_⟩
    exact timerSafe_timerCallback h read
  | idle => exact ⟨fun _ _ h => Request.noConfusion h, fun _ => h⟩
  | refresh => exact ⟨fun _ _ h => Request.noConfusion h, fun _ => h⟩
  | publish opened => exact ⟨fun _ _ h => Request.noConfusion h, fun _ => h⟩

theorem curFreq_apply (c : Control) (r : Request) :
    (c.apply .ok r).curFreq = c.curFreq ∨ (c.apply .ok r).curFreq = c.driver.freq := by
  cases r with
  | refresh => exact .inr rfl
  | setFreq freq =>
    simp only [Control.apply]
    split <;> exact .inl rfl
  | _ => exact .inl rfl

end Requests

namespace System

/-- What an event writes to `freq`, if anything, is between 1 and 1000. -/
def FrequencySafe (s : System) : Event → Prop
  | .message m =>
    ∀ freq, s.Receives m .setfreq freq → s.daemon.curMode = 1 → 1 ≤ freq ∧ freq ≤ 1000
  | .handler (.k1 gpio) => Pressed .ok gpio → s.daemon.curMode = 1 → s.daemon.curFreq ≤ 950
  | .handler (.k2 gpio) => Pressed .ok gpio → s.daemon.curMode = 1 → s.daemon.curFreq ≠ 1
  | _ => True

/-- The daemon's copy of the frequency is one the driver has had. -/
structure CopySafe (s : System) : Prop where
  one_le_curFreq : 1 ≤ s.daemon.curFreq
  curFreq_le : s.daemon.curFreq ≤ 1000
  freqFd_eq : s.daemon.freqFd = .attribute

section Steps

variable {s : System}

theorem copySafe_step (e : Event) (h : s.driver.TimerSafe) (hc : s.CopySafe) :
    (s.step .ok e).CopySafe := by
  obtain ⟨hpos, hle, hattr⟩ := hc
  have hcopy : (s.step .ok e).daemon.curFreq = s.daemon.curFreq ∨
      (s.step .ok e).daemon.curFreq = s.driver.freq := by
    rw [step_curFreq]
    exact curFreq_apply s.control _
  constructor
  · rcases hcopy with hcopy | hcopy <;> rw [hcopy]
    · exact hpos
    · exact h.one_le_freq
  · rcases hcopy with hcopy | hcopy <;> rw [hcopy]
    · exact hle
    · exact h.freq_le
  · exact freqFd_step hattr e

theorem frequencySafe_iff (e : Event) (hc : s.CopySafe) :
    s.FrequencySafe e ↔ ∀ freq, s.request .ok e = .setFreq freq → s.daemon.curMode = 1 →
      1 ≤ freq ∧ freq ≤ 1000 := by
  obtain ⟨hpos, hle, hattr⟩ := hc
  have hdispatched : ∀ h : Handler, h.Dispatched s := by
    intro h
    simp [Handler.Dispatched, hattr]
  cases e with
  | message m => simp only [FrequencySafe, request, messageRequest_eq_setFreq_iff]
  | publish opened =>
    simp only [FrequencySafe, request, true_iff]
    intro freq hr
    split at hr <;> exact Request.noConfusion hr
  | callback read => exact ⟨fun _ _ h => Request.noConfusion h, fun _ => trivial⟩
  | handler h =>
    simp only [request, if_pos (hdispatched h)]
    cases h with
    | k1 gpio =>
      have hinc : (1 ≤ incFreq s.daemon.curFreq ∧ incFreq s.daemon.curFreq ≤ 1000) ↔
          s.daemon.curFreq ≤ 950 := by
        unfold incFreq
        split_ifs <;> grind
      by_cases hp : Pressed .ok gpio <;> simp [FrequencySafe, handlerRequest, hp, hinc]
    | k2 gpio =>
      have hdec : (1 ≤ decFreq s.daemon.curFreq ∧ decFreq s.daemon.curFreq ≤ 1000) ↔
          s.daemon.curFreq ≠ 1 := by
        unfold decFreq
        split_ifs <;> grind
      have hlt : 0 < s.daemon.curFreq := by grind
      by_cases hp : Pressed .ok gpio <;> simp [FrequencySafe, handlerRequest, hp, hlt, hdec]
    | k3 gpio =>
      simp only [FrequencySafe, handlerRequest, true_iff]
      intro freq hr
      split at hr <;> exact Request.noConfusion hr
    | freq => exact ⟨fun _ _ h => Request.noConfusion h, fun _ => trivial⟩
    | cpuTemp read => exact ⟨fun _ _ h => Request.noConfusion h, fun _ => trivial⟩
    | timer => exact ⟨fun _ _ h => Request.noConfusion h, fun _ => trivial⟩

/-- One event keeps the timer safe exactly if the frequency it writes is in range. -/
theorem timerSafe_step_iff (e : Event) (h : s.driver.TimerSafe) (hc : s.CopySafe) :
    (s.step .ok e).driver.TimerSafe ↔ s.FrequencySafe e := by
  rw [step_driver, timerSafe_apply_iff (c := s.control) h, frequencySafe_iff e hc]
  have hreaches : s.control.FreqReaches .ok ↔ s.daemon.curMode = 1 := by
    simp [Control.FreqReaches, control, hc.freqFd_eq, Io.ok]
  simp only [hreaches]

end Steps

section Runs

variable (locals : Locals)

theorem copySafe_ready : (ready locals).CopySafe := by
  have h := control_ready locals
  have hfreq : (ready locals).daemon.curFreq = 2 := congrArg Control.curFreq h
  have hfd : (ready locals).daemon.freqFd = .attribute := congrArg Control.freqFd h
  constructor
  · rw [hfreq]; decide
  · rw [hfreq]; decide
  · exact hfd

theorem timerSafe_ready : (ready locals).driver.TimerSafe := by
  have hdriver : (ready locals).driver = Driver.loaded :=
    congrArg Control.driver (control_ready locals)
  rw [hdriver]
  decide

/--
From start-up on, the frequency stays between 1 and 1000 and the timer's delay at least a
millisecond exactly as long as no event writes a frequency out of range: a client's frequency in
manual mode, a press of K1 above 950, a press of K2 at 1.
-/
theorem always_timerSafe_iff (es : List Event) :
    Always (step .ok) (fun s => s.driver.TimerSafe) (ready locals) es ↔
      Along (step .ok) FrequencySafe (ready locals) es :=
  always_iff_along (J := CopySafe) (fun _ e h hc => copySafe_step e h hc)
    (fun _ e h hc => timerSafe_step_iff e h hc) (timerSafe_ready locals) (copySafe_ready locals)

/-- After K3, K2, a refresh and K2 again, the callback divides by zero. -/
theorem presses_divide_by_zero :
    let es := [.handler (.k3 49), .handler (.k2 49), .handler .freq, .handler (.k2 49)]
    ¬ Always (step .ok) (fun s => s.driver.TimerSafe) (ready default) es ∧
      ((run (step .ok) (ready default) es).step .ok (.callback (.ok 42564))).driver.divByZero =
        true := by
  decide

end Runs

end System

end CSEL1
