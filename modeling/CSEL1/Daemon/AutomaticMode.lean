import CSEL1.Daemon.Control

/-! # Automatic mode is left alone

The driver takes a frequency in either mode. That none is written in automatic
mode is due to the daemon, whose copy of the mode is nonzero exactly in manual
mode, whatever integers the clients have sent.
-/

namespace CSEL1

open CText Transition

/-- The copy of the mode tells the driver's, and no frequency was stored in automatic mode. -/
structure Control.Guarded (c : Control) : Prop where
  mode_iff : c.driver.mode = true ↔ c.curMode ≠ 0
  stores_manual : ∀ mode ∈ c.stores, mode = true

section Requests

variable {c : Control}

theorem guarded_apply (h : c.Guarded) (r : Request) : (c.apply .ok r).Guarded := by
  obtain ⟨hmode, hstores⟩ := h
  cases r with
  | setFreq freq =>
    simp only [Control.apply]
    split
    · next hr =>
      -- a frequency is only written when the copy is 1
      have hmanual : c.driver.mode = true := hmode.mpr (by rw [hr.1]; decide)
      refine ⟨hmode, fun mode hmem => ?_⟩
      rcases List.mem_cons.mp hmem with rfl | hmem
      · exact hmanual
      · exact hstores mode hmem
    · exact ⟨hmode, hstores⟩
  | setMode mode => exact ⟨bne_iff_ne, hstores⟩
  | callback read =>
    exact ⟨by simpa only [Control.apply, Driver.timerCallback_mode] using hmode, hstores⟩
  | idle => exact ⟨hmode, hstores⟩
  | refresh => exact ⟨hmode, hstores⟩
  | publish opened => exact ⟨hmode, hstores⟩

theorem freq_apply_auto (h : c.Guarded) (hauto : c.driver.mode = false) {r : Request}
    (hr : ∀ temp, r ≠ .callback (.ok temp)) : (c.apply .ok r).driver.freq = c.driver.freq := by
  cases r with
  | setFreq freq =>
    refine congrArg (fun c : Control => c.driver.freq) (if_neg fun hreaches => ?_)
    have hmanual : c.driver.mode = true := h.mode_iff.mpr (by rw [hreaches.1]; decide)
    rw [hauto] at hmanual
    exact Bool.noConfusion hmanual
  | callback read =>
    cases read with
    | ok temp => exact absurd rfl (hr temp)
    | error code =>
      simp only [Control.apply, Driver.timerCallback_error]
      rfl
  | idle => rfl
  | setMode mode => rfl
  | refresh => rfl
  | publish opened => rfl

end Requests

namespace System

section Runs

variable {s : System} {es : List Event}

theorem mem_stores_iff {mode : Bool} :
    mode ∈ s.control.stores ↔ ∃ text, Action.storeFreq mode text ∈ s.log := by
  simp only [control, List.mem_filterMap]
  constructor
  · rintro ⟨a, ha, heq⟩
    cases a <;> simp only [Action.freqStore?, reduceCtorEq, Option.some.injEq] at heq
    exact ⟨_, heq ▸ ha⟩
  · rintro ⟨text, htext⟩
    exact ⟨_, htext, rfl⟩

theorem guarded_step (e : Event) (h : s.control.Guarded) : (s.step .ok e).control.Guarded := by
  rw [control_step]
  exact guarded_apply h _

theorem guarded_start (d : Driver) (locals : Locals) : (start .ok d locals).control.Guarded := by
  rw [control_start, getMode_ok]
  refine ⟨?_, by simp⟩
  cases d.mode <;> simp

theorem guarded_run (d : Driver) (locals : Locals) (es : List Event) :
    (run (step .ok) (start .ok d locals) es).control.Guarded :=
  run_invariant (I := fun s : System => s.control.Guarded) (fun _ e h => guarded_step e h)
    (guarded_start d locals) es

/-- While the mode stays automatic and no temperature is read, the frequency stays. -/
theorem freq_run_auto (h : s.control.Guarded)
    (hauto : Always (step .ok) (fun s => s.driver.mode = false) s es)
    (hes : ∀ temp, .callback (.ok temp) ∉ es) :
    (run (step .ok) s es).driver.freq = s.driver.freq := by
  induction es generalizing s with
  | nil => rfl
  | cons e es ih =>
    have hrequest : ∀ temp, s.request .ok e ≠ .callback (.ok temp) := by
      intro temp hr
      exact hes temp (request_eq_callback_iff.mp hr ▸ List.mem_cons_self)
    have hfirst : (s.step .ok e).driver.freq = s.driver.freq := by
      rw [step_driver]
      exact freq_apply_auto h hauto.head hrequest
    rw [run_cons, ih (guarded_step e h) hauto.2 fun temp hmem =>
      hes temp (List.mem_cons_of_mem e hmem), hfirst]

/--
The daemon stores a frequency in manual mode only. So once automatic mode has read a temperature,
the frequency is the one for that temperature until the next reading or until the mode changes.
-/
theorem automatic_mode_undisturbed (d : Driver) (locals : Locals) (es : List Event) :
    (∀ mode text, .storeFreq mode text ∈ (run (step .ok) (start .ok d locals) es).log →
      mode = true) ∧
    ∀ (temp : Int32) (es' : List Event),
      let s := run (step .ok) (start .ok d locals) es
      s.driver.mode = false →
      Always (step .ok) (fun s => s.driver.mode = false) (s.step .ok (.callback (.ok temp))) es' →
      (∀ temp', .callback (.ok temp') ∉ es') →
      (run (step .ok) s (.callback (.ok temp) :: es')).driver.freq =
        if temp < 35000 then 2 else if temp < 40000 then 5
        else if temp < 45000 then 10 else 20 := by
  have hguarded := guarded_run d locals es
  constructor
  · intro mode text hmem
    exact hguarded.stores_manual mode (mem_stores_iff.mpr ⟨text, hmem⟩)
  · intro temp es' s hmode hauto hes'
    have hread : (s.step .ok (.callback (.ok temp))).driver.freq = Driver.autoFreq temp :=
      congrArg Driver.freq (s.driver.timerCallback_ok hmode temp)
    rw [run_cons, freq_run_auto (guarded_step _ hguarded) hauto hes', hread]
    rfl

theorem automatic_mode_undisturbed_refresh :
    (run (step .ok) (start .ok Driver.loaded default)
      [.publish true, .callback (.ok 36000), .handler .freq, .handler (.k1 49)]).driver.freq = 5 :=
  (automatic_mode_undisturbed Driver.loaded default [.publish true]).2 36000
    [.handler .freq, .handler (.k1 49)] (by decide) (by decide)
    (by simp)

end Runs

end System

end CSEL1
