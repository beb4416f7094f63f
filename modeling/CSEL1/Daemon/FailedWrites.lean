import CSEL1.Daemon.Control

/-! # Failed writes to the driver

The daemon updates its copy of the mode and the display, and answers a client,
without looking at the result of its writes. What it keeps and reports is what
the driver has only where a write succeeds, or would have changed nothing.
-/

namespace CSEL1

open CText Transition

namespace System

def stepIo (s : System) (x : Io × Event) : System := s.step x.1 x.2

/-- Nothing is recorded or reported as done that did not reach the driver. -/
structure WriteHonest (s : System) (x : Io × Event) : Prop where
  failedMode : ∀ mode, s.request x.1 x.2 = .setMode mode → ¬ x.1.ModeReaches →
    (s.stepIo x).daemon.curMode = s.daemon.curMode ∧ (s.stepIo x).lcd.line 3 = s.lcd.line 3
  failedFreq : ∀ freq, s.request x.1 x.2 = .setFreq freq → ¬ s.FreqReaches x.1 →
    (s.stepIo x).daemon.curMode = s.daemon.curMode ∧ (s.stepIo x).lcd.line 3 = s.lcd.line 3
  replied : ∀ m freq, x.2 = .message m → s.Receives m .setfreq freq →
    (s.stepIo x).log.head? = some (.reply Reply.ok) →
    s.FreqReaches x.1 ∧ (s.stepIo x).driver.freq = freq
  agreed : ∀ mode, s.request x.1 x.2 = .setMode mode →
    (s.stepIo x).daemon.curMode = if (s.stepIo x).driver.mode then 1 else 0

def WriteSafe (s : System) (x : Io × Event) : Prop :=
  match x.2 with
  | .message m =>
    (∀ freq, s.Receives m .setfreq freq → s.daemon.curMode = 1 → s.FreqReaches x.1) ∧
    ∀ mode, s.Receives m .setmode mode →
      if x.1.ModeReaches then mode = 0 ∨ mode = 1
      else mode = s.daemon.curMode ∧ mode = if s.driver.mode then 1 else 0
  | .handler (.k3 gpio) =>
    (Handler.k3 gpio).Dispatched s → Pressed x.1 gpio → x.1.ModeReaches
  | _ => True

section Steps

variable {s : System} {io : Io}

theorem step_setfreq {m : Msg} {freq : Int32} (h : s.Receives m .setfreq freq) :
    (s.step io (.message m)).log.head? =
      some (.reply (if s.daemon.curMode = 1 then Reply.ok else Reply.auto)) := by
  have hword : word? (s.receive m).daemon.locals.command = some .setfreq :=
    word?_eq_some_iff.mpr h.command
  have hmode : (s.receive m).daemon.curMode = s.daemon.curMode := rfl
  simp only [step, h.running, handle, if_neg h.nonempty, dispatch_eq, hword, hmode,
    Bool.false_eq_true, if_false]
  by_cases h1 : s.daemon.curMode = 1
  · simp only [if_pos h1]
    rfl
  · simp only [if_neg h1]
    rfl

theorem control_mode_kept_iff {c : Control} {mode : Int32} (hline : c.LineShown) :
    ((c.apply io (.setMode mode)).curMode = c.curMode ∧
        (c.apply io (.setMode mode)).modeLine = c.modeLine) ↔ mode = c.curMode := by
  simp only [Control.apply]
  constructor
  · exact fun h => h.1
  · rintro rfl
    obtain ⟨rest, hrest⟩ := hline
    refine ⟨rfl, ?_⟩
    rw [← hrest, ← Lcd.length_modeText c.curMode, List.drop_left]

theorem control_mode_agreed (c : Control) (mode : Int32) :
    (c.apply io (.setMode mode)).curMode =
        (if (c.apply io (.setMode mode)).driver.mode then 1 else 0) ↔
      if io.ModeReaches then mode = 0 ∨ mode = 1
      else mode = if c.driver.mode then 1 else 0 := by
  simp only [Control.apply]
  split
  · by_cases h : mode = 0 <;> simp [h]
  · rfl

theorem mode_honest_iff {e : Event} {mode : Int32} (hr : s.request io e = .setMode mode)
    (hline : s.control.LineShown) : s.WriteHonest (io, e) ↔
      if io.ModeReaches then mode = 0 ∨ mode = 1
      else mode = s.daemon.curMode ∧ mode = if s.driver.mode then 1 else 0 := by
  have hagreed : (s.stepIo (io, e)).daemon.curMode =
      (if (s.stepIo (io, e)).driver.mode then 1 else 0) ↔
        if io.ModeReaches then mode = 0 ∨ mode = 1
        else mode = if s.driver.mode then 1 else 0 := by
    simp only [stepIo, step_curMode, step_driver, hr]
    exact control_mode_agreed s.control mode
  have hkept : ((s.stepIo (io, e)).daemon.curMode = s.daemon.curMode ∧
      (s.stepIo (io, e)).lcd.line 3 = s.lcd.line 3) ↔ mode = s.daemon.curMode := by
    simp only [stepIo, step_curMode, step_modeLine, hr]
    exact control_mode_kept_iff hline
  constructor
  · intro h
    have hagree := hagreed.mp (h.agreed mode hr)
    split
    · next hio => rwa [if_pos hio] at hagree
    · next hio =>
      rw [if_neg hio] at hagree
      exact ⟨hkept.mp (h.failedMode mode hr hio), hagree⟩
  · intro h
    refine ⟨fun mode' _ hio => ?_, fun freq hr' => ?_, fun m freq he hm => ?_, fun mode' _ => ?_⟩
    · rw [if_neg hio] at h
      exact hkept.mpr h.1
    · exact Request.noConfusion (hr.symm.trans hr')
    · have hm := messageRequest_eq_setFreq_iff.mpr hm
      have he : e = .message m := he
      rw [he] at hr
      exact Request.noConfusion (hm.symm.trans hr)
    · refine hagreed.mpr ?_
      split
      · next hio => rwa [if_pos hio] at h
      · next hio =>
        rw [if_neg hio] at h
        exact h.2

theorem freq_reached {m : Msg} {freq : Int32} (hm : s.Receives m .setfreq freq)
    (hmode : s.daemon.curMode = 1) (hreach : s.FreqReaches io) :
    (s.step io (.message m)).driver.freq = freq := by
  have hr : s.request io (.message m) = .setFreq freq := messageRequest_eq_setFreq_iff.mpr hm
  have hc : s.control.FreqReaches io := ⟨hmode, hreach⟩
  rw [step_driver, hr, Control.apply, if_pos hc]

theorem freq_honest_iff {e : Event} (hr : ∀ mode, s.request io e ≠ .setMode mode) :
    s.WriteHonest (io, e) ↔ ∀ m freq, e = .message m → s.Receives m .setfreq freq →
      s.daemon.curMode = 1 → s.FreqReaches io := by
  constructor
  · rintro h m freq rfl hm hmode
    refine (h.replied m freq rfl hm ?_).1
    rw [stepIo, step_setfreq hm, if_pos hmode]
  · intro h
    refine ⟨fun mode hr' => absurd hr' (hr mode), fun _ _ _ => ?_, fun m freq he hm hlog => ?_,
      fun mode hr' => absurd hr' (hr mode)⟩
    · rw [stepIo, step_curMode, step_modeLine]
      exact s.control.apply_mode io hr
    · have he : e = .message m := he
      subst he
      have hmode : s.daemon.curMode = 1 := by
        by_contra hne
        rw [stepIo, step_setfreq hm, if_neg hne] at hlog
        exact absurd hlog (by decide)
      have hreach := h m freq rfl hm hmode
      exact ⟨hreach, freq_reached hm hmode hreach⟩

theorem message_honest_iff (m : Msg) (hline : s.control.LineShown) :
    s.WriteHonest (io, .message m) ↔ s.WriteSafe (io, .message m) := by
  by_cases hr : ∃ mode, s.Receives m .setmode mode
  · obtain ⟨mode, hm⟩ := hr
    have hreq : s.request io (.message m) = .setMode mode := messageRequest_eq_setMode_iff.mpr hm
    rw [mode_honest_iff hreq hline]
    constructor
    · intro h
      refine ⟨fun freq hf => Word.noConfusion (hm.unique hf).1, fun mode' hm' => ?_⟩
      rwa [← (hm.unique hm').2]
    · exact fun h => h.2 mode hm
  · push Not at hr
    have hreq : ∀ mode, s.request io (.message m) ≠ .setMode mode := fun mode h =>
      hr mode (messageRequest_eq_setMode_iff.mp h)
    rw [freq_honest_iff hreq]
    constructor
    · intro h
      exact ⟨fun freq hf => h m freq rfl hf, fun mode hm => absurd hm (hr mode)⟩
    · rintro h m' freq ⟨⟩ hf
      exact h.1 freq hf

theorem handler_honest {h : Handler} (hr : ∀ mode, s.request io (.handler h) ≠ .setMode mode) :
    s.WriteHonest (io, .handler h) :=
  (freq_honest_iff hr).mpr fun _ _ he => Event.noConfusion he

/-- A failed write of K3 is never harmless: the toggled mode is not the old one. -/
theorem toggle_honest_iff (gpio : UInt8) (hline : s.control.LineShown) :
    s.WriteHonest (io, .handler (.k3 gpio)) ↔ s.WriteSafe (io, .handler (.k3 gpio)) := by
  by_cases hd : (Handler.k3 gpio).Dispatched s
  · by_cases hp : Pressed io gpio
    · have hr : s.request io (.handler (.k3 gpio)) =
          .setMode (if s.daemon.curMode = 0 then 1 else 0) := by
        simp only [request, if_pos hd, handlerRequest, if_pos hp]
      rw [mode_honest_iff hr hline]
      have hsafe : s.WriteSafe (io, .handler (.k3 gpio)) ↔ io.ModeReaches :=
        ⟨fun h => h hd hp, fun h _ _ => h⟩
      rw [hsafe]
      by_cases h0 : s.daemon.curMode = 0
      · simp [h0]
      · simp [h0, Ne.symm h0]
    · refine iff_of_true (handler_honest fun mode => ?_) fun _ h => absurd h hp
      simp [request, hd, handlerRequest, hp]
  · refine iff_of_true (handler_honest fun mode => ?_) fun h => absurd h hd
    simp [request, hd]

/-- One event is handled honestly exactly if its write succeeds or changes nothing. -/
theorem writeHonest_iff (x : Io × Event) (hline : s.control.LineShown) :
    s.WriteHonest x ↔ s.WriteSafe x := by
  obtain ⟨io, e⟩ := x
  cases e with
  | message m => exact message_honest_iff m hline
  | publish opened =>
    refine iff_of_true ((freq_honest_iff fun mode => ?_).mpr fun _ _ he => Event.noConfusion he)
      trivial
    simp only [request]
    split <;> simp
  | callback read =>
    refine iff_of_true ((freq_honest_iff fun mode => ?_).mpr fun _ _ he => Event.noConfusion he)
      trivial
    simp [request]
  | handler h =>
    cases h with
    | k3 gpio => exact toggle_honest_iff gpio hline
    | _ =>
      refine iff_of_true (handler_honest fun mode => ?_) trivial
      simp only [request, handlerRequest]
      (repeat' split) <;> simp

end Steps

section Runs

variable (io : Io) (d : Driver) (locals : Locals)

/--
From every start, nothing is recorded or reported as done that did not reach the driver, exactly as
long as the writes succeed or set the mode that is set already.
-/
theorem along_writeHonest_iff (xs : List (Io × Event)) :
    Along stepIo WriteHonest (start io d locals) xs ↔
      Along stepIo WriteSafe (start io d locals) xs := by
  refine along_iff_along (I := fun s : System => s.control.LineShown)
    (fun s x hline => writeHonest_iff x hline) (fun s x hline _ => ?_)
    (lineShown_start d locals io)
  rw [stepIo, control_step]
  exact hline.apply _

/--
An `OK` before the descriptors are published, and a toggle that cannot open the attribute: neither
value reaches the driver.
-/
theorem lost_writes_reported :
    ¬ Along stepIo WriteHonest (start .ok Driver.loaded default)
        [(.ok, .message (Word.setmode.send 1 (Buffer.fill 100 ' '))),
          (.ok, .message (Word.setfreq.send 5 (Buffer.fill 100 ' ')))] ∧
      ¬ Along stepIo WriteHonest (start .ok Driver.loaded default)
        [(.ok, .publish true), (⟨false, true, true, true⟩, .handler (.k3 49))] := by
  constructor
  · rintro ⟨-, h, -⟩
    have hreplied := h.replied _ 5 rfl ⟨by decide, by decide, by decide, by decide⟩ (by decide)
    revert hreplied
    decide
  · rintro ⟨-, h, -⟩
    have hfailed := h.failedMode 1 (by decide) (by decide)
    revert hfailed
    decide

end Runs

end System

end CSEL1
