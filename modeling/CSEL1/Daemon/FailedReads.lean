import CSEL1.Daemon.FailedWrites

/-! # Failed reads of the handlers

A handler parses its buffer whether or not the read has filled it. A failed read
leaves zeros in the two text buffers, which is a frequency or a temperature of
zero, and the initial `-1` in the byte of a button, which is a press.
-/

namespace CSEL1

open CText Transition

/-- The read of a handler fails, be it in the daemon or in the driver's attribute. -/
def Handler.ReadFails (io : Io) : Handler → Prop
  | .cpuTemp read => io.pread = false ∨ Driver.tempCpuShow read = none
  | .timer => False
  | _ => io.pread = false

namespace System

structure Unchanged (s t : System) : Prop where
  curFreq : t.daemon.curFreq = s.daemon.curFreq
  curCpuTemp : t.daemon.curCpuTemp = s.daemon.curCpuTemp
  curMode : t.daemon.curMode = s.daemon.curMode
  driver : t.driver = s.driver
  lcd : t.lcd.line = s.lcd.line
  log : t.log = s.log

def ReadHonest (s : System) (x : Io × Event) : Prop :=
  ∀ h, x.2 = .handler h → h.Dispatched s → h.ReadFails x.1 → s.Unchanged (s.stepIo x)

/-- What a failed read stands for is there already: a zero, stored and shown, but no press. -/
def ReadSafe (s : System) (x : Io × Event) : Prop :=
  ∀ h, x.2 = .handler h → h.Dispatched s → h.ReadFails x.1 →
    match h with
    | .freq => s.daemon.curFreq = 0 ∧ s.lcd.Shows 4 (freqText 0)
    | .cpuTemp _ => s.daemon.curCpuTemp = 0 ∧ s.lcd.Shows 5 (tempText 0)
    | _ => False

section Steps

variable {s : System} {io : Io}

theorem freqHandler_unchanged_iff (h : io.pread = false) :
    s.Unchanged (s.freqHandler io) ↔ s.daemon.curFreq = 0 ∧ s.lcd.Shows 4 (freqText 0) := by
  have hdaemon : (s.freqHandler io).daemon = { s.daemon with curFreq := 0 } := by
    rw [freqHandler_daemon, h]
    rfl
  have hlcd : (s.freqHandler io).lcd = s.lcd.writeFreq 0 := by
    rw [freqHandler_lcd, h]
    rfl
  have hshow : (s.lcd.writeFreq 0).line = s.lcd.line ↔ s.lcd.Shows 4 (freqText 0) :=
    s.lcd.writeFreq_line_eq_iff (by decide)
  constructor
  · intro hu
    have hfreq := hu.curFreq
    rw [hdaemon] at hfreq
    exact ⟨hfreq.symm, hshow.mp (hlcd ▸ hu.lcd)⟩
  · rintro ⟨hfreq, hshown⟩
    exact ⟨by rw [hdaemon, hfreq], by rw [hdaemon], by rw [hdaemon], freqHandler_driver io s,
      by rw [hlcd, hshow.mpr hshown], freqHandler_log io s⟩

theorem cpuTempHandler_failed {read : ThermalRead} (h : (Handler.cpuTemp read).ReadFails io) :
    (s.cpuTempHandler io read).daemon = { s.daemon with curCpuTemp := 0 } ∧
      (s.cpuTempHandler io read).lcd = s.lcd.writeTemp 0 := by
  have hbuffer : (if io.pread then
      (Driver.tempCpuShow read).elim (Buffer.fill 7 '\x00') (Buffer.fill 7 '\x00').pread
      else Buffer.fill 7 '\x00') = Buffer.fill 7 '\x00' := by
    rcases h with h | h
    · rw [h]
      rfl
    · rw [h]
      split <;> rfl
  have hzero : atoi (Buffer.fill 7 '\x00').chars = 0 := by decide
  constructor
  · simp only [cpuTempHandler, hbuffer, hzero, lcdWriteTemp_daemon, check_daemon]
  · simp only [cpuTempHandler, hbuffer, hzero, lcdWriteTemp_lcd, check_lcd]

theorem cpuTempHandler_unchanged_iff {read : ThermalRead}
    (h : (Handler.cpuTemp read).ReadFails io) : s.Unchanged (s.cpuTempHandler io read) ↔
      s.daemon.curCpuTemp = 0 ∧ s.lcd.Shows 5 (tempText 0) := by
  obtain ⟨hdaemon, hlcd⟩ := cpuTempHandler_failed (s := s) h
  have hshow : (s.lcd.writeTemp 0).line = s.lcd.line ↔ s.lcd.Shows 5 (tempText 0) :=
    s.lcd.writeTemp_line_eq_iff (by decide)
  constructor
  · intro hu
    have htemp := hu.curCpuTemp
    rw [hdaemon] at htemp
    exact ⟨htemp.symm, hshow.mp (hlcd ▸ hu.lcd)⟩
  · rintro ⟨htemp, hshown⟩
    exact ⟨by rw [hdaemon], by rw [hdaemon, htemp], by rw [hdaemon],
      cpuTempHandler_driver io read s, by rw [hlcd, hshow.mpr hshown],
      cpuTempHandler_log io read s⟩

/-- The byte that no read has replaced counts as a press. -/
theorem pressed_of_failed (h : io.pread = false) (gpio : UInt8) : Pressed io gpio := by
  have hbyte : (if io.pread then gpio else 255) = 255 := if_neg (by rw [h]; decide)
  unfold Pressed
  rw [hbyte]
  decide

theorem pressed_mem_log {key : Key} {gpio : UInt8} {action : System → System}
    (h : io.pread = false) (haction : ∀ s, s.log <:+ (action s).log) :
    Action.pressed key :: s.log <:+ (s.buttonHandler key io gpio action).log := by
  rw [buttonHandler_of_pressed io s (pressed_of_failed h gpio)]
  exact haction (s.press key)

theorem log_suffix_setFreq (freq : Int32) : s.log <:+ (s.setFreq io freq).log := by
  rw [setFreq_log]
  split
  · exact List.suffix_cons _ _
  · exact List.suffix_rfl

theorem log_suffix_incrementFreq : s.log <:+ (s.incrementFreq io).log := by
  rw [incrementFreq_eq]
  split
  · exact log_suffix_setFreq _
  · exact List.suffix_cons _ _

theorem log_suffix_decrementFreq : s.log <:+ (s.decrementFreq io).log := by
  rw [decrementFreq_eq]
  split_ifs
  · exact log_suffix_setFreq _
  · exact List.suffix_rfl
  · exact List.suffix_cons _ _

theorem log_suffix_toggleMode : s.log <:+ (s.toggleMode io).log := by
  rw [toggleMode, lcdWriteMode_log, setMode_log]
  split
  · exact List.suffix_cons _ _
  · exact List.suffix_rfl

theorem not_unchanged_of_press {key : Key} {t : System}
    (h : Action.pressed key :: s.log <:+ t.log) : ¬ s.Unchanged t := by
  intro hu
  have hlen := h.length_le
  rw [hu.log, List.length_cons] at hlen
  omega

/-- A failed read is harmless exactly if the zero it stands for is already there. -/
theorem readHonest_iff (x : Io × Event) : s.ReadHonest x ↔ s.ReadSafe x := by
  obtain ⟨io, e⟩ := x
  refine forall_congr' fun h => forall_congr' fun he => forall_congr' fun hd =>
    forall_congr' fun hf => ?_
  have he : e = .handler h := he
  subst he
  have hstep : s.stepIo (io, .handler h) = h.run io s := if_pos hd
  rw [hstep]
  cases h with
  | freq => exact freqHandler_unchanged_iff hf
  | cpuTemp read => exact cpuTempHandler_unchanged_iff hf
  | timer => exact hf.elim
  | k1 gpio =>
    exact iff_of_false
      (not_unchanged_of_press (pressed_mem_log hf fun _ => log_suffix_incrementFreq)) id
  | k2 gpio =>
    exact iff_of_false
      (not_unchanged_of_press (pressed_mem_log hf fun _ => log_suffix_decrementFreq)) id
  | k3 gpio =>
    exact iff_of_false
      (not_unchanged_of_press (pressed_mem_log hf fun _ => log_suffix_toggleMode)) id

end Steps

section Runs

/--
From every start, failed reads change nothing exactly as long as they fail for a frequency or a
temperature that is zero and shown so, and for no button.
-/
theorem along_readHonest_iff (io : Io) (d : Driver) (locals : Locals) (xs : List (Io × Event)) :
    Along stepIo ReadHonest (start io d locals) xs ↔
      Along stepIo ReadSafe (start io d locals) xs :=
  along_iff_along (I := fun _ => True) (fun _ x _ => readHonest_iff x) (fun _ _ _ _ => trivial)
    trivial

/-- A failed read of K3 toggles the mode. -/
theorem failed_read_toggles :
    ¬ Along stepIo ReadHonest (start .ok Driver.loaded default)
      [(.ok, .publish true), (⟨true, true, true, false⟩, .handler (.k3 48))] := by
  rintro ⟨-, h, -⟩
  have hmode := (h (.k3 48) rfl (by decide) rfl).curMode
  revert hmode
  decide

end Runs

end System

end CSEL1
