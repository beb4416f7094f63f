import CSEL1.Daemon.Events

/-! # A temperature read and shown

The driver prints the temperature with a newline, the daemon reads that text into
`buffer`, scans it and prints it again behind a prefix. The first array has room for
every temperature of six characters, the last one for four only, and the unit is the
millidegree.
-/

namespace CSEL1

open CText

namespace System

/-- `cpu_temp_handler` up to the assignment of `cur_cpu_temp`. -/
def readTemp (io : Io) (read : ThermalRead) (s : System) : System :=
  let buffer := Buffer.fill 7 '\x00'
  let buffer := if io.pread then (Driver.tempCpuShow read).elim buffer buffer.pread else buffer
  let s := s.check (afterNumeral buffer.chars ≠ [])
  { s with daemon := { s.daemon with curCpuTemp := atoi buffer.chars } }

theorem cpuTempHandler_eq (io : Io) (read : ThermalRead) (s : System) :
    s.cpuTempHandler io read = (s.readTemp io read).lcdWriteTemp := rfl

/-- A temperature reaches the daemon's copy and the display, all inside the arrays. -/
structure TempShown (s : System) (t : Int32) : Prop where
  copied : (s.cpuTempHandler .ok (.ok t)).daemon.curCpuTemp = t
  scanned : (s.readTemp .ok (.ok t)).overrun = false
  printed : ((s.readTemp .ok (.ok t)).lcdWriteTemp).overrun = false

section Path

variable {s : System} {t : Int32}

theorem lcdWriteTemp_overrun (s : System) : s.lcdWriteTemp.overrun =
    (s.overrun || !decide ((decimal s.daemon.curCpuTemp.toInt).length < 5)) := by
  have hlen : (tempText s.daemon.curCpuTemp).length < 15 ↔
      (decimal s.daemon.curCpuTemp.toInt).length < 5 := by
    rw [Lcd.length_tempText]
    omega
  exact congrArg (s.overrun || !·) (decide_eq_decide.mpr hlen)

theorem cpuTempHandler_curCpuTemp (io : Io) (read : ThermalRead) (s : System) :
    (s.cpuTempHandler io read).daemon.curCpuTemp = (s.readTemp io read).daemon.curCpuTemp := by
  rw [cpuTempHandler_eq, lcdWriteTemp_daemon]

theorem readTemp_curCpuTemp (h : (decimal t.toInt).length ≤ 7) :
    (s.readTemp .ok (.ok t)).daemon.curCpuTemp = t := Buffer.atoi_pread_decimal t h

theorem readTemp_overrun (h : (decimal t.toInt).length ≤ 7) :
    (s.readTemp .ok (.ok t)).overrun =
      (s.overrun || !decide ((decimal t.toInt).length < 7)) := by
  have hscan := Buffer.afterNumeral_pread_decimal t.toInt h
  exact congrArg (s.overrun || !·) (decide_eq_decide.mpr hscan)

/-- Every temperature from -99999 to 999999 is copied, and scanned inside `buffer`. -/
theorem copied_scanned (hinside : s.overrun = false) (hl : -100000 < t.toInt)
    (hu : t.toInt < 1000000) :
    (s.cpuTempHandler .ok (.ok t)).daemon.curCpuTemp = t ∧
      (s.readTemp .ok (.ok t)).overrun = false := by
  have hlen : (decimal t.toInt).length ≤ 5 + 1 :=
    (length_decimal_le_iff (by decide)).mpr ⟨hl, hu⟩
  have hfit : (decimal t.toInt).length ≤ 7 := by omega
  constructor
  · rw [cpuTempHandler_curCpuTemp, readTemp_curCpuTemp hfit]
  · rw [readTemp_overrun hfit, hinside, decide_eq_true (by omega)]
    rfl

/-- A temperature is copied and shown exactly if it has at most four characters. -/
theorem tempShown_iff (hinside : s.overrun = false) (t : Int32) :
    s.TempShown t ↔ -1000 < t.toInt ∧ t.toInt < 10000 := by
  have hiff : (decimal t.toInt).length < 5 ↔ -1000 < t.toInt ∧ t.toInt < 10000 := by
    rw [Nat.lt_succ_iff]
    exact length_decimal_le_iff (k := 3) (by decide)
  rw [← hiff]
  constructor
  · rintro ⟨hcopied, -, hprinted⟩
    rw [cpuTempHandler_curCpuTemp] at hcopied
    rw [lcdWriteTemp_overrun, hcopied] at hprinted
    simpa using (Bool.or_eq_false_iff.mp hprinted).2
  · intro hlen
    obtain ⟨hl, hu⟩ := hiff.mp hlen
    obtain ⟨hcopied, hscanned⟩ := copied_scanned hinside (t := t) (by omega) (by omega)
    refine ⟨hcopied, hscanned, ?_⟩
    rw [lcdWriteTemp_overrun, hscanned, readTemp_curCpuTemp (by omega), decide_eq_true hlen]
    rfl

theorem tempShown_ready : (ready default).TempShown 9999 ↔
    -1000 < (9999 : Int32).toInt ∧ (9999 : Int32).toInt < 10000 :=
  tempShown_iff (by decide) 9999

/-- An ordinary temperature has five characters, and its line does not fit `cpu_temp_str[15]`. -/
theorem temperature_line_overruns : ¬ ∀ t : Int32, -99999 ≤ t.toInt → t.toInt ≤ 999999 →
    (ready default).TempShown t := by
  intro hall
  have hprinted := (hall 42564 (by decide) (by decide)).printed
  exact absurd hprinted (by decide)

end Path

end System

end CSEL1
