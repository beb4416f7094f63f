import CSEL1.Daemon.Events

/-! # A frequency written and read back

The daemon prints a frequency into `freq_str`, the driver scans it, prints it again
with a newline, and the daemon reads that text into `buffer` and scans it. The value
survives for every integer, the arrays are large enough for ten characters only.
-/

namespace CSEL1

open CText

namespace System

/-- `freq_handler` up to the assignment of `cur_freq`. -/
def readFreq (io : Io) (s : System) : System :=
  let buffer := Buffer.fill 11 '\x00'
  let buffer := if io.pread then buffer.pread s.driver.freqShow else buffer
  let s := s.check (afterNumeral buffer.chars ≠ [])
  { s with daemon := { s.daemon with curFreq := atoi buffer.chars } }

/-- A frequency is written to the driver and read back, all inside the arrays. -/
structure FreqRoundTrip (s : System) (v : Int32) : Prop where
  stored : (s.setFreq .ok v).driver.freq = v
  copied : ((s.setFreq .ok v).freqHandler .ok).daemon.curFreq = v
  printed : (s.setFreq .ok v).overrun = false
  scanned : ((s.setFreq .ok v).readFreq .ok).overrun = false

section RoundTrip

variable {s : System}

theorem setFreq_overrun (io : Io) (s : System) (v : Int32) :
    (s.setFreq io v).overrun = (s.overrun || !decide ((decimal v.toInt).length < 11)) := by
  by_cases h : s.FreqReaches io
  · rw [setFreq_reaches io s v h]
    rfl
  · rw [setFreq_lost io s v h]
    rfl

/-- The scan of a frequency ends inside `buffer` exactly if a newline was read behind it. -/
theorem readFreq_overrun (s : System) : (s.readFreq .ok).overrun =
    (s.overrun || !decide ((decimal s.driver.freq.toInt).length < 11)) := by
  have h := Buffer.afterNumeral_pread_decimal s.driver.freq.toInt
    (length_decimal_int32 s.driver.freq)
  exact congrArg (s.overrun || !·) (decide_eq_decide.mpr h)

theorem length_decimal_lt_iff (v : Int32) : (decimal v.toInt).length < 11 ↔ -1000000000 < v := by
  have hu := v.toInt_lt
  have hiff := length_decimal_le_iff (v := v.toInt) (k := 9) (by decide)
  have hv : -1000000000 < v ↔ -10 ^ 9 < v.toInt := by
    rw [Int32.lt_iff_toInt_lt]
    exact Iff.rfl
  rw [Nat.lt_succ_iff, hiff, hv]
  exact and_iff_left (by omega)

/-- A frequency survives the way to the driver and back exactly if it has at most ten characters. -/
theorem freqRoundTrip_iff (hfd : s.daemon.freqFd = .attribute) (hinside : s.overrun = false)
    (v : Int32) : s.FreqRoundTrip v ↔ -1000000000 < v := by
  have hreaches : s.FreqReaches .ok := ⟨hfd, rfl⟩
  have hstored : (s.setFreq .ok v).driver.freq = v := by rw [setFreq_reaches .ok s v hreaches]
  rw [← length_decimal_lt_iff]
  constructor
  · intro h
    have hprinted := h.printed
    rw [setFreq_overrun, hinside] at hprinted
    simpa using hprinted
  · intro hlen
    refine ⟨hstored, ?_, ?_, ?_⟩
    · rw [freqHandler_daemon, hstored]
      rfl
    · rw [setFreq_overrun, hinside, decide_eq_true hlen]
      rfl
    · rw [readFreq_overrun, hstored, setFreq_overrun, hinside, decide_eq_true hlen]
      rfl

theorem freqRoundTrip_ready : ((ready default).FreqRoundTrip 1000 ↔ (-1000000000 : Int32) < 1000) :=
  freqRoundTrip_iff (by decide) (by decide) 1000

/-- Eleven characters and their terminator do not fit `freq_str[11]`. -/
theorem long_frequency_overruns : ¬ (ready default).FreqRoundTrip (-1000000000) := by
  intro h
  exact absurd h.printed (by decide)

end RoundTrip

end System

end CSEL1
