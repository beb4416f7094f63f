import CSEL1.Text.Scan
import CSEL1.Transition.Basic

/-! # The blinking LED

A timer ticks a hundred times in every period, and its handler counts the ticks and
toggles the LED. Three buttons make the period longer, reset it and make it shorter.
The handlers of one program run one after the other, in any order.
-/

namespace CSEL1.Blink

open CText Transition

structure Timespec where
  tvSec : ℤ
  tvNsec : ℤ
  deriving DecidableEq, Repr

namespace Timespec

def ns (t : Timespec) : ℤ := t.tvSec * 10 ^ 9 + t.tvNsec

def Normalised (t : Timespec) : Prop := 0 ≤ t.tvNsec ∧ t.tvNsec < 10 ^ 9

end Timespec

/--
The variables of the program and the LED. `timer` is the interval of the timer, as long as its
descriptor is open.
-/
structure State where
  periodTimerMs : ℤ
  duty : Int32
  count : ℤ
  k : ℕ
  led : Bool
  timer : Option Timespec
  deriving DecidableEq, Repr

/-- What the program handles. A setting of the timer is accepted by the kernel or not. -/
inductive Event
  | timer1
  | k1 (accepted : Bool)
  | k2 (accepted : Bool)
  | k3 (accepted : Bool)
  deriving DecidableEq, Repr

/-- `it_interval`, as `setupTimeTimer` computes it. -/
def interval (periodTimerMs : ℤ) : Timespec :=
  let periodTimerNs := (periodTimerMs * 1000000).tdiv 100
  ⟨periodTimerNs.tdiv 1000000000, periodTimerNs.tmod 1000000000⟩

namespace State

/-- A setting that fails closes the timer. -/
def setupTimeTimer (s : State) (accepted : Bool) : State :=
  { s with timer := if accepted && s.timer.isSome then some (interval s.periodTimerMs) else none }

def toggleLed (s : State) : State :=
  let k := (s.k + 1) % 2
  { s with k := k, led := k == 0 }

def handleTimer1 (s : State) : State :=
  let s := { s with count := s.count + 1 }
  let s := if s.count = s.duty.toInt then s.toggleLed else s
  if 100 ≤ s.count then { s.toggleLed with count := 0 } else s

def handleK1 (s : State) (accepted : Bool) : State :=
  let s := if s.periodTimerMs < 60000 then { s with periodTimerMs := s.periodTimerMs + 100 } else s
  s.setupTimeTimer accepted

def handleK2 (s : State) (accepted : Bool) : State :=
  { s with periodTimerMs := 250 }.setupTimeTimer accepted

def handleK3 (s : State) (accepted : Bool) : State :=
  let s := if 100 < s.periodTimerMs then { s with periodTimerMs := s.periodTimerMs - 100 } else s
  s.setupTimeTimer accepted

def step (s : State) : Event → State
  | .timer1 => s.handleTimer1
  | .k1 accepted => s.handleK1 accepted
  | .k2 accepted => s.handleK2 accepted
  | .k3 accepted => s.handleK3 accepted

/-- `main` in front of its loop: the LED is on, and the timer has been created and set. -/
def start (periodTimerMs : ℤ) (duty : Int32) : State :=
  setupTimeTimer ⟨periodTimerMs, duty, 0, 0, true, some ⟨0, 0⟩⟩ true

/--
`main` with its arguments. It gives up if there are too many of them, or if the kernel does not
accept the first setting of the timer.
-/
def main (accepted : Bool) (argv : List (List Char)) : Option State :=
  match argv with
  | [_] => if accepted then some (start 250 50) else none
  | [_, period] => if accepted then some (start (atoi period).toInt 50) else none
  | [_, period, duty] =>
    if accepted then some (start (atoi period).toInt (atoi duty)) else none
  | _ => none

structure Divides (t : Timespec) (periodTimerMs : ℤ) : Prop where
  normalised : t.Normalised
  nonzero : t.ns ≠ 0
  tick : t.ns = periodTimerMs * 10 ^ 4
  hundred : 100 * t.ns = periodTimerMs * 10 ^ 6

structure Sound (s : State) : Prop where
  positive : 0 < s.periodTimerMs
  max : s.periodTimerMs ≤ 60000
  divided : ∀ t, s.timer = some t → Divides t s.periodTimerMs

/-- K1 is not pressed within the last 100 ms below one minute. -/
def BelowMax (s : State) : Event → Prop
  | .k1 _ => ¬ (59900 < s.periodTimerMs ∧ s.periodTimerMs < 60000)
  | _ => True

/-- The period is an odd multiple of 50 ms, and a timer that is open was set with it. -/
structure Tuned (s : State) : Prop where
  odd : s.periodTimerMs % 100 = 50
  interval_eq : ∀ t, s.timer = some t → t = interval s.periodTimerMs

section Frames

variable (s : State) (accepted : Bool)

@[simp] theorem setupTimeTimer_periodTimerMs :
    (s.setupTimeTimer accepted).periodTimerMs = s.periodTimerMs := rfl

@[simp] theorem setupTimeTimer_duty : (s.setupTimeTimer accepted).duty = s.duty := rfl

@[simp] theorem setupTimeTimer_count : (s.setupTimeTimer accepted).count = s.count := rfl

@[simp] theorem setupTimeTimer_k : (s.setupTimeTimer accepted).k = s.k := rfl

@[simp] theorem setupTimeTimer_led : (s.setupTimeTimer accepted).led = s.led := rfl

theorem handleTimer1_frame : s.handleTimer1.periodTimerMs = s.periodTimerMs ∧
    s.handleTimer1.timer = s.timer ∧ s.handleTimer1.duty = s.duty := by
  simp only [handleTimer1]
  split_ifs <;> exact ⟨rfl, rfl, rfl⟩

end Frames

section Period

variable {s : State} {period : ℤ}

theorem divides_interval (h : 0 < period) : Divides (interval period) period := by
  have htenth : (period * 1000000).tdiv 100 = period * 10000 := by
    rw [Int.tdiv_eq_ediv_of_nonneg (by omega)]
    omega
  have hpos : 0 ≤ period * 10000 := by omega
  have hsec : (interval period).tvSec = period * 10000 / 1000000000 := by
    rw [interval, htenth, Int.tdiv_eq_ediv_of_nonneg hpos]
  have hnsec : (interval period).tvNsec = period * 10000 % 1000000000 := by
    rw [interval, htenth, Int.tmod_eq_emod_of_nonneg hpos]
  have hns : (interval period).ns = period * 10 ^ 4 := by
    rw [Timespec.ns, hsec, hnsec]
    omega
  refine ⟨?_, ?_, hns, ?_⟩
  · rw [Timespec.Normalised, hnsec]
    omega
  · omega
  · omega

theorem Tuned.sound_iff (h : s.Tuned) :
    s.Sound ↔ 0 < s.periodTimerMs ∧ s.periodTimerMs ≤ 60000 := by
  constructor
  · exact fun hs => ⟨hs.positive, hs.max⟩
  · rintro ⟨hpos, hmax⟩
    refine ⟨hpos, hmax, fun t ht => ?_⟩
    rw [h.interval_eq t ht]
    exact divides_interval hpos

theorem tuned_setupTimeTimer (h : s.periodTimerMs % 100 = 50) (accepted : Bool) :
    (s.setupTimeTimer accepted).Tuned := by
  refine ⟨h, fun t ht => ?_⟩
  simp only [setupTimeTimer, Option.ite_none_right_eq_some, Option.some.injEq] at ht
  exact ht.2.symm

theorem tuned_start (duty : Int32) : (start 250 duty).Tuned := tuned_setupTimeTimer rfl true

theorem sound_start (duty : Int32) : (start 250 duty).Sound := by
  have hbounds : (0 : ℤ) < 250 ∧ (250 : ℤ) ≤ 60000 := by decide
  exact (tuned_start duty).sound_iff.mpr hbounds

theorem tuned_step (h : s.Tuned) (e : Event) : (s.step e).Tuned := by
  have hodd := h.odd
  cases e with
  | timer1 =>
    obtain ⟨hperiod, htimer, -⟩ := s.handleTimer1_frame
    refine ⟨?_, fun t ht => ?_⟩
    · rwa [step, hperiod]
    · rw [step, htimer] at ht
      rw [step, hperiod]
      exact h.interval_eq t ht
  | k1 accepted =>
    refine tuned_setupTimeTimer ?_ accepted
    split
    · dsimp only
      omega
    · exact hodd
  | k2 accepted => exact tuned_setupTimeTimer rfl accepted
  | k3 accepted =>
    refine tuned_setupTimeTimer ?_ accepted
    split
    · dsimp only
      omega
    · exact hodd

/-- The bounds are kept exactly if the period does not climb from just below the maximum. -/
theorem sound_step_iff (hs : s.Sound) (h : s.Tuned) (e : Event) :
    (s.step e).Sound ↔ s.BelowMax e := by
  obtain ⟨hpos, hmax⟩ := h.sound_iff.mp hs
  have hodd := h.odd
  rw [(tuned_step h e).sound_iff]
  cases e with
  | timer1 =>
    rw [step, s.handleTimer1_frame.1]
    exact iff_of_true ⟨hpos, hmax⟩ trivial
  | k1 accepted =>
    simp only [step, handleK1, setupTimeTimer_periodTimerMs, BelowMax]
    split
    · dsimp only
      omega
    · omega
  | k2 accepted => exact iff_of_true (by decide : (0 : ℤ) < 250 ∧ (250 : ℤ) ≤ 60000) trivial
  | k3 accepted =>
    simp only [step, handleK3, setupTimeTimer_periodTimerMs, BelowMax, iff_true]
    split
    · dsimp only
      omega
    · exact ⟨hpos, hmax⟩

/--
From the default period the bounds hold, and the timer ticks a hundred times in a period, exactly
as long as K1 is not pressed between 59900 and 60000 ms.
-/
theorem period_sound_iff (duty : Int32) (es : List Event) :
    Always step Sound (start 250 duty) es ↔ Along step BelowMax (start 250 duty) es :=
  always_iff_along (fun _ e _ h => tuned_step h e) (fun _ e hs h => sound_step_iff hs h e)
    (sound_start duty) (tuned_start duty)

theorem run_k1 (n : ℕ) (h : s.periodTimerMs + 100 * n < 60100) :
    (run step s (List.replicate n (.k1 true))).periodTimerMs = s.periodTimerMs + 100 * n := by
  induction n generalizing s with
  | zero => simp
  | succ n ih =>
    have hlt : s.periodTimerMs < 60000 := by omega
    have hstep : (s.step (.k1 true)).periodTimerMs = s.periodTimerMs + 100 := by
      simp only [step, handleK1, setupTimeTimer_periodTimerMs, if_pos hlt]
    rw [List.replicate_succ, run_cons, ih (by omega), hstep]
    omega

/-- The 598th press of K1 leads from 59950 to 60050 ms. -/
theorem period_exceeds_minute :
    ¬ ∀ es : List Event, Always step Sound (start 250 50) es := by
  intro hall
  have hmax := (hall (List.replicate 598 (.k1 true))).last.max
  rw [run_k1 598 (by decide)] at hmax
  exact absurd hmax (by decide)

end Period

end State

end CSEL1.Blink
