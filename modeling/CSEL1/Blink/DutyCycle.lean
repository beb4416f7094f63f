import CSEL1.Blink.Basic
import CSEL1.Transition.Component

/-! # The duty cycle of the LED

The handler toggles the LED when its count gets to the duty cycle, and once more at
100. The level is the parity of all toggles ever made. A duty cycle of zero is never
counted to, and the LED then keeps a level for a hundred ticks.
-/

namespace CSEL1.Blink

open CText Transition

theorem countP_range'_mod {d p : ℕ} (h : d ≤ p) (m : ℕ) :
    (List.range' m p).countP (fun i => decide (i % p < d)) = d := by
  induction m with
  | zero =>
    obtain ⟨rest, rfl⟩ := Nat.exists_eq_add_of_le h
    have hbelow : ∀ i ∈ List.range' 0 d, decide (i % (d + rest) < d) = true := by
      intro i hi
      have hlt := (List.mem_range'_1.mp hi).2
      rw [decide_eq_true_eq, Nat.mod_eq_of_lt (by omega)]
      omega
    have habove : ∀ i ∈ List.range' (0 + d) rest, ¬ decide (i % (d + rest) < d) = true := by
      intro i hi
      have hmem := List.mem_range'_1.mp hi
      rw [decide_eq_true_eq, Nat.mod_eq_of_lt (by omega)]
      omega
    rw [← List.range'_append_1, List.countP_append, List.countP_eq_length.mpr hbelow,
      List.countP_eq_zero.mpr habove, List.length_range', Nat.add_zero]
  | succ m ih =>
    cases p with
    | zero => exact ih
    | succ q =>
      -- the number that leaves the window and the one that enters it are alike
      have hmod : (m + 1 + q) % (q + 1) = m % (q + 1) := by
        rw [Nat.add_right_comm, Nat.add_assoc, Nat.add_mod_right]
      rw [List.range'_succ, List.countP_cons] at ih
      rw [List.range'_1_concat, List.countP_append, List.countP_singleton, hmod]
      exact ih

namespace State

def ledAfter (s : State) (e : Event) : Bool := (s.step e).led

def ticks (es : List Event) : ℕ := es.count .timer1

def levels (s : State) (es : List Event) : List Bool :=
  ((trace step ledAfter s es).filter (·.1 = .timer1)).map Prod.snd

/-- The LED is on for the duty cycle in every period, and in every window as long as one. -/
structure DutyLaw (s : State) : Prop where
  level : ∀ es, (run step s es).led = true ↔ (ticks es % 100 : ℕ) < s.duty.toInt
  window : ∀ es pre w post, s.levels es = pre ++ w ++ post → w.length = 100 →
    (w.count true : ℤ) = s.duty.toInt

/-- The level is the one that `toggleLed` remembers. -/
structure Level (s : State) (on : Bool) : Prop where
  led : s.led = on
  k : s.k = if on then 0 else 1

/-- The variables after `n` ticks with a duty cycle of `d` percent. -/
structure Phase (s : State) (d n : ℕ) : Prop where
  duty : s.duty.toInt = d
  count : s.count = (n % 100 : ℕ)
  level : s.Level (decide (n % 100 < d))

section Ticks

variable {s : State} {d n : ℕ} {on : Bool} {e : Event}

theorem level_toggleLed (h : s.Level on) : s.toggleLed.Level !on := by
  obtain ⟨-, hk⟩ := h
  cases on <;> simp only [toggleLed, hk] <;> exact ⟨rfl, rfl⟩

@[simp] theorem toggleLed_count (s : State) : s.toggleLed.count = s.count := rfl

theorem handleTimer1_spec (h : s.Level on) :
    s.handleTimer1.count = (if 100 ≤ s.count + 1 then 0 else s.count + 1) ∧
      s.handleTimer1.Level
        ((on ^^ decide (s.count + 1 = s.duty.toInt)) ^^ decide (100 ≤ s.count + 1)) := by
  have hcounted : ({ s with count := s.count + 1 } : State).Level on := ⟨h.led, h.k⟩
  have hduty := level_toggleLed hcounted
  by_cases heq : s.count + 1 = s.duty.toInt
  · by_cases hend : 100 ≤ s.count + 1
    · simp only [handleTimer1, if_pos heq, toggleLed_count, if_pos hend, decide_eq_true heq,
        decide_eq_true hend, Bool.xor_true]
      exact ⟨trivial, (level_toggleLed hduty).led, (level_toggleLed hduty).k⟩
    · simp only [handleTimer1, if_pos heq, toggleLed_count, if_neg hend, decide_eq_true heq,
        decide_eq_false hend, Bool.xor_true, Bool.xor_false]
      exact ⟨trivial, hduty⟩
  · by_cases hend : 100 ≤ s.count + 1
    · simp only [handleTimer1, if_neg heq, if_pos hend, decide_eq_false heq, decide_eq_true hend,
        Bool.xor_true, Bool.xor_false]
      exact ⟨trivial, hduty.led, hduty.k⟩
    · simp only [handleTimer1, if_neg heq, if_neg hend, decide_eq_false heq,
        decide_eq_false hend, Bool.xor_false]
      exact ⟨trivial, hcounted⟩

theorem step_button (he : e ≠ .timer1) : (s.step e).duty = s.duty ∧ (s.step e).count = s.count ∧
    (s.step e).led = s.led ∧ (s.step e).k = s.k := by
  cases e with
  | timer1 => exact absurd rfl he
  | k1 accepted =>
    simp only [step, handleK1]
    split <;> exact ⟨rfl, rfl, rfl, rfl⟩
  | k2 accepted => exact ⟨rfl, rfl, rfl, rfl⟩
  | k3 accepted =>
    simp only [step, handleK3]
    split <;> exact ⟨rfl, rfl, rfl, rfl⟩

theorem level_succ {c : ℕ} (hc : c < 100) (hd : 0 < d) (hd' : d ≤ 100) :
    ((decide (c < d) ^^ decide ((c : ℤ) + 1 = d)) ^^ decide ((100 : ℤ) ≤ c + 1)) =
      decide ((c + 1) % 100 < d) := by
  rcases Nat.lt_or_ge (c + 1) 100 with hlt | hge
  · have hend : ¬ (100 : ℤ) ≤ c + 1 := by omega
    rw [Nat.mod_eq_of_lt hlt, decide_eq_false hend, Bool.xor_false]
    rcases lt_trichotomy (c + 1) d with hbelow | hat | habove
    · have hne : ¬ (c : ℤ) + 1 = d := by omega
      rw [decide_eq_true (Nat.lt_of_succ_lt hbelow), decide_eq_false hne, decide_eq_true hbelow,
        Bool.xor_false]
    · have heq : (c : ℤ) + 1 = d := by omega
      rw [decide_eq_true (hat ▸ Nat.lt_succ_self c), decide_eq_true heq,
        decide_eq_false (hat ▸ Nat.lt_irrefl d), Bool.xor_self]
    · have hne : ¬ (c : ℤ) + 1 = d := by omega
      rw [decide_eq_false (Nat.not_lt.mpr (Nat.le_of_lt_succ habove)), decide_eq_false hne,
        decide_eq_false habove.not_gt, Bool.xor_false]
  · obtain rfl : c = 99 := by omega
    rw [decide_eq_true (show ((100 : ℤ) ≤ (99 : ℕ) + 1) by decide),
      decide_eq_true (show (99 + 1) % 100 < d from hd), Bool.xor_true]
    rcases Nat.lt_or_ge 99 d with hfull | hpart
    · have heq : ((99 : ℕ) : ℤ) + 1 = d := by omega
      rw [decide_eq_true hfull, decide_eq_true heq]
      rfl
    · have hne : ¬ ((99 : ℕ) : ℤ) + 1 = d := by omega
      rw [decide_eq_false (Nat.not_lt.mpr hpart), decide_eq_false hne]
      rfl

theorem phase_step_timer1 (h : s.Phase d n) (hd : 0 < d) (hd' : d ≤ 100) :
    (s.step .timer1).Phase d (n + 1) := by
  obtain ⟨hduty, hcount, hlevel⟩ := h
  obtain ⟨hcount', hlevel'⟩ := handleTimer1_spec hlevel
  rw [hcount] at hcount' hlevel'
  rw [hduty] at hlevel'
  refine ⟨s.handleTimer1_frame.2.2 ▸ hduty, ?_, ?_⟩
  · rw [step, hcount']
    split <;> omega
  · rwa [level_succ (Nat.mod_lt n (by decide)) hd hd', Nat.mod_add_mod] at hlevel'

theorem ticks_cons (e : Event) (es : List Event) :
    ticks (e :: es) = (if e = .timer1 then 1 else 0) + ticks es := by
  rw [ticks, List.count_cons, Nat.add_comm]
  simp only [beq_iff_eq, ticks]

theorem phase_step (h : s.Phase d n) (hd : 0 < d) (hd' : d ≤ 100) (e : Event) :
    (s.step e).Phase d (n + if e = .timer1 then 1 else 0) := by
  split
  · next htick =>
    rw [htick]
    exact phase_step_timer1 h hd hd'
  · next hbutton =>
    obtain ⟨hduty, hcount, hled, hk⟩ := step_button (s := s) hbutton
    exact ⟨hduty ▸ h.duty, hcount.trans h.count, hled.trans h.level.led, hk.trans h.level.k⟩

theorem run_ticks {P : State → ℕ → Prop}
    (hstep : ∀ s n e, P s n → P (s.step e) (n + if e = .timer1 then 1 else 0)) (h : P s n)
    (es : List Event) : P (run step s es) (n + ticks es) := by
  induction es generalizing s n with
  | nil => exact h
  | cons e es ih =>
    rw [ticks_cons, ← Nat.add_assoc]
    exact ih (hstep s n e h)

theorem phase_run (h : s.Phase d n) (hd : 0 < d) (hd' : d ≤ 100) (es : List Event) :
    (run step s es).Phase d (n + ticks es) :=
  run_ticks (P := fun s n => s.Phase d n) (fun _ _ e h => phase_step h hd hd' e) h es

/-- The levels after the ticks are those of the numbers of ticks. -/
theorem levels_eq (h : s.Phase d n) (hd : 0 < d) (hd' : d ≤ 100) (es : List Event) :
    s.levels es = (List.range' (n + 1) (ticks es)).map fun i => decide (i % 100 < d) := by
  induction es generalizing s n with
  | nil => rfl
  | cons e es ih =>
    have hphase := phase_step h hd hd' e
    have hrest := ih hphase
    rw [ticks_cons]
    by_cases htick : e = .timer1
    · rw [if_pos htick] at hphase hrest ⊢
      rw [Nat.add_comm 1, List.range'_succ, List.map_cons, ← hrest, ← hphase.level.led]
      simp [levels, trace, htick, ledAfter]
    · rw [if_neg htick] at hrest ⊢
      rw [Nat.zero_add, ← hrest]
      simp [levels, trace, htick]

theorem phase_start (period : ℤ) (duty : Int32) (hduty : duty.toInt = d) (hd : 0 < d) :
    (start period duty).Phase d 0 := by
  refine ⟨hduty, rfl, ?_, ?_⟩
  · exact (decide_eq_true hd).symm
  · rw [decide_eq_true (show 0 % 100 < d from hd)]
    rfl

/-- The variables after `n` ticks with a duty cycle that is never counted to. -/
structure Uncounted (s : State) (n : ℕ) : Prop where
  duty : s.duty.toInt ≤ 0 ∨ 100 < s.duty.toInt
  count : s.count = (n % 100 : ℕ)
  level : s.Level (decide (n / 100 % 2 = 0))

theorem uncounted_step (h : s.Uncounted n) (e : Event) :
    (s.step e).Uncounted (n + if e = .timer1 then 1 else 0) := by
  split
  · next htick =>
    subst htick
    obtain ⟨hcount, hlevel⟩ := handleTimer1_spec h.level
    have hlt : n % 100 < 100 := Nat.mod_lt n (by decide)
    have hne : ¬ ((n % 100 : ℕ) : ℤ) + 1 = s.duty.toInt := by
      have hduty := h.duty
      omega
    rw [h.count] at hcount hlevel
    rw [decide_eq_false hne, Bool.xor_false] at hlevel
    refine ⟨s.handleTimer1_frame.2.2 ▸ h.duty, ?_, ?_⟩
    · rw [step, hcount]
      split <;> omega
    · have hon : (decide (n / 100 % 2 = 0) ^^ decide ((100 : ℤ) ≤ (n % 100 : ℕ) + 1)) =
          decide ((n + 1) / 100 % 2 = 0) := by
        by_cases hend : (100 : ℤ) ≤ (n % 100 : ℕ) + 1
        · rw [decide_eq_true hend, Bool.xor_true, ← decide_not, decide_eq_decide]
          omega
        · rw [decide_eq_false hend, Bool.xor_false, decide_eq_decide]
          omega
      rwa [hon] at hlevel
  · next hbutton =>
    obtain ⟨hduty, hcount, hled, hk⟩ := step_button (s := s) hbutton
    exact ⟨hduty ▸ h.duty, hcount.trans h.count, hled.trans h.level.led, hk.trans h.level.k⟩

theorem uncounted_run (h : s.Uncounted n) (es : List Event) :
    (run step s es).Uncounted (n + ticks es) :=
  run_ticks (P := Uncounted) (fun _ _ e h => uncounted_step h e) h es

/-- With a duty cycle outside 1 to 100 the LED changes every hundred ticks. -/
theorem led_of_uncounted (period : ℤ) {duty : Int32}
    (hduty : duty.toInt ≤ 0 ∨ 100 < duty.toInt) (es : List Event) :
    (run step (start period duty) es).led = decide (ticks es / 100 % 2 = 0) := by
  have hstart : (start period duty).Uncounted 0 := ⟨hduty, rfl, rfl, rfl⟩
  have hled := (uncounted_run hstart es).level.led
  rwa [Nat.zero_add] at hled

end Ticks

section Program

variable {accepted : Bool} {argv : List (List Char)} {s : State}

theorem main_eq_start (h : main accepted argv = some s) :
    ∃ period duty, s = start period duty := by
  cases accepted with
  | false =>
    unfold main at h
    split at h <;> cases h
  | true =>
    unfold main at h
    split at h
    · exact ⟨_, _, (Option.some.inj h).symm⟩
    · exact ⟨_, _, (Option.some.inj h).symm⟩
    · exact ⟨_, _, (Option.some.inj h).symm⟩
    · cases h

theorem main_decimal (app : List Char) (period duty : Int32) :
    main true [app, decimal period.toInt, decimal duty.toInt] =
      some (start period.toInt duty) := by
  have hperiod := atoi_decimal period stopsDigits_nil
  have hduty := atoi_decimal duty stopsDigits_nil
  rw [List.append_nil] at hperiod hduty
  rw [main, hperiod, hduty, if_pos rfl]

theorem window_levels {pre w post : List Bool} {n total : ℕ} {f : ℕ → Bool}
    (h : (List.range' n total).map f = pre ++ w ++ post) :
    ∃ m, w = (List.range' m w.length).map f := by
  obtain ⟨front, back, hrange, hfront, -⟩ := List.map_eq_append_iff.mp h
  obtain ⟨before, window, rfl, -, hwindow⟩ := List.map_eq_append_iff.mp hfront
  rw [List.append_assoc] at hrange
  obtain ⟨i, -, -, hback⟩ := List.range'_eq_append_iff.mp hrange
  obtain ⟨j, hj, hmid, -⟩ := List.range'_eq_append_iff.mp hback.symm
  refine ⟨n + i, ?_⟩
  rw [← hwindow, hmid, List.length_map, List.length_range', Nat.mul_one]

theorem dutyLaw_start {period : ℤ} {duty : Int32} (hpos : 1 ≤ duty.toInt)
    (hmax : duty.toInt ≤ 100) : (start period duty).DutyLaw := by
  obtain ⟨d, hd⟩ := Int.eq_ofNat_of_zero_le (show 0 ≤ duty.toInt by omega)
  have hstart := phase_start period duty hd (by omega)
  refine ⟨fun es => ?_, fun es pre w post hsplit hlen => ?_⟩
  · have hrun := phase_run hstart (by omega) (by omega) es
    rw [Nat.zero_add] at hrun
    rw [hrun.level.led, decide_eq_true_eq, hstart.duty]
    exact Int.ofNat_lt.symm
  · rw [levels_eq hstart (by omega) (by omega)] at hsplit
    obtain ⟨m, hw⟩ := window_levels hsplit
    have hcount : w.count true = d := by
      rw [hw, hlen, List.count, List.countP_map]
      refine (List.countP_congr fun i _ => ?_).trans (countP_range'_mod (by omega) m)
      simp
    rw [hcount, hstart.duty]

/--
For every duty cycle from 0 to 100 percent that the program is given, the LED is on for this share
of the ticks if and only if it is not 0.
-/
theorem dutyLaw_iff (h : main accepted argv = some s) (hl : 0 ≤ s.duty.toInt)
    (hu : s.duty.toInt ≤ 100) : s.DutyLaw ↔ 1 ≤ s.duty.toInt := by
  obtain ⟨period, duty, rfl⟩ := main_eq_start h
  constructor
  · intro hlaw
    by_contra hzero
    have hduty : duty.toInt ≤ 0 := Int.not_lt.mp hzero
    have hon := led_of_uncounted period (.inl hduty) [.timer1]
    have htick := (hlaw.level [.timer1]).mp hon
    have hlt : (1 : ℤ) < duty.toInt := htick
    omega
  · exact fun hpos => dutyLaw_start hpos hu

theorem dutyLaw_ten : (start 500 10).DutyLaw ↔ 1 ≤ (start 500 10).duty.toInt :=
  dutyLaw_iff (main_decimal [] 500 10) (by decide) (by decide)

/-- With a duty cycle of 0 the LED is on after the first tick. -/
theorem zero_duty_on : ¬ ∀ accepted argv s, main accepted argv = some s → 0 ≤ s.duty.toInt →
    s.duty.toInt ≤ 100 → s.DutyLaw := by
  intro hall
  have hlaw := hall _ _ _ (main_decimal [] 250 0) (by decide) (by decide)
  exact absurd ((hlaw.level [.timer1]).mp (by decide)) (by decide)

end Program

end State

end CSEL1.Blink
