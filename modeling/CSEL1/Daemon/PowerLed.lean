import CSEL1.Daemon.EventLoop

/-! # How long the power LED is lit

A press lights the LED and sets the timer, the timer's handler puts both out. The
timer's event may be in the batch of the press, behind it: it was collected for an
older press, and its handler runs all the same.
-/

namespace CSEL1.EventsThread

open Function Transition

/-- The LED is lit as long as the timer is set. -/
structure Lit (s : EventsThread) : Prop where
  led : s.sys.daemon.pwrLed = s.deadline.isSome
  armed : s.sys.daemon.timerArmed = s.deadline.isSome

structure LitSince (t₀ : ℕ) (s : EventsThread) : Prop where
  now : t₀ ≤ s.now
  lit : s.now < t₀ + second → s.sys.daemon.pwrLed = true
  deadline : s.now < t₀ + second → ∀ t ∈ s.deadline, t₀ + second ≤ t
  batch : s.now < t₀ + second → ∀ batch, s.turn = .handling batch → .timer ∉ batch

/-- The time of the timer has come, or the LED is dark; a batch has the timer's event. -/
structure GoesOut (s : EventsThread) : Prop where
  waiting : s.turn = .waiting → s.deadline = none ∨ s.Expired
  batch : ∀ batch, s.turn = .handling batch → s.deadline = none ∨ .timer ∈ batch

def NoPress (s : EventsThread) (m : Move) : Prop :=
  ∀ io read key rest, m = .handle io read → s.turn = .handling (.button key :: rest) →
    ¬ s.Pressed io key

section Steps

variable {s t : EventsThread} {m : Move} {t₀ : ℕ}

theorem lit_step? (h : s.step? m = some t) (hs : s.Lit) : t.Lit := by
  rcases step?_cases h with ⟨io, read, src, rest, -, -, rfl⟩ | hb
  · rcases s.handle_cases io read src rest with ⟨-, hsys, hdeadline⟩ |
      ⟨key, -, -, hlamp, hdeadline⟩ | ⟨-, -, hlamp, hdeadline⟩
    · constructor <;> rw [hdeadline, hsys] <;> rfl
    · constructor <;> rw [hdeadline]
      · exact hlamp.pwrLed
      · exact hlamp.timerArmed
    · constructor <;> rw [hdeadline]
      · exact hlamp.pwrLed.trans hs.led
      · exact hlamp.timerArmed.trans hs.armed
  · constructor <;> rw [hb.deadline]
    · exact hb.lamp.pwrLed.trans hs.led
    · exact hb.lamp.timerArmed.trans hs.armed

/-- Within the second the timer's event is not collected, and a press only sets it anew. -/
theorem litSince_step? (h : s.step? m = some t) (hs : s.LitSince t₀) : t.LitSince t₀ := by
  rcases step?_cases h with ⟨io, read, src, rest, -, hturn, rfl⟩ | hb
  · -- the handler takes no time
    have htail : s.now < t₀ + second → .timer ∉ rest := fun hlt hmem =>
      hs.batch hlt _ hturn (List.mem_cons_of_mem src hmem)
    have hbatch : s.now < t₀ + second → ∀ batch, LoopTurn.handling rest = .handling batch →
        .timer ∉ batch := by
      rintro hlt batch ⟨⟩
      exact htail hlt
    rcases s.handle_cases io read src rest with ⟨rfl, -, -⟩ |
      ⟨key, -, -, hlamp, hdeadline⟩ | ⟨-, -, hlamp, hdeadline⟩
    · have hlate : ¬ s.now < t₀ + second := fun hlt => hs.batch hlt _ hturn List.mem_cons_self
      exact ⟨hs.now, fun hlt => absurd hlt hlate, fun hlt => absurd hlt hlate, hbatch⟩
    · refine ⟨hs.now, fun _ => hlamp.pwrLed, fun _ d hd => ?_, hbatch⟩
      rw [hdeadline] at hd
      obtain rfl := Option.some.inj hd
      exact Nat.add_le_add_right hs.now second
    · refine ⟨hs.now, fun hlt => hlamp.pwrLed.trans (hs.lit hlt), fun hlt d hd => ?_, hbatch⟩
      rw [hdeadline] at hd
      exact hs.deadline hlt d hd
  · have hearly : t.now < t₀ + second → s.now < t₀ + second := hb.now.trans_lt
    refine ⟨hs.now.trans hb.now, fun hlt => hb.lamp.pwrLed.trans (hs.lit (hearly hlt)),
      fun hlt d hd => hs.deadline (hearly hlt) d (hb.deadline ▸ hd), fun hlt batch hbatch => ?_⟩
    rcases hb.turn with hsame | hended | ⟨-, hwaiting⟩ | ⟨batch', -, hready, hcollected⟩
    · exact hs.batch (hearly hlt) batch (hsame ▸ hbatch)
    · rw [hended] at hbatch
      cases hbatch
    · rw [hwaiting] at hbatch
      cases hbatch
    · rw [hcollected] at hbatch
      cases hbatch
      intro hmem
      rcases hready with hready | ⟨-, rfl⟩
      · obtain ⟨d, hd, hle⟩ := hready.timer.mp hmem
        exact absurd (hearly hlt) (Nat.not_lt.mpr ((hs.deadline (hearly hlt) d hd).trans hle))
      · cases hmem

theorem goesOut_step? (h : s.step? m = some t) (hm : s.NoPress m) (hwait : m ≠ .interrupt)
    (hs : s.GoesOut) : t.GoesOut := by
  rcases step?_cases h with ⟨io, read, src, rest, hmove, hturn, rfl⟩ | hb
  · refine ⟨nofun, ?_⟩
    rintro batch ⟨⟩
    rcases s.handle_cases io read src rest with ⟨-, -, hdeadline⟩ | ⟨key, rfl, hpress, -, -⟩ |
      ⟨hsrc, -, -, hdeadline⟩
    · exact Or.inl hdeadline
    · exact absurd hpress (hm io read key rest hmove hturn)
    · rcases hs.batch _ hturn with hnone | hmem
      · exact Or.inl (hdeadline.trans hnone)
      · exact Or.inr ((List.mem_cons.mp hmem).resolve_left (Ne.symm hsrc))
  · have hexpired : s.Expired → t.Expired := by
      rintro ⟨d, hd, hle⟩
      exact ⟨d, hb.deadline.symm ▸ hd, hle.trans hb.now⟩
    rcases hb.turn with hsame | hended | ⟨hhandling, hwaiting⟩ |
      ⟨batch', hwaiting, hready, hcollected⟩
    · refine ⟨fun hw => ?_, fun batch hbatch => ?_⟩
      · exact (hs.waiting (hsame ▸ hw)).imp hb.deadline.trans hexpired
      · exact (hs.batch batch (hsame ▸ hbatch)).imp_left hb.deadline.trans
    · constructor
      · rw [hended]
        nofun
      · rw [hended]
        nofun
    · constructor
      · rintro -
        rcases hs.batch [] hhandling with hnone | hmem
        · exact Or.inl (hb.deadline.trans hnone)
        · cases hmem
      · rw [hwaiting]
        nofun
    · constructor
      · rw [hcollected]
        nofun
      · rw [hcollected]
        rintro batch ⟨⟩
        have hready := hready.resolve_right fun hinterrupt => hwait hinterrupt.1
        exact (hs.waiting hwaiting).imp hb.deadline.trans hready.timer.mpr

theorem deadline_step? {d : ℕ} (h : s.step? m = some t) (hm : s.NoPress m)
    (hs : ∀ t ∈ s.deadline, t = d) : ∀ t' ∈ t.deadline, t' = d := by
  rcases step?_cases h with ⟨io, read, src, rest, hmove, hturn, rfl⟩ | hb
  · rcases s.handle_cases io read src rest with ⟨-, -, hdeadline⟩ | ⟨key, rfl, hpress, -, -⟩ |
      ⟨-, -, -, hdeadline⟩
    · rw [hdeadline]
      nofun
    · exact absurd hpress (hm io read key rest hmove hturn)
    · rwa [hdeadline]
  · rwa [hb.deadline]

theorem exists_handled (read : ThermalRead) {pre post : List Source}
    (hturn : s.turn = .handling (pre ++ post)) :
    ∃ ms, (run step s ms).turn = .handling post ∧ (run step s ms).now = s.now := by
  induction pre generalizing s with
  | nil => exact ⟨[], hturn, rfl⟩
  | cons src pre ih =>
    obtain ⟨ms, hpost, hnow⟩ := ih (s := s.handle .ok read src (pre ++ post)) rfl
    refine ⟨.handle .ok read :: ms, ?_⟩
    have hstep : step s (.handle .ok read) = s.handle .ok read src (pre ++ post) := by
      simp [step, stutter, step?, hturn]
    rw [run_cons, hstep]
    exact ⟨hpost, hnow⟩

end Steps

section Runs

variable {s : EventsThread} {io : Io} {read : ThermalRead} {key : Key} {rest : List Source}

theorem step_handle (hturn : s.turn = .handling (.button key :: rest)) :
    step s (.handle io read) = s.handle io read (.button key) rest := by
  simp [step, stutter, step?, hturn]

theorem always_of_moves {I : EventsThread → Prop} {P : EventsThread → Move → Prop}
    {ms : List Move} (hstep : ∀ s m t, step? s m = some t → P s m → I s → I t) (hs : I s)
    (h : Along step P s ms) : Always step I s ms := by
  refine always_of_along (fun s m hs hm => ?_) hs h
  cases ht : step? s m with
  | none => simpa [step, stutter, ht] using hs
  | some t => simpa [step, stutter, ht] using hstep s m t ht hm hs

end Runs

/-- K1 is held down when the daemon starts; its handler is the first. -/
def heldDown : EventsThread :=
  run step (start
      { driver := Driver.loaded
        lcd := Lcd.cleared
        daemon := ⟨0, 1, 0, false, .attribute, default, false, false⟩
        overrun := false
        log := [] } 0 (fun key => decide (key = .k1)))
    [.test, .collect [.button .k1, .button .k2, .button .k3]]

theorem heldDown_turn :
    heldDown.turn = .handling [.button .k1, .button .k2, .button .k3] := rfl

end CSEL1.EventsThread
