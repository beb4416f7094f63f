import CSEL1.Transition.Basic

/-! # Waiting for a button

One poller waits in `select` on the button driver while interrupts arrive. Polls and
interrupts interleave step by step: `skeleton_poll` tests `buttonPressed`, clears it and
registers on `button_queue`; `short_interrupt` sets `buttonPressed` and wakes whoever is
registered.
-/

namespace CSEL1.Button

open Transition

/-- How far the poller is. `mask` says whether its `skeleton_poll` is going to return `POLLIN`. -/
inductive Pc
  | ready
  | tested (mask : Bool)
  | cleared (mask : Bool)
  | registered (mask : Bool)
  | asleep
  deriving DecidableEq, Repr

/--
The driver, its poller and its interrupts. `inFlight` counts the interrupts that have set the flag
but not yet called `wake_up`; `unreported` is set while a press has come after the last test that
led to a report.
-/
structure State where
  buttonPressed : Bool
  pc : Pc
  queued : Bool
  woken : Bool
  inFlight : ℕ
  unreported : Bool
  deriving DecidableEq, Repr

/-- The steps of the poller and the two steps of an interrupt. -/
inductive Move | poller | press | wakeUp
  deriving DecidableEq, Repr

namespace State

def start : State := ⟨false, .ready, false, false, 0, false⟩

/--
The next step of the poller. The registration lasts until `select` returns, which it does when a
poll has returned `POLLIN`.
-/
def poller? (s : State) : Option State :=
  match s.pc with
  | .ready =>
    some { s with
      pc := .tested s.buttonPressed
      unreported := s.unreported && !s.buttonPressed }
  | .tested mask => some { s with pc := .cleared mask, buttonPressed := false }
  | .cleared mask => some { s with pc := .registered mask, queued := true }
  | .registered true => some { s with pc := .ready, queued := false, woken := false }
  | .registered false => some { s with pc := .asleep }
  | .asleep => if s.woken then some { s with pc := .ready, woken := false } else none

def step? (s : State) : Move → Option State
  | .poller => s.poller?
  | .press => some { s with buttonPressed := true, inFlight := s.inFlight + 1, unreported := true }
  | .wakeUp =>
    if 0 < s.inFlight then
      some { s with inFlight := s.inFlight - 1, woken := s.woken || s.queued }
    else none

def step : State → Move → State := stutter step?

def alone (s : State) : State := if s.pc = .ready then s else s.step .poller

/-- The next complete `skeleton_poll` reports. The poll in progress takes at most four steps. -/
def NextReports (s : State) : Prop :=
  (alone^[4] s).pc = .ready ∧ (alone^[4] s).buttonPressed = true

/-- The poller is going to be woken, or an interrupt has still to call `wake_up`. -/
def WakePending (s : State) : Prop := s.woken = true ∨ 0 < s.inFlight

/-- An unreported press is going to be reported, and is not cleared nor about to be. -/
structure NothingLost (s : State) : Prop where
  due : s.unreported = true → (s.pc ≠ .asleep ∧ s.NextReports) ∨ s.WakePending
  kept : s.unreported = true → s.buttonPressed = true ∧ ∀ mask, s.pc ≠ .tested mask

/--
No press falls between the test of a poll and its clearing, and when a poll has found nothing, the
last `wake_up` for a press after it does not come before the registration.
-/
def InTime (s : State) : Move → Prop
  | .press => ∀ mask, s.pc ≠ .tested mask
  | .wakeUp =>
    s.pc = .cleared false → s.queued = false → s.buttonPressed = true → s.inFlight ≠ 1
  | .poller => True

/-- An unreported press was cleared, or is slept through with no wake-up to come. -/
def Lost (s : State) : Prop :=
  s.unreported = true ∧
    (s.buttonPressed = false ∨ (s.pc = .asleep ∧ s.woken = false ∧ s.inFlight = 0))

instance (s : State) : Decidable s.Lost := inferInstanceAs (Decidable (_ ∧ _))

structure Consistent (s : State) : Prop where
  unreported : s.buttonPressed = true → s.unreported = true ∨ s.pc = .tested true
  queued : s.pc = .asleep ∨ (∃ mask, s.pc = .registered mask) → s.queued = true
  woken : s.woken = true → s.queued = true

section Steps

variable {s : State}

theorem nextReports_iff : s.NextReports ↔ s.buttonPressed = true ∧
    match s.pc with
    | .ready | .cleared true | .registered true => True
    | .tested _ => False
    | .cleared false | .registered false | .asleep => s.woken = true := by
  obtain ⟨pressed, pc, queued, woken, inFlight, unreported⟩ := s
  rcases pc with _ | mask | mask | mask | _
  · simp [NextReports, alone]
  all_goals
    try cases mask
    all_goals cases woken <;> simp [NextReports, alone, step, stutter, step?, poller?]

theorem nothingLost_iff : s.NothingLost ↔ (s.unreported = true → s.buttonPressed = true ∧
    match s.pc with
    | .ready | .cleared true | .registered true => True
    | .tested _ => False
    | .cleared false | .registered false | .asleep => s.WakePending) := by
  constructor
  · rintro ⟨hdue, hkept⟩ hu
    obtain ⟨hp, htested⟩ := hkept hu
    have hdue := hdue hu
    rw [nextReports_iff] at hdue
    refine ⟨hp, ?_⟩
    rcases hpc : s.pc with _ | mask | mask | mask | _
    · trivial
    · exact htested mask hpc
    · cases mask
      · simpa [hpc, hp, WakePending] using hdue
      · trivial
    · cases mask
      · simpa [hpc, hp, WakePending] using hdue
      · trivial
    · simpa [hpc] using hdue
  · intro h
    refine ⟨fun hu => ?_, fun hu => ?_⟩
    · obtain ⟨hp, hpc⟩ := h hu
      rw [nextReports_iff]
      grind
    · obtain ⟨hp, hpc⟩ := h hu
      exact ⟨hp, fun mask hm => by simp [hm] at hpc⟩

theorem poller?_cases {t : State} (h : s.poller? = some t) :
    (s.pc = .ready ∧ t = { s with
      pc := .tested s.buttonPressed
      unreported := s.unreported && !s.buttonPressed }) ∨
    (∃ mask, s.pc = .tested mask ∧ t = { s with pc := .cleared mask, buttonPressed := false }) ∨
    (∃ mask, s.pc = .cleared mask ∧ t = { s with pc := .registered mask, queued := true }) ∨
    (s.pc = .registered true ∧ t = { s with pc := .ready, queued := false, woken := false }) ∨
    (s.pc = .registered false ∧ t = { s with pc := .asleep }) ∨
    (s.pc = .asleep ∧ s.woken = true ∧ t = { s with pc := .ready, woken := false }) := by
  unfold poller? at h
  grind

theorem Consistent.not_woken (hc : s.Consistent) (hq : s.queued = false) : s.woken = false := by
  rw [← Bool.not_eq_true]
  intro hw
  rw [hc.woken hw] at hq
  cases hq

theorem Consistent.unreported_of_cleared (hc : s.Consistent) {mask : Bool}
    (hpc : s.pc = .cleared mask) (hp : s.buttonPressed = true) : s.unreported = true := by
  rcases hc.unreported hp with hu | htested
  · exact hu
  · rw [hpc] at htested
    cases htested

theorem consistent_poller? {t : State} (h : s.Consistent) (ht : s.poller? = some t) :
    t.Consistent := by
  obtain ⟨hunreported, hqueued, hwoken⟩ := h
  rcases poller?_cases ht with ⟨hpc, rfl⟩ | ⟨mask, hpc, rfl⟩ | ⟨mask, hpc, rfl⟩ | ⟨hpc, rfl⟩ |
    ⟨hpc, rfl⟩ | ⟨hpc, hw, rfl⟩
  · refine ⟨fun hp => ?_, by simp, hwoken⟩
    simp_all
  · exact ⟨by simp, by simp, hwoken⟩
  · refine ⟨fun hp => ?_, fun _ => rfl, fun _ => rfl⟩
    simpa [hpc] using hunreported hp
  · refine ⟨fun hp => ?_, by simp, by simp⟩
    simpa [hpc] using hunreported hp
  · refine ⟨fun hp => ?_, fun _ => hqueued (.inr ⟨false, hpc⟩), hwoken⟩
    simpa [hpc] using hunreported hp
  · refine ⟨fun hp => ?_, by simp, by simp⟩
    simpa [hpc] using hunreported hp

theorem consistent_step (h : s.Consistent) (m : Move) : (s.step m).Consistent := by
  refine stutter_invariant (fun s m t ht hs => ?_) s m h
  cases m with
  | poller => exact consistent_poller? hs ht
  | press =>
    cases ht
    exact ⟨fun _ => .inl rfl, hs.queued, hs.woken⟩
  | wakeUp =>
    simp only [step?] at ht
    split at ht
    · cases ht
      refine ⟨hs.unreported, hs.queued, fun hw => ?_⟩
      rcases Bool.or_eq_true_iff.mp hw with hw | hq
      · exact hs.woken hw
      · exact hq
    · cases ht

theorem nothingLost_poller? {t : State} (ht : s.poller? = some t) (h : s.NothingLost) :
    t.NothingLost := by
  rw [nothingLost_iff] at h ⊢
  rcases poller?_cases ht with ⟨hpc, rfl⟩ | ⟨mask, hpc, rfl⟩ | ⟨mask, hpc, rfl⟩ | ⟨hpc, rfl⟩ |
    ⟨hpc, rfl⟩ | ⟨hpc, hw, rfl⟩
  · intro hu
    obtain ⟨hu, hp⟩ := Bool.and_eq_true_iff.mp hu
    rw [(h hu).1] at hp
    exact absurd hp (by decide)
  · intro hu
    have htested := (h hu).2
    rw [hpc] at htested
    exact htested.elim
  · intro hu
    obtain ⟨hp, hwake⟩ := h hu
    rw [hpc] at hwake
    cases mask with
    | false => exact ⟨hp, hwake⟩
    | true => exact ⟨hp, trivial⟩
  · exact fun hu => ⟨(h hu).1, trivial⟩
  · intro hu
    obtain ⟨hp, hwake⟩ := h hu
    rw [hpc] at hwake
    exact ⟨hp, hwake⟩
  · exact fun hu => ⟨(h hu).1, trivial⟩

theorem step_press : s.step .press =
    { s with buttonPressed := true, inFlight := s.inFlight + 1, unreported := true } := rfl

theorem step_wakeUp (h : 0 < s.inFlight) : s.step .wakeUp =
    { s with inFlight := s.inFlight - 1, woken := s.woken || s.queued } :=
  stutter_of_some (if_pos h)

theorem nothingLost_press_iff : (s.step .press).NothingLost ↔ s.InTime .press := by
  rw [nothingLost_iff, step_press]
  constructor
  · intro h mask hpc
    have htested := (h rfl).2
    simp only [hpc] at htested
  · intro h _
    refine ⟨rfl, ?_⟩
    rcases hpc : s.pc with _ | mask | mask | mask | _
    · trivial
    · exact absurd hpc (h mask)
    · cases mask
      · exact .inr (Nat.succ_pos _)
      · trivial
    · cases mask
      · exact .inr (Nat.succ_pos _)
      · trivial
    · exact .inr (Nat.succ_pos _)

/-- The wake-up of an interrupt is lost on a poller that is not registered. -/
theorem nothingLost_wakeUp_iff (h : s.NothingLost) (hc : s.Consistent) :
    (s.step .wakeUp).NothingLost ↔ s.InTime .wakeUp := by
  by_cases hflight : 0 < s.inFlight
  swap
  · have hsame : s.step .wakeUp = s := by simp [step, stutter, step?, hflight]
    rw [hsame]
    exact iff_of_true h fun _ _ _ => by omega
  rw [nothingLost_iff] at h
  rw [nothingLost_iff, step_wakeUp hflight]
  constructor
  · intro ht hpc hq hp hone
    have hwake := (ht (hc.unreported_of_cleared hpc hp)).2
    simp only [hpc, WakePending, hc.not_woken hq, hq, hone] at hwake
    simp at hwake
  · intro htime hu
    obtain ⟨hp, hwake⟩ := h hu
    refine ⟨hp, ?_⟩
    have hqueued : s.queued = true → (s.woken || s.queued) = true := by
      intro hq
      rw [hq, Bool.or_true]
    rcases hpc : s.pc with _ | mask | mask | mask | _
    · trivial
    · rw [hpc] at hwake
      exact hwake
    · cases mask
      · by_cases hq : s.queued = true
        · exact .inl (hqueued hq)
        · have hne := htime hpc (by simpa using hq) hp
          exact .inr (Nat.sub_pos_of_lt (by omega))
      · trivial
    · cases mask
      · exact .inl (hqueued (hc.queued (.inr ⟨false, hpc⟩)))
      · trivial
    · exact .inl (hqueued (hc.queued (.inl hpc)))

theorem nothingLost_step_iff (h : s.NothingLost) (hc : s.Consistent) (m : Move) :
    (s.step m).NothingLost ↔ s.InTime m := by
  cases m with
  | poller =>
    refine iff_of_true ?_ trivial
    cases ht : s.poller? with
    | none => rwa [step, stutter, show s.step? .poller = none from ht]
    | some t => rw [step, stutter_of_some ht]; exact nothingLost_poller? ht h
  | press => exact nothingLost_press_iff
  | wakeUp => exact nothingLost_wakeUp_iff h hc

end Steps

section Runs

variable {s : State}

theorem Lost.not_nothingLost (h : s.Lost) : ¬ s.NothingLost := by
  rintro ⟨hdue, hkept⟩
  obtain ⟨hu, hp | ⟨hpc, hw, hflight⟩⟩ := h
  · rw [(hkept hu).1] at hp
    cases hp
  · rcases hdue hu with ⟨hawake, -⟩ | hwoken | hpos
    · exact hawake hpc
    · rw [hw] at hwoken
      cases hwoken
    · omega

theorem lost_of_not_inTime (hc : s.Consistent) {m : Move} (h : ¬ s.InTime m) :
    ∃ k, (run step s (m :: List.replicate k .poller)).Lost := by
  cases m with
  | poller => exact absurd trivial h
  | press =>
    simp only [InTime, not_forall, not_not] at h
    obtain ⟨mask, hpc⟩ := h
    refine ⟨1, ?_⟩
    simp [step, stutter, step?, poller?, hpc, Lost]
  | wakeUp =>
    simp only [InTime, Classical.not_imp, not_not] at h
    obtain ⟨hpc, hq, hp, hone⟩ := h
    refine ⟨2, ?_⟩
    have hw := hc.not_woken hq
    have hu := hc.unreported_of_cleared hpc hp
    simp [hone, hw, hq, hu, hp, step, stutter, step?, poller?, hpc, Lost]

theorem consistent_start : start.Consistent := ⟨by decide, by simp [start], by decide⟩

theorem nothingLost_start : start.NothingLost := ⟨by simp [start], by simp [start]⟩

/-- No press is lost in a run exactly if all its moves are in time. -/
theorem always_nothingLost_iff (ms : List Move) :
    Always step NothingLost start ms ↔ Along step InTime start ms :=
  always_iff_along (J := Consistent) (fun _ m _ hc => consistent_step hc m)
    (fun _ m h hc => nothingLost_step_iff h hc m) nothingLost_start consistent_start

/-- A run with a move out of time loses a press once the poller goes on alone after that move. -/
theorem lost_of_not_along {ms : List Move} (h : ¬ Along step InTime start ms) :
    ∃ pre, pre <+: ms ∧ ∃ k, (run step start (pre ++ List.replicate k .poller)).Lost := by
  obtain ⟨pre, m, post, rfl, -, hbreak⟩ := exists_first_break h
  have hc : (run step start pre).Consistent :=
    run_invariant (I := Consistent) (fun _ m hs => consistent_step hs m) consistent_start pre
  obtain ⟨k, hlost⟩ := lost_of_not_inTime hc hbreak
  refine ⟨pre ++ [m], ⟨post, by simp⟩, k, ?_⟩
  rwa [List.append_assoc, run_append]

/-- A press between the clearing and the registration is slept through. -/
theorem press_slept_through :
    let ms := [.poller, .poller, .press, .wakeUp, .poller, .poller]
    (run step start ms).Lost ∧ ¬ Always step NothingLost start ms := by
  have hlost : (run step start [.poller, .poller, .press, .wakeUp, .poller, .poller]).Lost := by
    decide
  exact ⟨hlost, fun h => hlost.not_nothingLost h.last⟩

end Runs

end State

end CSEL1.Button
