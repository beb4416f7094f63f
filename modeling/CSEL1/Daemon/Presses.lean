import CSEL1.Daemon.Control

/-! # Presses of the frequency buttons

In manual mode K1 and K2 write the next frequency after the daemon's copy of it. The
copy is refreshed by an event of its own, so a press that is handled before the
refresh of an earlier one starts from a frequency that the driver no longer has.
-/

namespace CSEL1

open Transition

/-- A press of a frequency button, with the byte that its handler reads. -/
inductive Press
  | k1 (gpio : UInt8) (pressed : Pressed .ok gpio)
  | k2 (gpio : UInt8) (pressed : Pressed .ok gpio)

def Press.handler : Press → Handler
  | .k1 gpio _ => .k1 gpio
  | .k2 gpio _ => .k2 gpio

def Press.next (freq : Int32) : Press → Int32
  | .k1 _ _ => System.incFreq freq
  | .k2 _ _ => if 0 < freq then System.decFreq freq else freq

inductive Tap
  | press (p : Press)
  | refresh

def Tap.handler : Tap → Handler
  | .press p => p.handler
  | .refresh => .freq

def Tap.next (freq : Int32) : Tap → Int32
  | .press p => p.next freq
  | .refresh => freq

namespace System

def tap (s : System) (t : Tap) : System := s.step .ok (.handler t.handler)

structure Manual (s : System) : Prop where
  curMode_eq : s.daemon.curMode = 1
  freqFd_eq : s.daemon.freqFd = .attribute

/-- A press finds the driver's frequency, or one from which it makes the step that is due. -/
def Fresh (s : System) : Tap → Prop
  | .press (.k1 _ _) => s.daemon.curFreq = s.driver.freq
  | .press (.k2 _ _) =>
    s.daemon.curFreq = s.driver.freq ∨ (s.daemon.curFreq ≤ 1 ∧ s.driver.freq ≤ 0) ∨
      (26 ≤ s.daemon.curFreq ∧ s.daemon.curFreq ≤ 29 ∧ s.driver.freq = s.daemon.curFreq + 5)
  | .refresh => True

instance (s : System) : (t : Tap) → Decidable (s.Fresh t)
  | .press (.k1 _ _) => inferInstanceAs (Decidable (_ = _))
  | .press (.k2 _ _) => inferInstanceAs (Decidable (_ ∨ _))
  | .refresh => inferInstanceAs (Decidable True)

/-- The driver has the daemon's copy of the frequency or one that a press has written from it. -/
def OneStep (s : System) : Prop :=
  s.driver.freq = s.daemon.curFreq ∨ s.driver.freq = incFreq s.daemon.curFreq ∨
    (0 < s.daemon.curFreq ∧ s.driver.freq = decFreq s.daemon.curFreq)

section Steps

theorem incFreq_cases (v : Int32) :
    v < 10 ∧ incFreq v = v + 1 ∨ 10 ≤ v ∧ v < 30 ∧ incFreq v = v + 5 ∨
      30 ≤ v ∧ v < 100 ∧ incFreq v = v + 10 ∨ 100 ≤ v ∧ incFreq v = v + 50 := by
  unfold incFreq
  grind

theorem decFreq_cases (v : Int32) :
    v ≤ 10 ∧ decFreq v = v - 1 ∨ 10 < v ∧ v ≤ 30 ∧ decFreq v = v - 5 ∨
      30 < v ∧ v ≤ 100 ∧ decFreq v = v - 10 ∨ 100 < v ∧ decFreq v = v - 50 := by
  unfold decFreq
  grind

variable {v : Int32}

theorem incFreq_ne (v : Int32) : incFreq v ≠ v := by
  rcases incFreq_cases v with ⟨-, hi⟩ | ⟨-, -, hi⟩ | ⟨-, -, hi⟩ | ⟨-, hi⟩ <;> grind

theorem decFreq_ne (v : Int32) : decFreq v ≠ v := by
  rcases decFreq_cases v with ⟨-, hd⟩ | ⟨-, -, hd⟩ | ⟨-, -, hd⟩ | ⟨-, hd⟩ <;> grind

theorem incFreq_of_nonpos (h : v ≤ 0) : incFreq v = v + 1 := by
  rcases incFreq_cases v with ⟨-, hi⟩ | ⟨hl, -⟩ | ⟨hl, -⟩ | ⟨hl, -⟩ <;> grind

theorem decFreq_bounds (v : Int32) (h : 0 < v) :
    0 ≤ decFreq v ∧ decFreq v < v ∧ (decFreq v = 0 ↔ v = 1) := by
  revert h
  rcases decFreq_cases v with ⟨-, hd⟩ | ⟨hl, -, hd⟩ | ⟨hl, -, hd⟩ | ⟨hl, hd⟩ <;> grind

theorem incFreq_decFreq_ne (v : Int32) (h : 0 < v) : incFreq (decFreq v) ≠ incFreq v := by
  revert h
  rcases decFreq_cases v with ⟨hl, hd⟩ | ⟨hl, hu, hd⟩ | ⟨hl, hu, hd⟩ | ⟨hl, hd⟩ <;>
    rcases incFreq_cases v with ⟨hl', hi⟩ | ⟨hl', hu', hi⟩ | ⟨hl', hu', hi⟩ | ⟨hl', hi⟩ <;>
    rcases incFreq_cases (decFreq v) with ⟨hk, he⟩ | ⟨hk, hk', he⟩ | ⟨hk, hk', he⟩ | ⟨hk, he⟩ <;>
    grind

theorem decFreq_ne_incFreq (v : Int32) : decFreq v ≠ incFreq v := by
  rcases incFreq_cases v with ⟨hl, hi⟩ | ⟨hl, hu, hi⟩ | ⟨hl, hu, hi⟩ | ⟨hl, hi⟩ <;>
    rcases decFreq_cases v with ⟨hl', hd⟩ | ⟨hl', hu', hd⟩ | ⟨hl', hu', hd⟩ | ⟨hl', hd⟩ <;>
    grind

/-- Only from 26 to 29 do a frequency and the next one have the same predecessor. -/
theorem decFreq_eq_decFreq_incFreq_iff (h : 0 < v) (hi : 0 < incFreq v) :
    decFreq v = decFreq (incFreq v) ↔ 26 ≤ v ∧ v ≤ 29 := by
  rcases incFreq_cases v with ⟨hl, hi⟩ | ⟨hl, hu, hi⟩ | ⟨hl, hu, hi⟩ | ⟨hl, hi⟩ <;>
    rcases decFreq_cases v with ⟨hl', hd⟩ | ⟨hl', hu', hd⟩ | ⟨hl', hu', hd⟩ | ⟨hl', hd⟩ <;>
    rcases decFreq_cases (incFreq v) with ⟨hk, he⟩ | ⟨hk, hk', he⟩ | ⟨hk, hk', he⟩ | ⟨hk, he⟩ <;>
    grind

end Steps

section Taps

variable {s : System}

theorem request_tap (h : s.Manual) (t : Tap) :
    s.request .ok (.handler t.handler) = s.handlerRequest .ok t.handler :=
  if_pos ⟨by simp [h.freqFd_eq], fun _ => h.freqFd_eq⟩

theorem tap_freq (h : s.Manual) (t : Tap) : (s.tap t).driver.freq =
    match t with
    | .press (.k1 _ _) => incFreq s.daemon.curFreq
    | .press (.k2 _ _) =>
      if 0 < s.daemon.curFreq then decFreq s.daemon.curFreq else s.driver.freq
    | .refresh => s.driver.freq := by
  have hreach : s.control.FreqReaches .ok := ⟨h.curMode_eq, h.freqFd_eq, rfl⟩
  rw [tap, step_driver, request_tap h]
  rcases t with (⟨gpio, hp⟩ | ⟨gpio, hp⟩) | _
  · simp [Tap.handler, Press.handler, handlerRequest, hp, Control.apply, hreach]
  · by_cases hpos : 0 < s.daemon.curFreq
    · simp [Tap.handler, Press.handler, handlerRequest, hp, hpos, Control.apply, hreach]
    · simp [Tap.handler, Press.handler, handlerRequest, hpos, control]
  · rfl

theorem tap_curFreq (h : s.Manual) (t : Tap) : (s.tap t).daemon.curFreq =
    match t with
    | .press _ => s.daemon.curFreq
    | .refresh => s.driver.freq := by
  rw [tap, step_curFreq, request_tap h]
  rcases t with (⟨gpio, hp⟩ | ⟨gpio, hp⟩) | _
  · simp only [Tap.handler, Press.handler, handlerRequest, if_pos hp, Control.apply]
    split <;> rfl
  · simp only [Tap.handler, Press.handler, handlerRequest]
    split
    · simp only [Control.apply]
      split <;> rfl
    · rfl
  · rfl

theorem manual_tap (h : s.Manual) (t : Tap) : (s.tap t).Manual := by
  refine ⟨?_, freqFd_step h.freqFd_eq _⟩
  have hmode : ∀ mode, s.handlerRequest .ok t.handler ≠ .setMode mode := by
    intro mode
    rcases t with (⟨gpio, hp⟩ | ⟨gpio, hp⟩) | _ <;>
      simp only [Tap.handler, Press.handler, handlerRequest] <;> (try split) <;> simp
  rw [tap, step_curMode, request_tap h, (Control.apply_mode .ok s.control hmode).1]
  exact h.curMode_eq

theorem oneStep_tap (h : s.Manual) (hs : s.OneStep) (t : Tap) : (s.tap t).OneStep := by
  unfold OneStep at hs ⊢
  rw [tap_freq h, tap_curFreq h]
  rcases t with (⟨gpio, hp⟩ | ⟨gpio, hp⟩) | _
  · exact .inr (.inl rfl)
  · dsimp only
    split
    · next hpos => exact .inr (.inr ⟨hpos, rfl⟩)
    · exact hs
  · exact .inl rfl

theorem fresh_k1_iff {c f : Int32}
    (h : f = c ∨ f = incFreq c ∨ (0 < c ∧ f = decFreq c)) : incFreq c = incFreq f ↔ c = f := by
  refine ⟨fun heq => ?_, fun heq => by rw [heq]⟩
  rcases h with rfl | rfl | ⟨hpos, rfl⟩
  · rfl
  · exact absurd heq.symm (incFreq_ne _)
  · exact absurd heq.symm (incFreq_decFreq_ne _ hpos)

theorem fresh_k2_iff {c f : Int32} (h : f = c ∨ f = incFreq c ∨ (0 < c ∧ f = decFreq c)) :
    ((if 0 < c then decFreq c else f) = if 0 < f then decFreq f else f) ↔
      c = f ∨ (c ≤ 1 ∧ f ≤ 0) ∨ (26 ≤ c ∧ c ≤ 29 ∧ f = c + 5) := by
  rcases h with rfl | rfl | ⟨hpos, rfl⟩
  · exact iff_of_true rfl (.inl rfl)
  · by_cases hc : 0 < c
    · by_cases hf : 0 < incFreq c
      · rw [if_pos hc, if_pos hf, decFreq_eq_decFreq_incFreq_iff hc hf]
        have := incFreq_cases c
        grind
      · rw [if_pos hc, if_neg hf]
        have := decFreq_ne_incFreq c
        have := incFreq_cases c
        grind
    · have := incFreq_of_nonpos (Int32.not_lt.mp hc)
      have := decFreq_ne (incFreq c)
      grind
  · obtain ⟨hnonneg, hlt, hzero⟩ := decFreq_bounds c hpos
    have := decFreq_ne (decFreq c)
    grind

/-- A press makes the step that is due exactly if it is fresh. -/
theorem tap_next_iff (h : s.Manual) (hs : s.OneStep) (t : Tap) :
    (s.tap t).driver.freq = t.next s.driver.freq ↔ s.Fresh t := by
  rw [tap_freq h]
  rcases t with (⟨gpio, hp⟩ | ⟨gpio, hp⟩) | _
  · exact fresh_k1_iff hs
  · exact fresh_k2_iff hs
  · exact iff_of_true rfl trivial

end Taps

section Runs

variable {s : System}

/-- No press has been lost so far exactly if each of them was fresh. -/
theorem presses_kept_iff (h : s.Manual) (hcopy : s.daemon.curFreq = s.driver.freq)
    (ts : List Tap) :
    (∀ pre, pre <+: ts → (run tap s pre).driver.freq = run Tap.next s.driver.freq pre) ↔
      Along tap Fresh s ts := by
  have hkept : Always (both tap Tap.next) (fun x => x.1.driver.freq = x.2) (s, s.driver.freq) ts ↔
      Along (both tap Tap.next) (fun x t => x.1.Fresh t) (s, s.driver.freq) ts :=
    always_iff_along (J := fun x => x.1.Manual ∧ x.1.OneStep)
      (fun x t _ hx => ⟨manual_tap hx.1 t, oneStep_tap hx.1 hx.2 t⟩)
      (fun x t hx hx' => by
        rw [both, ← hx]
        exact tap_next_iff hx'.1 hx'.2 t)
      rfl ⟨h, .inl hcopy.symm⟩
  rw [along_both_left, always_iff_prefix] at hkept
  simpa only [run_both] using hkept

/-- The daemon after a press of K3, with the mode and the frequency of the driver. -/
def manual : System := (ready default).step .ok (.handler (.k3 49))

theorem presses_kept_refreshed : manual.Manual ∧ manual.daemon.curFreq = manual.driver.freq ∧
    ∀ pre, pre <+: [.press (.k1 49 (by decide)), .refresh, .press (.k2 49 (by decide))] →
      (run tap manual pre).driver.freq = run Tap.next manual.driver.freq pre :=
  ⟨⟨by decide, by decide⟩, by decide,
    (presses_kept_iff ⟨by decide, by decide⟩ (by decide) _).mpr (by decide)⟩

/-- The second of two presses that are dispatched in one batch is lost. -/
theorem second_press_lost : manual.Manual ∧ manual.daemon.curFreq = manual.driver.freq ∧
    ¬ ∀ ts : List Tap, (run tap manual ts).driver.freq = run Tap.next manual.driver.freq ts := by
  refine ⟨⟨by decide, by decide⟩, by decide, fun hall => ?_⟩
  have hlost := hall [.press (.k1 49 (by decide)), .press (.k1 49 (by decide))]
  exact absurd hlost (by decide)

end Runs

end System

end CSEL1
