import CSEL1.Daemon.Presses

/-! # The ladder of frequencies

Presses of K1 and K2, each followed by a refresh, climb up and down one ladder of
frequencies. Its rungs are numbered from 0, and on the ladder a press of one button
undoes a press of the other.
-/

namespace CSEL1

open Transition

/-- The frequencies on the ladder in ascending order. -/
def rung (n : ℕ) : ℤ :=
  if n ≤ 10 then n
  else if n ≤ 14 then 10 + 5 * (n - 10)
  else if n ≤ 21 then 30 + 10 * (n - 14)
  else 100 + 50 * (n - 21)

def Press.change : Press → ℤ
  | .k1 _ _ => 1
  | .k2 _ _ => -1

def net (ps : List Press) : ℤ := (ps.map Press.change).sum

namespace System

def pressRefreshed (s : System) (p : Press) : System := (s.tap (.press p)).tap .refresh

def Fits (s : System) : Press → Prop
  | .k1 _ _ => s.daemon.curFreq.toInt + 50 < 2 ^ 31
  | .k2 _ _ => True

def AboveZero (s : System) : Press → Prop
  | .k1 _ _ => True
  | .k2 _ _ => s.daemon.curFreq ≠ 0

instance (s : System) : (p : Press) → Decidable (s.Fits p)
  | .k1 _ _ => inferInstanceAs (Decidable (_ < _))
  | .k2 _ _ => inferInstanceAs (Decidable True)

instance (s : System) : (p : Press) → Decidable (s.AboveZero p)
  | .k1 _ _ => inferInstanceAs (Decidable True)
  | .k2 _ _ => inferInstanceAs (Decidable (_ ≠ _))

def OnLadder (v : ℤ) : Prop :=
  (0 ≤ v ∧ v ≤ 10) ∨ v ∈ [15, 20, 25, 30] ∨ v ∈ [40, 50, 60, 70, 80, 90, 100] ∨
    ∃ k : ℕ, v = 100 + 50 * k

/-- On the ladder the two buttons undo each other. -/
structure LadderLaws (v : Int32) : Prop where
  onLadder : OnLadder v.toInt
  nonneg : 0 ≤ v
  dec_inc : v.toInt + 50 < 2 ^ 31 → 0 < incFreq v ∧ decFreq (incFreq v) = v
  inc_dec : 0 < v → incFreq (decFreq v) = v

section Rungs

variable {v : Int32} {n : ℕ}

theorem toInt_incFreq (h : v.toInt + 50 < 2 ^ 31) : (incFreq v).toInt = v.toInt +
    if v.toInt < 10 then 1 else if v.toInt < 30 then 5 else if v.toInt < 100 then 10 else 50 := by
  have hl := v.le_toInt
  have hadd : ∀ k : Int32, 0 ≤ k.toInt → k.toInt ≤ 50 → (v + k).toInt = v.toInt + k.toInt := by
    intro k hk hk'
    rw [Int32.toInt_add]
    exact Int.bmod_eq_of_le (by omega) (by omega)
  have h10 : (10 : Int32).toInt = 10 := rfl
  have h30 : (30 : Int32).toInt = 30 := rfl
  have h100 : (100 : Int32).toInt = 100 := rfl
  simp only [incFreq, Int32.lt_iff_toInt_lt, h10, h30, h100]
  split_ifs
  · exact hadd 1 (by decide) (by decide)
  · exact hadd 5 (by decide) (by decide)
  · exact hadd 10 (by decide) (by decide)
  · exact hadd 50 (by decide) (by decide)

theorem toInt_decFreq (h : 0 ≤ v.toInt) : (decFreq v).toInt = v.toInt -
    if 100 < v.toInt then 50 else if 30 < v.toInt then 10 else if 10 < v.toInt then 5 else 1 := by
  have hu := v.toInt_lt
  have hsub : ∀ k : Int32, 0 ≤ k.toInt → k.toInt ≤ 50 → (v - k).toInt = v.toInt - k.toInt := by
    intro k hk hk'
    rw [Int32.toInt_sub]
    exact Int.bmod_eq_of_le (by omega) (by omega)
  have h10 : (10 : Int32).toInt = 10 := rfl
  have h30 : (30 : Int32).toInt = 30 := rfl
  have h100 : (100 : Int32).toInt = 100 := rfl
  simp only [decFreq, Int32.lt_iff_toInt_lt, h10, h30, h100]
  split_ifs
  · exact hsub 50 (by decide) (by decide)
  · exact hsub 10 (by decide) (by decide)
  · exact hsub 5 (by decide) (by decide)
  · exact hsub 1 (by decide) (by decide)

theorem rung_nonneg (n : ℕ) : 0 ≤ rung n := by
  unfold rung
  split_ifs <;> omega

theorem rung_succ_pos (n : ℕ) : 0 < rung (n + 1) := by
  unfold rung
  split_ifs <;> omega

theorem incFreq_rung (h : v.toInt = rung n) (hfits : v.toInt + 50 < 2 ^ 31) :
    (incFreq v).toInt = rung (n + 1) := by
  rw [toInt_incFreq hfits, h]
  unfold rung
  split_ifs <;> omega

theorem decFreq_rung (h : v.toInt = rung (n + 1)) : (decFreq v).toInt = rung n := by
  rw [toInt_decFreq (h ▸ rung_nonneg _), h]
  unfold rung
  split_ifs <;> omega

theorem onLadder_rung (n : ℕ) : OnLadder (rung n) := by
  unfold OnLadder rung
  simp only [List.mem_cons, List.not_mem_nil, or_false]
  rcases Nat.lt_or_ge n 21 with hn | hn
  · split_ifs <;> omega
  · refine .inr (.inr (.inr ⟨n - 21, ?_⟩))
    split_ifs <;> omega

theorem ladderLaws_rung (h : v.toInt = rung n) : LadderLaws v := by
  have hpos : 0 < v ↔ 0 < v.toInt := Int32.lt_iff_toInt_lt
  refine ⟨h ▸ onLadder_rung n, ?_, fun hfits => ?_, fun hv => ?_⟩
  · exact Int32.le_iff_toInt_le.mpr (h ▸ rung_nonneg n)
  · have hinc := incFreq_rung h hfits
    refine ⟨Int32.lt_iff_toInt_lt.mpr ?_, Int32.toInt_inj.mp ((decFreq_rung hinc).trans h.symm)⟩
    rw [hinc]
    exact rung_succ_pos n
  · cases n with
    | zero =>
      have hzero : v.toInt = 0 := h
      exact absurd (hpos.mp hv) (by omega)
    | succ n =>
      have hdec := decFreq_rung h
      have hfits : (decFreq v).toInt + 50 < 2 ^ 31 := by
        have hu := v.toInt_lt
        rw [toInt_decFreq (hpos.mp hv).le]
        split_ifs <;> omega
      exact Int32.toInt_inj.mp ((incFreq_rung hdec hfits).trans h.symm)

end Rungs

structure OnRung (s : System) (n : ℕ) : Prop where
  manual : s.Manual
  copied : s.daemon.curFreq = s.driver.freq
  freq_eq : s.driver.freq.toInt = rung n

section Climbs

variable {s : System} {n : ℕ}

theorem pressRefreshed_freq (h : s.Manual) (hcopy : s.daemon.curFreq = s.driver.freq) (p : Press) :
    (s.pressRefreshed p).driver.freq = p.next s.driver.freq := by
  rw [pressRefreshed, tap_freq (manual_tap h _), tap_freq h, hcopy]
  cases p <;> rfl

theorem manual_pressRefreshed (h : s.Manual) (p : Press) : (s.pressRefreshed p).Manual ∧
    (s.pressRefreshed p).daemon.curFreq = (s.pressRefreshed p).driver.freq := by
  have hmanual := manual_tap h (.press p)
  refine ⟨manual_tap hmanual .refresh, ?_⟩
  rw [pressRefreshed, tap_curFreq hmanual, tap_freq hmanual]

theorem run_pressRefreshed_freq (h : s.Manual) (hcopy : s.daemon.curFreq = s.driver.freq)
    (ps : List Press) :
    (run pressRefreshed s ps).driver.freq = run Press.next s.driver.freq ps := by
  induction ps generalizing s with
  | nil => rfl
  | cons p ps ih =>
    obtain ⟨hmanual, hcopy'⟩ := manual_pressRefreshed h p
    rw [run_cons, run_cons, ih hmanual hcopy', pressRefreshed_freq h hcopy]

theorem onRung_pressRefreshed (h : s.OnRung n) (p : Press) (hfits : s.Fits p) :
    ∃ m : ℕ, (s.pressRefreshed p).OnRung m ∧ (s.AboveZero p → (m : ℤ) = n + p.change) := by
  obtain ⟨hmanual, hcopy, hrung⟩ := h
  have hrest : ∀ m, (p.next s.driver.freq).toInt = rung m → (s.pressRefreshed p).OnRung m := by
    intro m hm
    obtain ⟨hmanual', hcopy'⟩ := manual_pressRefreshed hmanual p
    refine ⟨hmanual', hcopy', ?_⟩
    rw [pressRefreshed_freq hmanual hcopy, hm]
  cases p with
  | k1 gpio hp =>
    have hfits : s.driver.freq.toInt + 50 < 2 ^ 31 := hcopy ▸ hfits
    exact ⟨n + 1, hrest _ (incFreq_rung hrung hfits), fun _ => rfl⟩
  | k2 gpio hp =>
    cases n with
    | zero =>
      have hzero : s.driver.freq = 0 := Int32.toInt_inj.mp hrung
      refine ⟨0, hrest _ ?_, fun hne => absurd (hcopy.trans hzero) hne⟩
      rw [hzero]
      rfl
    | succ n =>
      have hpos : 0 < s.driver.freq := by
        refine Int32.lt_iff_toInt_lt.mpr ?_
        rw [hrung]
        exact rung_succ_pos n
      refine ⟨n, hrest _ ?_, fun _ => ?_⟩
      · rw [Press.next, if_pos hpos]
        exact decFreq_rung hrung
      · rw [Press.change]
        omega

/-- The rung reached is given by the net number of presses. -/
theorem onRung_run {ps : List Press} (h : s.OnRung n) (hfits : Along pressRefreshed Fits s ps) :
    ∃ m : ℕ, (run pressRefreshed s ps).OnRung m ∧
      (Along pressRefreshed AboveZero s ps → (m : ℤ) = n + net ps) := by
  induction ps generalizing s n with
  | nil => exact ⟨n, h, fun _ => by simp [net]⟩
  | cons p ps ih =>
    obtain ⟨k, hk, hp⟩ := onRung_pressRefreshed h p hfits.1
    obtain ⟨m, hm, hps⟩ := ih hk hfits.2
    refine ⟨m, hm, fun habove => ?_⟩
    have hnet : net (p :: ps) = p.change + net ps := by simp [net]
    have := hp habove.1
    have := hps habove.2
    omega

/--
However often K1 and K2 are pressed after automatic mode, the frequency takes the steps of the
buttons and stays on the ladder, where they undo each other, and it is given by the net number of
presses.
-/
theorem ladders_inverse {ps : List Press} (h : s.Manual)
    (hcopy : s.daemon.curFreq = s.driver.freq) (hauto : s.driver.freq ∈ [2, 5, 10, 20])
    (hfits : Along pressRefreshed Fits s ps) :
    (run pressRefreshed s ps).driver.freq = run Press.next s.driver.freq ps ∧
      LadderLaws (run pressRefreshed s ps).driver.freq ∧
      ∀ ps', Along pressRefreshed Fits s ps' → Along pressRefreshed AboveZero s ps →
        Along pressRefreshed AboveZero s ps' → net ps' = net ps →
        (run pressRefreshed s ps').driver.freq = (run pressRefreshed s ps).driver.freq := by
  have hstart : ∃ n, s.OnRung n := by
    simp only [List.mem_cons, List.not_mem_nil, or_false] at hauto
    rcases hauto with hf | hf | hf | hf
    · exact ⟨2, h, hcopy, by rw [hf]; rfl⟩
    · exact ⟨5, h, hcopy, by rw [hf]; rfl⟩
    · exact ⟨10, h, hcopy, by rw [hf]; rfl⟩
    · exact ⟨12, h, hcopy, by rw [hf]; rfl⟩
  obtain ⟨n, hn⟩ := hstart
  obtain ⟨m, hm, hnet⟩ := onRung_run hn hfits
  refine ⟨run_pressRefreshed_freq h hcopy ps, ladderLaws_rung hm.freq_eq, ?_⟩
  intro ps' hfits' habove habove' heq
  obtain ⟨m', hm', hnet'⟩ := onRung_run hn hfits'
  have hsame : m' = m := by
    have := hnet habove
    have := hnet' habove'
    omega
  refine Int32.toInt_inj.mp ?_
  rw [hm'.freq_eq, hm.freq_eq, hsame]

theorem ladders_inverse_k1_k2 :
    let ps : List Press := [.k1 49 (by decide), .k2 49 (by decide)]
    LadderLaws (run pressRefreshed manual ps).driver.freq ∧
      manual.driver.freq = (run pressRefreshed manual ps).driver.freq := by
  intro ps
  have hmanual : manual.Manual := ⟨by decide, by decide⟩
  have hfits : Along pressRefreshed Fits manual ps := by decide
  have hlaws := ladders_inverse hmanual (by decide) (by decide) hfits
  exact ⟨hlaws.2.1, hlaws.2.2 [] trivial (by decide) trivial rfl⟩

end Climbs

end System

end CSEL1
