import CSEL1.Kthread.Basic
import CSEL1.Transition.Progress

/-! # The module with two threads can always be unloaded

`skeleton_exit` stops the waiting thread first, while the notifying thread still
runs. The waiting thread may sleep when it is asked to stop; it is then the next
notification that lets it see the request. A rank bounds the number of fair rounds
until the module is gone.
-/

namespace CSEL1.Kthread

open Transition

def NotifPc.untilSet : NotifPc → ℕ
  | .set => 1
  | .test => 2
  | .print => 3
  | .sleep => 4
  | .wake => 5
  | .unstarted | .ended => 0

def NotifPc.untilEnded : NotifPc → ℕ
  | .test => 1
  | .print => 2
  | .sleep => 3
  | .wake => 4
  | .set => 5
  | .unstarted | .ended => 0

namespace State

/-- The number of steps until the waiting thread, asked to stop, has ended. -/
def waiterRank (s : State) : ℕ :=
  match s.waiter with
  | .unstarted | .ended => 0
  | .test => 1
  | .clear => 2
  | .check | .recheck => if s.flag then 3 else 6 + s.notif.untilSet
  | .prepare | .print => if s.flag then 4 else 6 + s.notif.untilSet
  | .schedule =>
    if s.flag then if s.asleep then 6 else 5 else 6 + s.notif.untilSet

def waiterHelper (s : State) : Party :=
  match s.waiter with
  | .unstarted | .ended => .module
  | .test | .clear => .waiter
  | .check | .recheck | .prepare | .print => if s.flag then .waiter else .notif
  | .schedule => if s.flag ∧ s.asleep = false then .waiter else .notif

/-- The number of steps until the module is unloaded or has failed. -/
def rank (s : State) : ℕ :=
  if s.oops then 0
  else
    match s.module with
    | .join1 => s.waiterRank + 9
    | .join2 => s.notif.untilEnded + 1
    | .unloaded => 0
    | .rouse2 => 7
    | .stop2 => 8
    | .rouse1 => 21
    | .stop1 => 22
    | .wake2 => 23
    | .create2 => 24
    | .wake1 => 25
    | .create1 => 26

/-- The party whose step brings the end of the module nearer. -/
def helper (s : State) : Party :=
  match s.module with
  | .join1 => s.waiterHelper
  | .join2 => if s.notif = .ended then .module else .notif
  | _ => .module

section Waiter

variable {s : State}

theorem untilSet_le (pc : NotifPc) : pc.untilSet ≤ 5 := by
  cases pc <;> simp [NotifPc.untilSet]

theorem waiterRank_le (s : State) : s.waiterRank ≤ 11 := by
  have := untilSet_le s.notif
  unfold waiterRank
  split <;> try split_ifs
  all_goals omega

theorem waiterHelper_eq_module_iff :
    s.waiterHelper = .module ↔ s.waiter = .unstarted ∨ s.waiter = .ended := by
  cases h : s.waiter <;> simp only [waiterHelper, h] <;> try split
  all_goals simp

/-- The waiting thread, asked to stop, comes nearer to its end or waits for the other thread. -/
theorem waiterRank_waiterStep (hstop : s.stop1 = true) :
    s.waiterStep.waiterRank < s.waiterRank ∨
      (.waiter ≠ s.waiterHelper ∧ s.waiterStep.waiterRank = s.waiterRank ∧
        s.waiterStep.waiterHelper = s.waiterHelper) := by
  cases hw : s.waiter <;> by_cases hf : s.flag = true <;> by_cases ha : s.asleep = true <;>
    simp [waiterRank, waiterHelper, waiterStep, hw, hf, ha, hstop]

theorem waiterRank_notifStep (h : s.Handshake) (hstop : s.stop2 = false)
    (hstart : s.notif ≠ .unstarted) (hend : s.notif ≠ .ended) :
    s.notifStep.waiterRank < s.waiterRank ∨
      (.notif ≠ s.waiterHelper ∧ s.notifStep.waiterRank = s.waiterRank ∧
        s.notifStep.waiterHelper = s.waiterHelper) := by
  have hwoken := h.woken
  have hqueued := h.asleep_queued
  cases hw : s.waiter <;> by_cases hf : s.flag = true <;> by_cases ha : s.asleep = true <;>
    cases hn : s.notif <;>
      simp_all [waiterRank, waiterHelper, notifStep, NotifPc.untilSet]

end Waiter

section Module

variable {ok : Creates} {s : State}

theorem rank_eq_zero_iff : s.rank = 0 ↔ s.oops = true ∨ s.module = .unloaded := by
  cases ho : s.oops <;> cases hm : s.module <;> simp [rank, ho, hm]

theorem oops_of_rank (h0 : s.rank ≠ 0) : s.oops = false := by
  by_contra ho
  exact h0 (rank_eq_zero_iff.mpr (Or.inl (by simpa using ho)))

/-- Away from the two waits of `skeleton_exit` only the module moves on. -/
theorem rank_of_busy (ho : s.oops = false) (h₁ : s.module ≠ .join1) (h₂ : s.module ≠ .join2)
    {t : State} (hto : t.oops = s.oops) (htm : t.module = s.module) :
    t.rank = s.rank ∧ s.helper = .module ∧ t.helper = .module := by
  cases hm : s.module <;> simp_all [rank, helper]

theorem rank_waiterStep (h : s.InOrder ok) (h0 : s.rank ≠ 0) :
    s.waiterStep.rank < s.rank ∨ (.waiter ≠ s.helper ∧ s.waiterStep.rank = s.rank ∧
      s.waiterStep.helper = s.helper) := by
  have ho := oops_of_rank h0
  by_cases h₁ : s.module = .join1
  · have hstop : s.stop1 = true := h.stop1_iff.mpr (by simp [h₁])
    have hmove := waiterRank_waiterStep hstop
    simpa [rank, helper, ho, h₁] using hmove
  · by_cases h₂ : s.module = .join2
    · right
      simp only [rank, helper, h₂, waiterStep_module, waiterStep_notif, waiterStep_oops, ho]
      refine ⟨?_, trivial, trivial⟩
      split <;> simp
    · obtain ⟨hr, hh, hh'⟩ := rank_of_busy ho h₁ h₂ s.waiterStep_oops s.waiterStep_module
      exact Or.inr ⟨by simp [hh], hr, hh'.trans hh.symm⟩

theorem rank_notifStep (h : s.InOrder ok) (hk : s.Handshake) (h0 : s.rank ≠ 0) :
    s.notifStep.rank < s.rank ∨ (.notif ≠ s.helper ∧ s.notifStep.rank = s.rank ∧
      s.notifStep.helper = s.helper) := by
  have ho := oops_of_rank h0
  have hstart : 3 < s.module.phase → s.notif ≠ .unstarted := by
    intro hp hn
    have := h.notif_unstarted.mp hn
    omega
  by_cases h₁ : s.module = .join1
  · have hstop : s.stop2 = false := by
      rw [Bool.eq_false_iff]
      intro hs
      have := h.stop2_iff.mp hs
      simp [h₁] at this
    have hend : s.notif ≠ .ended := fun hn => by simp [h.notif_ended hn] at hstop
    have hmove := waiterRank_notifStep hk hstop (hstart (by simp [h₁])) hend
    simpa [rank, helper, ho, h₁] using hmove
  · by_cases h₂ : s.module = .join2
    · have hstop : s.stop2 = true := h.stop2_iff.mpr (by simp [h₂])
      have hstart := hstart (by simp [h₂])
      cases hn : s.notif <;>
        simp_all [rank, helper, notifStep, NotifPc.untilEnded]
    · obtain ⟨hr, hh, hh'⟩ := rank_of_busy ho h₁ h₂ s.notifStep_oops s.notifStep_module
      exact Or.inr ⟨by simp [hh], hr, hh'.trans hh.symm⟩

theorem rank_moduleStep (h : s.InOrder ok) (h0 : s.rank ≠ 0) :
    (s.moduleStep ok).rank < s.rank ∨ (.module ≠ s.helper ∧ (s.moduleStep ok).rank = s.rank ∧
      (s.moduleStep ok).helper = s.helper) := by
  have ho := oops_of_rank h0
  cases hm : s.module
  case join1 =>
    by_cases hw : s.waiter = .ended
    · left
      simp [rank, moduleStep, ho, hm, hw]
    · right
      have hstart : s.waiter ≠ .unstarted := fun hu => by
        have := h.waiter_unstarted.mp hu
        simp [hm] at this
      have hne : s.waiterHelper ≠ .module :=
        fun he => (waiterHelper_eq_module_iff.mp he).elim hstart hw
      simp [helper, moduleStep, ho, hm, hw, hne.symm]
  case join2 =>
    by_cases hn : s.notif = .ended
    · left
      simp [rank, moduleStep, ho, hm, hn]
    · right
      simp [helper, moduleStep, ho, hm, hn]
  case rouse1 =>
    left
    have hle := waiterRank_le { s with asleep := false, oops := false, module := .join1 }
    simp only [rank, moduleStep, ho, hm, Bool.false_eq_true, if_false]
    omega
  case rouse2 =>
    left
    have hle : s.notif.untilEnded ≤ 5 := by cases s.notif <;> simp [NotifPc.untilEnded]
    simp only [rank, moduleStep, ho, hm, Bool.false_eq_true, if_false]
    omega
  case unloaded => exact absurd (rank_eq_zero_iff.mpr (Or.inr hm)) h0
  all_goals
    left
    simp only [rank, moduleStep, ho, hm, Bool.false_eq_true, if_false]
    try split
    all_goals simp

theorem helped (ok : Creates) :
    Helped (step ok) (fun s => s.InOrder ok ∧ s.Handshake) rank helper where
  kept s p h := ⟨h.1.step p, h.2.step h.1 p⟩
  moves s p h h0 := by
    cases p with
    | waiter => exact rank_waiterStep h.1 h0
    | notif => exact rank_notifStep h.1 h.2 h0
    | module => exact rank_moduleStep h.1 h0
  stays s p h h0 := by
    rw [rank_eq_zero_iff] at h0 ⊢
    cases p with
    | waiter => simpa [step] using h0
    | notif => simpa [step] using h0
    | module => rcases h0 with ho | hm <;> simp [step, moduleStep, *]

theorem rank_le (s : State) : s.rank ≤ 26 := by
  have hwait := waiterRank_le s
  have hend : s.notif.untilEnded ≤ 5 := by cases s.notif <;> simp [NotifPc.untilEnded]
  unfold rank
  split <;> try split
  all_goals omega

theorem run_of_unloaded (h : s.InOrder ok) (hm : s.module = .unloaded) (es : List Party) :
    run (step ok) s es = s := by
  have hw : s.waiter = .ended := h.joined1 (by simp [hm])
  have hn : s.notif = .ended := h.joined2 (by simp [hm])
  induction es with
  | nil => rfl
  | cons p es ih =>
    have hstep : s.step ok p = s := by
      cases p <;> simp [step, waiterStep, notifStep, moduleStep, hw, hn, hm]
    rw [run_cons, hstep, ih]

end Module

end State

open State

/--
Whatever the schedule did before, 26 fair rounds later the module is unloaded and both threads have
ended for good, if both were created; otherwise the error pointer has been followed.
-/
theorem fair_rounds_unload (ok : Creates) (es : List Party) {rounds : List (List Party)}
    (hfair : ∀ round ∈ rounds, FairRound round) (hlen : 26 ≤ rounds.length) :
    if ok.thread1 ∧ ok.thread2 then
      (run (step ok) start (es ++ rounds.flatten)).module = .unloaded ∧
        (run (step ok) start (es ++ rounds.flatten)).waiter = .ended ∧
        (run (step ok) start (es ++ rounds.flatten)).notif = .ended ∧
        ∀ es', run (step ok) start (es ++ rounds.flatten ++ es') =
          run (step ok) start (es ++ rounds.flatten)
    else (run (step ok) start (es ++ rounds.flatten)).oops = true := by
  have hkept := run_kept ok (es ++ rounds.flatten)
  have hzero : (run (step ok) start (es ++ rounds.flatten)).rank = 0 := by
    rw [run_append]
    exact (helped ok).rank_eq_zero (run_kept ok es) hfair ((rank_le _).trans hlen)
  simp only [run_append (step ok) start (es ++ rounds.flatten)]
  generalize run (step ok) start (es ++ rounds.flatten) = s at hkept hzero ⊢
  split
  · next hok =>
    rcases rank_eq_zero_iff.mp hzero with ho | hm
    · rcases hkept.1.oops_at ho with ⟨-, hfail⟩ | ⟨-, hfail⟩
      · simp [hok.1] at hfail
      · simp [hok.2] at hfail
    · have hphase : s.module.phase = 10 := by simp [hm]
      refine ⟨hm, hkept.1.joined1 (by omega), hkept.1.joined2 (by omega), ?_⟩
      exact run_of_unloaded hkept.1 hm
  · next hok =>
    rcases rank_eq_zero_iff.mp hzero with ho | hm
    · exact ho
    · have hphase : s.module.phase = 10 := by simp [hm]
      have h₁ := hkept.1.created1 (by omega)
      have h₂ := hkept.1.created2 (by omega)
      exact absurd ⟨h₁, h₂⟩ hok

/-- The waiting thread sleeps beside an empty flag when it is asked to stop. -/
theorem fair_rounds_unload_asleep :
    (run (step ⟨true, true⟩) start
      ([.module, .module, .waiter, .waiter, .waiter, .waiter, .waiter] ++
        (List.replicate 26 [.waiter, .notif, .module]).flatten)).module = .unloaded := by
  have hfair : ∀ round ∈ List.replicate 26 [Party.waiter, .notif, .module], FairRound round := by
    intro round hr i
    rw [List.eq_of_mem_replicate hr]
    cases i <;> simp
  have h := fair_rounds_unload ⟨true, true⟩
    [.module, .module, .waiter, .waiter, .waiter, .waiter, .waiter] hfair (by simp)
  rw [if_pos ⟨rfl, rfl⟩] at h
  exact h.1

end CSEL1.Kthread
